import CounterLang.Proofs.Blocks
import CounterLang.Proofs.Budget
import Mathlib.Data.Finset.Lattice.Fold
import Mathlib.Data.Finset.Range
import Mathlib.Data.List.Forall2
import Mathlib.Order.Lattice.Nat

/-!
# The loops that a machine is inside

A machine cuts the body of a loop out of what is left of the block around it, so it never looks at
the whole program again. All the same, at every moment of a run the loops it is inside are those
whose blocks in the whole program hold the statement it has come to.

## Main definitions

* `Program.loopEnd?`: where the loop headed at an index ends.
* `Program.loopsAround`: the loops whose blocks hold an index.
* `Program.nesting`: how many loops stand inside one another at most.
* `Program.Opens`: a loop of a machine is the one headed at an index.
* `Program.Stacked`: the stack of a machine is made of loops inside one another.
* `Machine.Placed`: the machine has come to a statement of the program with the loops around it.

## Main statements

* `Machine.Placed.of_reaches`: a run only comes to such machines.
* `Program.loops_of_reaches`: what this says about the stack, its height and unclosed blocks.
-/

namespace CounterLang

namespace Program

/-- The index of the `end` of the loop headed at an index, if there is a loop and it has one. -/
def loopEnd? (program : Program) (header : Nat) : Option Nat :=
  if program[header]?.any Statement.isLoopHeader then Block.endIndex? program (header + 1)
  else none

/-- The indices of the headers of the loops whose blocks hold an index, outermost first. -/
def loopsAround (program : Program) (index : Nat) : List Nat :=
  (List.range index).filter fun header => (program.loopEnd? header).any (index < ·)

/-- How many loops stand inside one another at most. A loop without an `end` does not count. -/
def nesting (program : Program) : Nat :=
  (Finset.range program.length).sup fun header =>
    if (program.loopEnd? header).isSome then (program.loopsAround header).length + 1 else 0

/-- A loop of a machine is the one headed at an index of the program. -/
structure Opens (program : Program) (header : Nat) (loop : Loop) : Prop where
  /-- It knows the line of its header. -/
  header_eq : loop.header = header + 1
  /-- Its body starts on the next line. -/
  bodyLine_eq : loop.bodyLine = header + 2
  /-- Its body goes up to the `end` that the whole program has for it. -/
  body_eq : ∃ stop, program.loopEnd? header = some stop ∧
    loop.body = (program.take stop).drop (header + 1)

/-- The loops on the stack are headed at the given indices, both innermost first. Each of them is
followed by what is left of the block of the next one, and `bound` is where the innermost block
ends. -/
inductive Stacked (program : Program) : List Nat → List Loop → Nat → Prop where
  | nil : Stacked program [] [] program.length
  | cons {headers : List Nat} {loops : List Loop} {bound header stop : Nat} {loop : Loop}
      (houter : Stacked program headers loops bound)
      (hend : program.loopEnd? header = some stop) (hstop : stop < bound)
      (haround : program.loopsAround header = headers.reverse)
      (hopens : program.Opens header loop)
      (hrest : loop.rest = (program.take bound).drop (stop + 1))
      (hrestLine : loop.restLine = stop + 2) :
      Stacked program (header :: headers) (loop :: loops) stop

variable {program : Program} {header index later stop bound : Nat} {headers : List Nat}
  {loop : Loop} {loops : List Loop} {statement : Statement}

/-! ## Loops by index -/

theorem exists_of_loopEnd?_eq_some (h : program.loopEnd? header = some stop) :
    ∃ statement, program[header]? = some statement ∧ Statement.isLoopHeader statement ∧
      Block.endIndex? program (header + 1) = some stop := by
  rw [loopEnd?, Option.ite_none_right_eq_some, Option.any_eq_true_iff_get] at h
  obtain ⟨⟨hs, hheader⟩, hend⟩ := h
  exact ⟨_, (Option.some_get hs).symm, hheader, hend⟩

theorem loopEnd?_eq_some (h : program[header]? = some statement)
    (hheader : Statement.isLoopHeader statement)
    (hend : Block.endIndex? program (header + 1) = some stop) :
    program.loopEnd? header = some stop := by
  simp [loopEnd?, h, hheader, hend]

theorem loopEnd?_eq_none (h : program[header]? = some statement)
    (hheader : ¬ Statement.isLoopHeader statement) : program.loopEnd? header = none := by
  simp [loopEnd?, h, hheader]

theorem header_lt_of_loopEnd? (h : program.loopEnd? header = some stop) : header < stop := by
  obtain ⟨statement, -, -, hend⟩ := exists_of_loopEnd?_eq_some h
  exact (Block.exists_closer_of_endIndex? hend).1

/-- The `end` of a loop heads no loop. -/
theorem loopEnd?_loopEnd? (h : program.loopEnd? header = some stop) :
    program.loopEnd? stop = none := by
  obtain ⟨statement, -, -, hend⟩ := exists_of_loopEnd?_eq_some h
  obtain ⟨-, closer, hcloser, hrole⟩ := Block.exists_closer_of_endIndex? hend
  refine loopEnd?_eq_none hcloser fun hheader => ?_
  simp [Statement.role_eq_opener_of_isLoopHeader hheader] at hrole

/-- A loop that is headed inside the block of another one ends there. -/
theorem loopEnd?_lt {inner stop' : Nat} (h : program.loopEnd? header = some stop)
    (h' : program.loopEnd? inner = some stop') (hlt : header < inner) (hstop : inner < stop) :
    stop' < stop := by
  obtain ⟨-, -, -, hend⟩ := exists_of_loopEnd?_eq_some h
  obtain ⟨opener, hopener, hheader, hend'⟩ := exists_of_loopEnd?_eq_some h'
  obtain ⟨block, -, hinner, hblock⟩ := Block.endIndex?_nested hend hlt hstop hopener
    (Statement.role_eq_opener_of_isLoopHeader hheader)
  rw [hend', Option.some.injEq] at hinner
  rwa [hinner]

theorem mem_loopsAround : header ∈ program.loopsAround index ↔
    header < index ∧ ∃ stop, program.loopEnd? header = some stop ∧ index < stop := by
  simp [loopsAround, Option.any_eq_true]

/-- Where all loops around an index go on, the loops around a later index are the same with those
that were opened since then. -/
theorem loopsAround_of_le (hle : index ≤ later)
    (h : ∀ header ∈ program.loopsAround index,
      ∃ stop, program.loopEnd? header = some stop ∧ later < stop) :
    program.loopsAround later = program.loopsAround index ++
      (List.range' index (later - index)).filter fun header =>
        (program.loopEnd? header).any (later < ·) := by
  have hrange : List.range later = List.range index ++ List.range' index (later - index) := by
    have := @List.range'_append_1 0 index (later - index)
    rw [Nat.zero_add, Nat.add_sub_cancel' hle] at this
    rw [List.range_eq_range', List.range_eq_range', this]
  rw [loopsAround, hrange, List.filter_append]
  congr 1
  refine List.filter_congr fun header hheader => ?_
  rw [Bool.eq_iff_iff]
  simp only [Option.any_eq_true, decide_eq_true_eq]
  constructor
  · rintro ⟨stop, hstop, hlt⟩
    exact ⟨stop, hstop, Nat.lt_of_le_of_lt hle hlt⟩
  · rintro ⟨stop, hstop, hlt⟩
    exact h header (mem_loopsAround.2 ⟨List.mem_range.1 hheader, stop, hstop, hlt⟩)

theorem loopsAround_succ_of_loopEnd?_eq_none (hnone : program.loopEnd? index = none)
    (h : ∀ header ∈ program.loopsAround index,
      ∃ stop, program.loopEnd? header = some stop ∧ index + 1 < stop) :
    program.loopsAround (index + 1) = program.loopsAround index := by
  rw [loopsAround_of_le (Nat.le_succ index) h]
  simp [hnone]

/-- The body of a loop has that loop around it and those around its header. -/
theorem loopsAround_body (hend : program.loopEnd? header = some stop) (hlt : header + 1 < stop)
    (h : ∀ outer ∈ program.loopsAround header,
      ∃ stop, program.loopEnd? outer = some stop ∧ header + 1 < stop) :
    program.loopsAround (header + 1) = program.loopsAround header ++ [header] := by
  rw [loopsAround_of_le (Nat.le_succ header) h]
  simp [hend, hlt]

/-- Behind its `end`, a loop and all that it holds are closed again. -/
theorem loopsAround_behind (hend : program.loopEnd? header = some stop)
    (h : ∀ outer ∈ program.loopsAround header,
      ∃ stop', program.loopEnd? outer = some stop' ∧ stop + 1 < stop') :
    program.loopsAround (stop + 1) = program.loopsAround header := by
  have hlt := header_lt_of_loopEnd? hend
  rw [loopsAround_of_le (by omega) h, List.filter_eq_nil_iff.2, List.append_nil]
  intro inner hinner hany
  obtain ⟨stop', hend', hstop'⟩ := (Option.any_eq_true _ _).1 hany
  rw [decide_eq_true_eq] at hstop'
  obtain ⟨hle, hle'⟩ : header ≤ inner ∧ inner ≤ stop := by
    rw [List.mem_range'_1] at hinner
    omega
  -- Its `end` heads no loop, the loop itself ends there, and what it holds ends before.
  rcases Nat.eq_or_lt_of_le hle' with rfl | hbefore
  · simp [loopEnd?_loopEnd? hend] at hend'
  · rcases Nat.eq_or_lt_of_le hle with rfl | hafter
    · rw [hend, Option.some.injEq] at hend'
      omega
    · have := loopEnd?_lt hend hend' hafter hbefore
      omega

theorem length_loopsAround_lt_nesting (hend : program.loopEnd? header = some stop) :
    (program.loopsAround header).length < program.nesting := by
  obtain ⟨statement, hget, -⟩ := exists_of_loopEnd?_eq_some hend
  have hmem : header ∈ Finset.range program.length :=
    Finset.mem_range.2 (List.getElem?_eq_some_iff.1 hget).1
  have hle := Finset.le_sup hmem (f := fun header =>
    if (program.loopEnd? header).isSome then (program.loopsAround header).length + 1 else 0)
  rw [hend] at hle
  exact hle

/-! ## Stacks -/

namespace Stacked

/-- The loops on the stack end at `bound` or behind it. -/
theorem exists_loopEnd? (h : program.Stacked headers loops bound) :
    ∀ header ∈ headers, ∃ stop, program.loopEnd? header = some stop ∧ bound ≤ stop := by
  induction h with
  | nil => simp
  | cons _ hend hstop _ _ _ _ ih =>
    intro header hheader
    rcases List.mem_cons.1 hheader with rfl | hheader
    · exact ⟨_, hend, Nat.le_refl _⟩
    · obtain ⟨stop', hend', hle⟩ := ih header hheader
      exact ⟨stop', hend', Nat.le_trans (Nat.le_of_lt hstop) hle⟩

/-- Before `bound` no loop around an index ends if these are the loops on the stack. -/
theorem exists_loopEnd?_of_loopsAround (h : program.Stacked headers loops bound)
    (haround : program.loopsAround index = headers.reverse) (hlt : later < bound) :
    ∀ header ∈ program.loopsAround index,
      ∃ stop, program.loopEnd? header = some stop ∧ later < stop := by
  intro header hheader
  rw [haround, List.mem_reverse] at hheader
  obtain ⟨stop, hend, hle⟩ := h.exists_loopEnd? header hheader
  exact ⟨stop, hend, Nat.lt_of_lt_of_le hlt hle⟩

theorem forall₂_opens (h : program.Stacked headers loops bound) :
    List.Forall₂ program.Opens headers loops := by
  induction h with
  | nil => exact .nil
  | cons _ _ _ _ hopens _ _ ih => exact .cons hopens ih

/-- Each of the headers is that of a loop on the stack. -/
theorem exists_loop (h : program.Stacked headers loops bound) (hheader : header ∈ headers) :
    ∃ loop ∈ loops, program.Opens header loop := by
  induction h with
  | nil => cases hheader
  | cons _ _ _ _ hopens _ _ ih =>
    rcases List.mem_cons.1 hheader with rfl | hheader
    · exact ⟨_, List.mem_cons_self, hopens⟩
    · obtain ⟨loop, hloop, hopens⟩ := ih hheader
      exact ⟨loop, List.mem_cons_of_mem _ hloop, hopens⟩

/-- The stack is no higher than the nesting of the program. -/
theorem length_le_nesting (h : program.Stacked headers loops bound) :
    loops.length ≤ program.nesting := by
  cases h with
  | nil => exact Nat.zero_le _
  | @cons headers loops _ _ _ loop houter hend _ haround =>
    have hlength := houter.forall₂_opens.length_eq
    have hlt := length_loopsAround_lt_nesting hend
    rw [haround, List.length_reverse] at hlt
    rw [List.length_cons]
    omega

/-- Inside a loop every block has its end before that of the loop. -/
theorem exists_split? (h : program.Stacked headers (loop :: loops) bound) (hlt : index < bound)
    (hget : program[index]? = some statement) (hopener : Statement.role statement = .opener)
    (haround : program.loopsAround index = headers.reverse) :
    ∃ block, Block.split? 0 ((program.take bound).drop (index + 1)) = some block := by
  cases h with
  | @cons headers _ _ header _ _ _ hend =>
    have hmem : header ∈ program.loopsAround index := by simp [haround]
    obtain ⟨-, -, -, hindex⟩ := exists_of_loopEnd?_eq_some hend
    obtain ⟨block, hblock, -⟩ :=
      Block.endIndex?_nested hindex (mem_loopsAround.1 hmem).1 hlt hget hopener
    exact ⟨block, hblock⟩

/-- The search for the end of a block in what is left of the block around it gives the index that
the search in the whole program gives. -/
theorem map_split?_eq_endIndex? (h : program.Stacked headers loops bound) (hlt : index < bound)
    (hget : program[index]? = some statement) (hopener : Statement.role statement = .opener)
    (haround : program.loopsAround index = headers.reverse) :
    (Block.split? 0 ((program.take bound).drop (index + 1))).map (index + 1 + ·.body.length) =
      Block.endIndex? program (index + 1) := by
  cases hs : Block.split? 0 ((program.take bound).drop (index + 1)) with
  | some block => exact (Block.endIndex?_of_split?_take hs).1.symm
  | none =>
    cases h with
    | nil =>
      rw [List.take_length] at hs
      simp [Block.endIndex?, hs]
    | cons houter hend hstop houters hopens hrest hrestLine =>
      have hstack := Stacked.cons houter hend hstop houters hopens hrest hrestLine
      obtain ⟨block, hblock⟩ := hstack.exists_split? hlt hget hopener haround
      simp [hblock] at hs

end Stacked

end Program

/-! ## Machines -/

namespace Machine

/-- The machine has come to a statement of the program, with the loops around it on the stack, or to
the end of a block. -/
inductive Placed (program : Program) (m : Machine) : Prop where
  | ended {headers : List Nat} {bound : Nat} (hstack : program.Stacked headers m.loops bound)
      (hcode : m.code = [])
  | facing {headers : List Nat} {bound index : Nat}
      (hstack : program.Stacked headers m.loops bound) (hlt : index < bound)
      (hcode : m.code = (program.take bound).drop index) (hline : m.line = index + 1)
      (haround : program.loopsAround index = headers.reverse)

variable {o : Options} {program : Program} {m next last : Machine} {headers : List Nat}
  {bound index : Nat} {statement : Statement} {rest : Program} {fault : Fault}

theorem placed_of_drop (hstack : program.Stacked headers m.loops bound)
    (hcode : m.code = (program.take bound).drop index) (hline : m.line = index + 1)
    (haround : index < bound → program.loopsAround index = headers.reverse) :
    m.Placed program := by
  rcases Nat.lt_or_ge index bound with hlt | hge
  · exact .facing hstack hlt hcode hline (haround hlt)
  · refine .ended hstack (hcode.trans (List.drop_eq_nil_of_le ?_))
    rw [List.length_take]
    omega

theorem placed_start (program : Program) : program.start.Placed program :=
  placed_of_drop .nil (by simp [Program.start]) rfl fun _ => rfl

namespace Placed

theorem exists_stacked (h : m.Placed program) :
    ∃ headers bound, program.Stacked headers m.loops bound := by
  cases h with
  | ended hstack => exact ⟨_, _, hstack⟩
  | facing hstack => exact ⟨_, _, hstack⟩

/-- The index of the statement that the machine has come to. -/
theorem exists_index (h : m.Placed program) (hcode : m.code = statement :: rest) :
    ∃ headers bound index, program.Stacked headers m.loops bound ∧ index < bound ∧
      program[index]? = some statement ∧ rest = (program.take bound).drop (index + 1) ∧
      m.line = index + 1 ∧ program.loopsAround index = headers.reverse := by
  cases h with
  | ended _ hnil => simp [hcode] at hnil
  | @facing headers bound index hstack hlt hdrop hline haround =>
    rw [hcode] at hdrop
    refine ⟨headers, bound, index, hstack, hlt, ?_, ?_, hline, haround⟩
    · have hhead := congrArg (·[0]?) hdrop
      simpa [List.getElem?_take_of_lt hlt, eq_comm] using hhead
    · have htail := congrArg List.tail hdrop
      simpa using htail

/-- Behind a statement that heads no loop, the loops around are the same. -/
theorem of_plain (hstack : program.Stacked headers m.loops bound)
    (hget : program[index]? = some statement) (hplain : ¬ Statement.isLoopHeader statement)
    (haround : program.loopsAround index = headers.reverse) (hloops : next.loops = m.loops)
    (hcode : next.code = (program.take bound).drop (index + 1)) (hline : next.line = index + 2) :
    next.Placed program := by
  rw [← hloops] at hstack
  refine placed_of_drop hstack hcode (by rw [hline]; push_cast; omega) fun hlt => ?_
  rw [← haround]
  exact Program.loopsAround_succ_of_loopEnd?_eq_none (Program.loopEnd?_eq_none hget hplain)
    (hstack.exists_loopEnd?_of_loopsAround haround hlt)

/-- A loop that is entered goes on top of the loops around its header. -/
theorem of_loop {block : Block} {loop : Loop} (hstack : program.Stacked headers m.loops bound)
    (hget : program[index]? = some statement) (hheader : Statement.isLoopHeader statement)
    (haround : program.loopsAround index = headers.reverse)
    (hblock : Block.split? 0 ((program.take bound).drop (index + 1)) = some block)
    (hline : loop.header = index + 1) (hbody : loop.body = block.body)
    (hbodyLine : loop.bodyLine = index + 2) (hrest : loop.rest = block.rest)
    (hrestLine : loop.restLine = index + 2 + block.body.length + 1)
    (hcode : next.code = []) (hloops : next.loops = loop :: m.loops) : next.Placed program := by
  obtain ⟨hend, hbound⟩ := Block.endIndex?_of_split?_take hblock
  have hloop := Program.loopEnd?_eq_some hget hheader hend
  have hparts := Block.eq_of_split?_drop hblock
  rw [List.take_take, Nat.min_eq_left (Nat.le_of_lt hbound)] at hparts
  have hstack' : program.Stacked (index :: headers) next.loops
      (index + 1 + block.body.length) := by
    rw [hloops]
    exact .cons hstack hloop hbound haround
      ⟨hline, hbodyLine, _, hloop, hbody.trans (congrArg Block.body hparts)⟩
      (hrest.trans (congrArg Block.rest hparts)) (by rw [hrestLine]; push_cast; omega)
  exact .ended hstack' hcode

end Placed

/-- A transition leads from a placed machine to placed machines only. -/
theorem placed_of_running (h : m.Placed program) (hs : m.step o = .running next) :
    next.Placed program := by
  cases transition_of_step hs with
  | leave hcode hloops hget =>
    obtain ⟨headers, stop, hstack⟩ := h.exists_stacked
    rw [hloops] at hstack
    cases hstack with
    | cons houter hend hstop haround hopens hrest hrestLine =>
      refine placed_of_drop houter hrest ?_ fun hlt => ?_
      · exact hrestLine.trans (by push_cast; omega)
      · rw [← haround]
        exact Program.loopsAround_behind hend
          (houter.exists_loopEnd?_of_loopsAround haround hlt)
  | @again loop outer _ hcode hloops hget hvalue hbudget =>
    obtain ⟨headers, stop, hstack⟩ := h.exists_stacked
    rw [hloops] at hstack
    cases hstack with
    | cons houter hend hstop haround hopens hrest hrestLine =>
      obtain ⟨stop', hend', hbody⟩ := hopens.body_eq
      obtain rfl : stop = stop' := Option.some.inj (hend.symm.trans hend')
      have hopens' : program.Opens _ { loop with iterations := loop.iterations + 1 } :=
        ⟨hopens.header_eq, hopens.bodyLine_eq, hopens.body_eq⟩
      have hstack := Program.Stacked.cons houter hend hstop haround hopens' hrest hrestLine
      refine placed_of_drop hstack hbody ?_ fun hlt => ?_
      · exact hopens.bodyLine_eq.trans (by push_cast; omega)
      · rw [Program.loopsAround_body hend hlt, haround, List.reverse_cons]
        exact houter.exists_loopEnd?_of_loopsAround haround (Nat.lt_trans hlt hstop)
  | skip hcode htokens =>
    obtain ⟨headers, bound, index, hstack, -, hget, hrest, hline, haround⟩ := h.exists_index hcode
    exact .of_plain hstack hget (Statement.not_isLoopHeader_of_tokens_eq_nil htokens) haround rfl
      hrest (by simp only [goto, hline]; omega)
  | @perform statement rest word operands command next hcode htokens hbudget hread hperform =>
    obtain ⟨headers, bound, index, hstack, -, hget, hrest, hline, haround⟩ := h.exists_index hcode
    rcases hperform.goto_or_enter with ⟨hplain, hrest', hline', hloops⟩ |
      ⟨guard, block, rfl, hblock, hcode', -, hloops⟩
    · have hword : word ≠ Keyword.loop.text := by
        rintro rfl
        obtain ⟨guard, rfl⟩ := Command.exists_loop_of_read hread
        exact hplain guard rfl
      refine .of_plain hstack hget ?_ haround ?_ (hrest'.trans hrest) (by rw [hline']; omega)
      · rwa [Statement.isLoopHeader_iff htokens]
      · rw [hloops, loops_arrive]
    · have hheader := (Statement.isLoopHeader_iff htokens).2 (Command.read_eq_loop hread)
      rw [loops_arrive] at hloops
      refine .of_loop hstack hget hheader haround (hrest ▸ hblock) hline rfl ?_ rfl ?_ hcode' hloops
      · simp only [hline]; omega
      · simp only [hline]; omega

/-- From a placed machine a run only comes to placed machines. -/
theorem Placed.of_reaches (h : m.Placed program) (hreach : m.Reaches o next) :
    next.Placed program := by
  induction hreach with
  | refl => exact h
  | tail _ hs ih => exact placed_of_running ih hs

theorem placed_of_reaches (h : program.start.Reaches o m) : m.Placed program :=
  (placed_start program).of_reaches h

/-- Inside a loop every block has its end. -/
theorem Placed.loops_eq_nil (h : m.Placed program) (hs : m.step o = .failed fault last)
    (hkind : fault.kind = .unterminatedBlock) : m.loops = [] := by
  cases transition_of_step hs with
  | lose | exhaust | cut => cases hkind
  | reject _ _ _ hread =>
    cases Command.faulty_of_read hread <;> cases hkind
  | fault hcode htokens hbudget hread hperform =>
    cases hperform with
    | undefined => cases hkind
    | unterminated hblock =>
      obtain ⟨headers, bound, index, hstack, hlt, hget, hrest, -, haround⟩ :=
        h.exists_index hcode
      have hheader := (Statement.isLoopHeader_iff htokens).2 (Command.read_eq_loop hread)
      cases hloops : m.loops with
      | nil => rfl
      | cons loop outer =>
        rw [hloops] at hstack
        obtain ⟨block, hsome⟩ := hstack.exists_split? hlt hget
          (Statement.role_eq_opener_of_isLoopHeader hheader) haround
        rw [← hrest, hblock] at hsome
        cases hsome

end Machine

namespace Program

variable {o : Options} {m : Machine}

/-- The loops that a machine is inside mirror the blocks of the whole program. When it has come to
the statement at an index, the stack, outermost first, is made of the loops whose blocks hold that
index, each with the body and the lines that the whole program gives it; and the search for the end
of a block that opens there gives the `end` that the search in the whole program gives. So however
often the loops are run through, the stack is never higher than the program is nested, and a block
without an `end` is only noticed outside all loops. -/
theorem loops_of_reaches (program : Program) (o : Options) (m : Machine)
    (h : program.start.Reaches o m) :
    (∀ statement rest, m.code = statement :: rest → ∃ index : Nat,
      m.line = index + 1 ∧ program[index]? = some statement ∧
      List.Forall₂ program.Opens (program.loopsAround index) m.loops.reverse ∧
      (Statement.role statement = .opener →
        (Block.split? 0 rest).map (index + 1 + ·.body.length) =
          Block.endIndex? program (index + 1))) ∧
    m.loops.length ≤ program.nesting ∧
    ∀ fault last, m.step o = .failed fault last → fault.kind = .unterminatedBlock →
      m.loops = [] := by
  have hm := Machine.placed_of_reaches h
  refine ⟨fun statement rest hcode => ?_, ?_, fun fault last hs hkind => hm.loops_eq_nil hs hkind⟩
  · obtain ⟨headers, bound, index, hstack, hlt, hget, rfl, hline, haround⟩ :=
      hm.exists_index hcode
    refine ⟨index, hline, hget, ?_, fun hopener => ?_⟩
    · rw [haround, List.forall₂_reverse_iff]
      exact hstack.forall₂_opens
    · exact hstack.map_split?_eq_endIndex? hlt hget hopener haround
  · obtain ⟨headers, bound, hstack⟩ := hm.exists_stacked
    exact hstack.length_le_nesting

/-- Runs a loop inside another one, each of them once. -/
def nested : Program :=
  ["clear x", "incr x", "while x not 0 do", "clear y", "incr y", "while y not 0 do", "decr y",
    "end", "decr x", "end"]

/-- When the body of the inner loop is reached, the loops headed at the indices 2 and 5 are open,
and no more loops are ever inside one another. -/
theorem loops_of_reaches_nested :
    ∃ m, nested.start.Reaches {} m ∧ m.line = 7 ∧
      List.Forall₂ nested.Opens [2, 5] m.loops.reverse ∧ nested.nesting = 2 ∧
      m.loops.length ≤ 2 := by
  have hrun : (nested.start.runFor (.ofBudget (some 8) true) 20).map (fun e =>
      (e.machine.code.isEmpty, e.machine.line, decide e.Exhausted)) = some (false, 7, true) := by
    decide +kernel
  obtain ⟨e, he, hvalues⟩ := Option.map_eq_some_iff.1 hrun
  simp only [Prod.mk.injEq, decide_eq_true_eq] at hvalues
  obtain ⟨hcode, hline, hx⟩ := hvalues
  have hnarrower : (Options.ofBudget (some 8) true).Narrower (.ofBudget none true) :=
    Options.narrower_ofBudget true (by simp)
  obtain ⟨m, hreach, -, hlast, -⟩ := (Machine.ends_of_runFor he).exists_moment hnarrower hx
  rw [hlast] at hcode hline
  have hnesting : nested.nesting = 2 := by decide +kernel
  obtain ⟨hdispatch, hheight, -⟩ := loops_of_reaches nested {} m hreach
  refine ⟨m, hreach, hline, ?_, hnesting, hnesting ▸ hheight⟩
  cases hm : m.code with
  | nil => simp [Machine.tick, hm] at hcode
  | cons statement rest =>
    obtain ⟨index, hindex, -, hopens, -⟩ := hdispatch statement rest hm
    obtain rfl : index = 6 := by
      have := hindex.symm.trans hline
      omega
    have haround : nested.loopsAround 6 = [2, 5] := by decide +kernel
    rwa [haround] at hopens

end Program

end CounterLang
