import CounterLang.Proofs.Balance
import CounterLang.Proofs.Executions
import CounterLang.Proofs.Failures

/-!
# Keywords without a meaning

Two keywords open a block for the search that looks for the end of one, but do nothing when they are
run: the statement is passed over alone, and its `end`, like any other, is no statement that can be
run. Outside all loops this is harmless, since nothing makes a program have the `end`. The body of a
loop has it, because it was cut out so that all the blocks in it are closed: once the opener is
passed over, one `end` too many is left in the body, and the machine never gets behind it.

## Main definitions

* `Statement.IsInert`: a statement with one of these keywords.
* `Machine.Trapped`: the machine is in a block in which one `end` too many is left.
* `Machine.Completes`: the block that the machine is in comes to its end.

## Main statements

* `Machine.Trapped.of_running`: a transition leads out of no trap.
* `Program.inert_outside_loops`: a program only gets past the two keywords outside all loops.
-/

namespace CounterLang

theorem closesBlock_text (keyword : Keyword) : closesBlock keyword.text = false := by
  cases keyword <;> decide

/-! ## Statements -/

namespace Statement

variable {statement : Statement} {word : Text} {operands : List Text}

/-- The statement begins with a keyword that has no meaning yet. -/
def IsInert (statement : Statement) : Prop :=
  (tokens statement).head? = some Keyword.conditional.text ∨
    (tokens statement).head? = some Keyword.function.text

instance (statement : Statement) : Decidable statement.IsInert :=
  inferInstanceAs (Decidable (_ ∨ _))

theorem IsInert.role_eq (h : IsInert statement) : role statement = .opener := by
  rcases h with h | h
  · obtain ⟨operands, htokens⟩ := List.head?_eq_some_iff.1 h
    rw [role, htokens]
    rfl
  · obtain ⟨operands, htokens⟩ := List.head?_eq_some_iff.1 h
    rw [role, htokens]
    rfl

/-- Nothing is done for an inert statement. -/
theorem IsInert.exists_ignore {store : Store} {line : Int} {command : Command}
    (h : IsInert statement) (htokens : tokens statement = word :: operands)
    (hread : Command.read store line word operands = .ok command) :
    ∃ keyword, command = .ignore keyword := by
  rw [IsInert, htokens, List.head?_cons, Option.some_inj, Option.some_inj] at h
  cases Command.spelled_of_read hread with
  | conditional | function => exact ⟨_, rfl⟩
  | clear | increment | decrement | print | loop => exact absurd h (by decide)

/-- An `end` is no statement that can be run. -/
theorem role_ne_closer_of_read {store : Store} {line : Int} {command : Command}
    (htokens : tokens statement = word :: operands)
    (hread : Command.read store line word operands = .ok command) : role statement ≠ .closer := by
  have hword : closesBlock word = false := by
    cases Command.spelled_of_read hread <;> exact closesBlock_text _
  rw [role, htokens, roleOfTokens, hword]
  split <;> simp

end Statement

namespace Block

variable {statement : Statement} {rest : Program}

/-- A statement that does not close the block leaves its `end` in what follows. -/
theorem isSome_split?_tail (hrole : Statement.role statement ≠ .closer)
    (h : (split? 0 (statement :: rest)).isSome) : (split? 0 rest).isSome := by
  rw [split?_cons] at h
  cases hr : Statement.role statement with
  | closer => exact absurd hr hrole
  | plain => simpa [hr, Statement.Role.after?] using h
  | opener =>
    simp only [hr, Statement.Role.after?, Option.isSome_map] at h
    obtain ⟨block, hblock, -⟩ := isSome_split?_succ_iff.1 h
    rw [hblock]
    rfl

/-- Behind a block that is opened in another one, the `end` of the other one is left. -/
theorem isSome_split?_rest {block : Block} (hrole : Statement.role statement = .opener)
    (hblock : split? 0 rest = some block) (h : (split? 0 (statement :: rest)).isSome) :
    (split? 0 block.rest).isSome := by
  simp only [split?_cons, hrole, Statement.Role.after?, Option.isSome_map] at h
  obtain ⟨inner, hinner, hrest⟩ := isSome_split?_succ_iff.1 h
  rw [hblock, Option.some.injEq] at hinner
  rwa [hinner]

end Block

/-! ## Traps -/

namespace Machine

variable {o : Options} {m next later : Machine} {stack : List Loop} {statement : Statement}
  {rest : Program}

/-- The machine is inside these loops, and what is left of the innermost block of them holds an
`end` that no block opened in it needs. -/
def Trapped (stack : List Loop) (m : Machine) : Prop :=
  ∃ inner, m.loops = inner ++ stack ∧
    (Block.split? 0 (outermost m.code m.line inner).1).isSome

theorem Trapped.suffix (h : m.Trapped stack) : stack <:+ m.loops := by
  obtain ⟨inner, hloops, -⟩ := h
  exact ⟨inner, hloops.symm⟩

/-- The block does not come to its end. -/
theorem Trapped.code_ne_nil (h : m.Trapped stack) (hloops : m.loops = stack) : m.code ≠ [] := by
  obtain ⟨inner, hinner, hend⟩ := h
  obtain rfl : inner = [] := List.append_left_eq_self.1 (hinner.symm.trans hloops)
  intro hcode
  simp [outermost, hcode, Block.split?] at hend

/-- A statement that does not close the block can be passed over. -/
theorem Trapped.of_goto (h : m.Trapped stack) (hcode : m.code = statement :: rest)
    (hrole : Statement.role statement ≠ .closer) (hnext : next.code = rest)
    (hloops : next.loops = m.loops) : next.Trapped stack := by
  obtain ⟨inner, hinner, hend⟩ := h
  refine ⟨inner, hloops.trans hinner, ?_⟩
  cases inner with
  | nil =>
    rw [outermost, hcode] at hend
    rw [outermost, hnext]
    exact Block.isSome_split?_tail hrole hend
  | cons loop inner => exact hend

/-- So can a loop, which is closed before the block is. -/
theorem Trapped.of_enter {block : Block} {loop : Loop} (h : m.Trapped stack)
    (hcode : m.code = statement :: rest) (hrole : Statement.role statement = .opener)
    (hblock : Block.split? 0 rest = some block) (hrest : loop.rest = block.rest)
    (hloops : next.loops = loop :: m.loops) : next.Trapped stack := by
  obtain ⟨inner, hinner, hend⟩ := h
  refine ⟨loop :: inner, by rw [hloops, hinner, List.cons_append], ?_⟩
  rw [outermost]
  cases inner with
  | nil =>
    rw [outermost, hcode] at hend
    rw [outermost, hrest]
    exact Block.isSome_split?_rest hrole hblock hend
  | cons => exact hend

/-- A transition leads out of no trap. -/
theorem Trapped.of_running (h : m.Trapped stack) (hs : m.step o = .running next) :
    next.Trapped stack := by
  cases transition_of_step hs with
  | skip hcode htokens =>
    refine h.of_goto hcode ?_ rfl rfl
    rw [Statement.role, htokens]
    simp [Statement.roleOfTokens]
  | perform hcode htokens hbudget hread hperform =>
    rcases hperform.goto_or_enter with ⟨-, hnext, -, hloops⟩ |
      ⟨guard, block, rfl, hblock, -, -, hloops⟩
    · rw [loops_arrive] at hloops
      exact h.of_goto hcode (Statement.role_ne_closer_of_read htokens hread) hnext hloops
    · rw [loops_arrive] at hloops
      have hheader := (Statement.isLoopHeader_iff htokens).2 (Command.read_eq_loop hread)
      exact h.of_enter hcode (Statement.role_eq_opener_of_isLoopHeader hheader) hblock rfl hloops
  | @leave loop outer hcode hloops | @again loop outer _ hcode hloops =>
    obtain ⟨inner, hinner, hend⟩ := h
    cases inner with
    | nil => simp [outermost, hcode, Block.split?] at hend
    | cons first inner =>
      obtain ⟨rfl, rfl⟩ := List.cons.inj (hloops.symm.trans hinner)
      first
      | exact ⟨inner, rfl, hend⟩
      | exact ⟨{ loop with iterations := loop.iterations + 1 } :: inner, rfl, hend⟩

theorem Trapped.of_reaches (h : m.Trapped stack) (hreach : m.Reaches o later) :
    later.Trapped stack := by
  induction hreach with
  | refl => exact h
  | tail _ hs ih => exact ih.of_running hs

/-! ## Inert statements -/

/-- The block that the machine is in comes to its end, inside the loops that are open now. -/
def Completes (o : Options) (m : Machine) : Prop :=
  ∃ later, m.Reaches o later ∧ later.loops = m.loops ∧ later.code = []

/-- Inside a loop, an inert statement that is passed over is a trap. -/
theorem Placed.trapped {program : Program} (h : m.Placed program)
    (hcode : m.code = statement :: rest) (hinert : Statement.IsInert statement)
    (hloops : m.loops ≠ []) (hs : m.step o = .running next) : next.Trapped m.loops := by
  obtain ⟨headers, bound, index, hstack, hlt, hget, hrest, -, haround⟩ := h.exists_index hcode
  obtain ⟨loop, outer, hcons⟩ := List.exists_cons_of_ne_nil hloops
  rw [hcons] at hstack
  obtain ⟨block, hblock⟩ := hstack.exists_split? hlt hget hinert.role_eq haround
  rw [← hrest] at hblock
  have hend : (Block.split? 0 rest).isSome := by simp [hblock]
  cases transition_of_step hs with
  | leave hnil | again hnil => simp [hcode] at hnil
  | skip hcode' htokens =>
    obtain ⟨rfl, -⟩ := List.cons.inj (hcode.symm.trans hcode')
    simp [Statement.IsInert, htokens] at hinert
  | perform hcode' htokens hbudget hread hperform =>
    obtain ⟨rfl, rfl⟩ := List.cons.inj (hcode.symm.trans hcode')
    obtain ⟨keyword, rfl⟩ := hinert.exists_ignore htokens hread
    cases hperform
    exact ⟨[], loops_arrive m o statement, hend⟩

end Machine

/-! ## Whole programs -/

namespace Program

/-- The keywords without a meaning are harmless outside loops only. Let the run of a program, after
anything that has been done before, come to a statement that begins with one of them. If it does so
inside a loop, the execution of the body that it is in never comes to its end, and neither does that
of any loop around: all of them stay open as long as the run goes on. So a run that comes to such a
statement and ends without a fault has come to it outside all loops. The same holds of the
execution, which may also end at an integer that is not written. -/
theorem inert_outside_loops (program : Program) (o : Options) (a : Account) (m : Machine)
    (statement : Statement) (rest : Program)
    (hreach : (({ program } : Scope).resume a).Reaches o m) (hcode : m.code = statement :: rest)
    (hinert : Statement.IsInert statement) :
    (m.loops ≠ [] → ¬ m.Completes o ∧ ∀ later, m.Reaches o later → m.loops <:+ later.loops) ∧
    (∀ e, (({ program } : Scope).resume a).Ends o e → e.fault = none → m.loops = []) ∧
    ∀ verdict, ({ program } : Scope).Executes o a verdict → verdict.stop = none →
      m.loops = [] := by
  have htrapped : m.loops ≠ [] → ∀ later, m.Reaches o later →
      later = m ∨ later.Trapped m.loops := by
    intro hloops later hlater
    rcases Relation.ReflTransGen.cases_head hlater with rfl | ⟨next, hs, hnext⟩
    · exact .inl rfl
    · have hplaced := (Scope.placed_resume program a).of_reaches hreach
      exact .inr ((hplaced.trapped hcode hinert hloops hs).of_reaches hnext)
  have hstays : m.loops ≠ [] → ∀ later, m.Reaches o later → m.loops <:+ later.loops := by
    intro hloops later hlater
    rcases htrapped hloops later hlater with rfl | h
    · exact List.suffix_rfl
    · exact h.suffix
  have hends : ∀ e, (({ program } : Scope).resume a).Ends o e → e.fault = none →
      m.loops = [] := by
    intro e he hfault
    by_contra hloops
    obtain ⟨final, hfinal, ⟨hs, -⟩ | ⟨fault, -, hsome⟩⟩ := (hreach.ends_iff.1 he).exists_last
    · cases Machine.transition_of_step hs with
      | finish _ hnil => exact hloops (List.suffix_nil.1 (hnil ▸ hstays hloops final hfinal))
    · simp [hfault] at hsome
  refine ⟨fun hloops => ⟨?_, hstays hloops⟩, hends, fun verdict hverdict hstop => ?_⟩
  · rintro ⟨later, hlater, hsame, hnil⟩
    rcases htrapped hloops later hlater with rfl | h
    · simp [hcode] at hnil
    · exact h.code_ne_nil hsame hnil
  · obtain ⟨moment, hmoment, hstops⟩ := hverdict.exists_stops (Int.le_refl 0)
    cases hstops with
    | failed | unwritable => cases hstop
    | finished hs => exact hends _ (hmoment.ends_iff.2 (.finished hs)) rfl

/-- Passes over an `if` inside two loops. -/
def trapping : Program :=
  ["clear x", "incr x", "while x not 0 do", "clear y", "while x not 0 do", "if y", "decr x", "end",
    "end", "end"]

/-- The inner loop never gets to its header again, and the run ends at the `end` of the `if`. -/
theorem inert_outside_loops_trapping :
    ∃ m, (({ program := trapping } : Scope).resume { store := ∅ }).Reaches {} m ∧ m.line = 6 ∧
      m.code.head?.any (fun statement => decide (Statement.IsInert statement)) = true ∧
      m.loops.length = 2 ∧ ¬ m.Completes {} ∧
      (∀ later, m.Reaches {} later → 2 ≤ later.loops.length) ∧
      ∃ e, (({ program := trapping } : Scope).resume { store := ∅ }).Ends {} e ∧
        e.machine.line = 8 ∧ e.fault.map (·.kind) = some .unexpectedToken := by
  have hrun : (trapping.start.runFor (.ofBudget (some 7) true) 40).map (fun e =>
      (e.machine.code.head?.any (fun statement => decide (Statement.IsInert statement)),
        e.machine.line, e.machine.loops.length, decide e.Exhausted)) = some (true, 6, 2, true) := by
    decide +kernel
  obtain ⟨e, he, hvalues⟩ := Option.map_eq_some_iff.1 hrun
  simp only [Prod.mk.injEq, decide_eq_true_eq] at hvalues
  obtain ⟨hinert, hline, hheight, hx⟩ := hvalues
  have hnarrower : (Options.ofBudget (some 7) true).Narrower (.ofBudget none true) :=
    Options.narrower_ofBudget true (by simp)
  obtain ⟨m, hreach, -, hlast, -⟩ := (Machine.ends_of_runFor he).exists_moment hnarrower hx
  rw [hlast] at hinert hline hheight
  have hwhole : (trapping.start.runFor {} 40).map (fun e =>
      (e.machine.line, e.fault.map (·.kind))) = some (8, some .unexpectedToken) := by
    decide +kernel
  obtain ⟨last, hends, hlast⟩ := Option.map_eq_some_iff.1 hwhole
  obtain ⟨hend, hkind⟩ := Prod.mk.inj hlast
  have hloops : m.loops ≠ [] := by
    intro hnil
    simp [Machine.tick, hnil] at hheight
  obtain ⟨statement, rest, hcode⟩ : ∃ statement rest, m.code = statement :: rest := by
    refine List.exists_cons_of_ne_nil ?_
    intro hnil
    simp [Machine.tick, hnil] at hinert
  have hkeyword : Statement.IsInert statement := by
    simpa [Machine.tick, hcode] using hinert
  obtain ⟨hstuck, -, -⟩ :=
    inert_outside_loops trapping {} { store := ∅ } m statement rest hreach hcode hkeyword
  obtain ⟨hcompletes, hstays⟩ := hstuck hloops
  refine ⟨m, hreach, hline, hinert, hheight, hcompletes, fun later hlater => ?_, last,
    Machine.ends_of_runFor hends, hend, hkind⟩
  calc 2 = m.loops.length := hheight.symm
    _ ≤ later.loops.length := (hstays later hlater).length_le

end Program

end CounterLang
