import CounterLang.Proofs.Alike

/-!
# Skeletons

The roles of its statements are the skeleton of a program. The search for the end of a block looks
at nothing else, also where it passes over statements that are never run, and only a statement that
the run comes to is read. So two programs with the same skeleton run alike if they have the same
statements where the run of the first comes to.

## Main definitions

* `Program.Agree`: two pieces of code have the same skeleton, and the same statements on some lines.
* `Machine.Agrees`: two machines differ in no more than that.
* `Scope.VisitedByRun`, `Scope.VisitedByExecution`: the indices that a run or an execution comes to.

## Main statements

* `Program.Agree.split?`: the same skeleton is cut into the same blocks.
* `Machine.Agrees.step`: a transition only reads the statement that the machine has come to.
* `Program.skeleton_suffices`: statements that are not visited matter by their roles alone.
-/

namespace CounterLang

/-! ## Code -/

/-- The statements have the same roles, and they are the same on the lines with the property. -/
inductive Program.Agree (V : Int → Prop) : Int → Program → Program → Prop where
  | nil (line : Int) : Agree V line [] []
  | cons {line : Int} {statement other : Statement} {rest others : Program}
      (hrole : Statement.role statement = Statement.role other)
      (hsame : V line → statement = other) (hrest : Agree V (line + 1) rest others) :
      Agree V line (statement :: rest) (other :: others)

namespace Program

variable {V : Int → Prop} {line : Int} {code code' : Program}

theorem agree_of_map_role_eq (hroles : code.map Statement.role = code'.map Statement.role)
    (h : ∀ index : Nat, V (line + index) → code[index]? = code'[index]?) :
    Agree V line code code' := by
  induction code generalizing line code' with
  | nil =>
    obtain rfl := List.map_eq_nil_iff.1 hroles.symm
    exact .nil line
  | cons statement rest ih =>
    obtain ⟨other, others, rfl, hrole, hrest⟩ := List.map_eq_cons_iff.1 hroles.symm
    refine .cons hrole.symm (fun hline => ?_) (ih hrest.symm fun index hindex => ?_)
    · exact Option.some.inj (h 0 (by simpa using hline))
    · have hnext : V (line + (index + 1 : Nat)) := by
        rwa [show line + ((index + 1 : Nat) : Int) = line + 1 + index by omega]
      simpa using h (index + 1) hnext

theorem Agree.length_eq (h : Agree V line code code') : code'.length = code.length := by
  induction h with
  | nil => rfl
  | cons _ _ _ ih => rw [List.length_cons, List.length_cons, ih]

/-- Only the roles decide where a block ends. -/
theorem Agree.split? (h : Agree V line code code') (depth : Nat) :
    Option.Rel (fun block other => Agree V line block.body other.body ∧
        Agree V (line + block.body.length + 1) block.rest other.rest)
      (Block.split? depth code) (Block.split? depth code') := by
  induction h generalizing depth with
  | nil => exact .none
  | @cons line statement other rest others hrole hsame hrest ih =>
    rw [Block.split?_cons, Block.split?_cons, ← hrole]
    cases (Statement.role statement).after? depth with
    | none => exact .some ⟨.nil line, by simpa using hrest⟩
    | some next =>
      have hnext := ih next
      simp only
      generalize Block.split? next rest = block at hnext ⊢
      generalize Block.split? next others = block' at hnext ⊢
      cases hnext with
      | none => exact .none
      | some hblock =>
        refine .some ⟨.cons hrole hsame hblock.1, ?_⟩
        have hline : ∀ length : Nat, line + 1 + length + 1 = line + (length + 1 : Nat) + 1 := by
          intro length
          omega
        simpa only [Block.rest_cons, Block.body_cons, List.length_cons, hline] using hblock.2

end Program

/-! ## Machines -/

/-- The loops are the same but for code that agrees. -/
inductive Loop.Agrees (V : Int → Prop) (loop : Loop) : Loop → Prop where
  | intro {body rest : Program} (hbody : Program.Agree V loop.bodyLine loop.body body)
      (hrest : Program.Agree V loop.restLine loop.rest rest) :
      Agrees V loop { loop with body, rest }

namespace Machine

/-- The machines are the same but for code that agrees. -/
inductive Agrees (V : Int → Prop) (m : Machine) : Machine → Prop where
  | intro {code : Program} {loops : List Loop} (hcode : Program.Agree V m.line m.code code)
      (hloops : List.Forall₂ (Loop.Agrees V) m.loops loops) : Agrees V m { m with code, loops }

/-- The transitions lead to machines that agree. -/
inductive Outcome.Agrees (V : Int → Prop) : Outcome → Outcome → Prop where
  | running {m n : Machine} (h : m.Agrees V n) : Agrees V (.running m) (.running n)
  | finished : Agrees V .finished .finished
  | failed {m n : Machine} (fault : Fault) (h : m.Agrees V n) :
      Agrees V (.failed fault m) (.failed fault n)

variable {V : Int → Prop} {m n : Machine} {o : Options} {line restLine : Int}
  {statement : Statement} {rest others : Program} {fuel : Nat}

theorem Agrees.account_eq (h : m.Agrees V n) : n.account = m.account := by
  cases h
  rfl

theorem Agrees.goto (h : m.Agrees V n) (hrest : Program.Agree V restLine rest others) :
    (m.goto rest restLine).Agrees V (n.goto others restLine) := by
  cases h with
  | intro _ hloops => exact .intro (m := m.goto rest restLine) hrest hloops

theorem Agrees.count {k k' : Machine → Outcome} (h : m.Agrees V n)
    (hk : (k m.tick).Agrees V (k' n.tick)) : (m.count o line k).Agrees V (n.count o line k') := by
  cases h with
  | @intro code loops hcode hloops =>
    have hbudget : ({ m with code, loops } : Machine).tick.exceeded? o = m.tick.exceeded? o := rfl
    simp only [Machine.count, hbudget]
    split
    · exact .failed _ (.intro (m := m.tick) hcode hloops)
    · exact hk

/-- A command does the same before code that agrees. -/
theorem Agrees.perform (h : m.Agrees V n) (hrest : Program.Agree V restLine rest others)
    (command : Command) :
    Matched Eq (Agrees V) (m.perform line rest restLine command)
      (n.perform line others restLine command) := by
  cases h with
  | @intro code loops hcode hloops =>
    cases command with
    | clear | ignore => exact .ok (.intro hrest hloops)
    | increment name =>
      simp only [Machine.perform, Store.increment, Store.get]
      cases m.store.get? name with
      | none => exact .error rfl
      | some value => exact .ok (.intro hrest hloops)
    | decrement name =>
      simp only [Machine.perform, Store.decrement, Store.get]
      cases m.store.get? name with
      | none => exact .error rfl
      | some value => exact .ok (.intro hrest hloops)
    | print name =>
      simp only [Machine.perform, Store.get]
      cases m.store.get? name with
      | none => exact .error rfl
      | some value => exact .ok (.intro hrest hloops)
    | loop guard =>
      have hblocks := hrest.split? 0
      simp only [Machine.perform]
      generalize Block.split? 0 rest = block at hblocks ⊢
      generalize Block.split? 0 others = block' at hblocks ⊢
      cases hblocks with
      | none => exact .error rfl
      | @some block block' hblock =>
        obtain ⟨hbody, hbehind⟩ := hblock
        simp only [hbody.length_eq]
        exact .ok (.intro (.nil _) (.cons (.intro hbody hbehind) hloops))

/-- What a statement that is the same in both does. -/
theorem Agrees.dispatch (h : m.Agrees V n) (hrest : Program.Agree V restLine rest others)
    (word : Text) (operands : List Text) :
    Matched Eq (Agrees V) (m.dispatch line word operands rest restLine)
      (n.dispatch line word operands others restLine) := by
  have hstore : n.store = m.store := congrArg Account.store h.account_eq
  simp only [Machine.dispatch, hstore]
  cases Command.read m.store line word operands with
  | error fault => exact .error rfl
  | ok command => exact h.perform hrest command

theorem Agrees.tick (h : m.Agrees V n) : m.tick.Agrees V n.tick := by
  cases h with
  | intro hcode hloops => exact .intro hcode hloops

theorem Agrees.arrive (h : m.Agrees V n) (o : Options) (statement : Statement) :
    (m.arrive o statement).Agrees V (n.arrive o statement) := by
  cases h with
  | intro hcode hloops =>
    simp only [Machine.arrive, Machine.announce]
    split <;> exact .intro hcode hloops

/-- At the end of a block no statement is read. -/
theorem Agrees.step_of_code_eq_nil (h : m.Agrees V n) (hcode : m.code = []) (o : Options) :
    (m.step o).Agrees V (n.step o) := by
  have hagrees := h
  cases h with
  | @intro code loops hnil hloops =>
    rw [hcode] at hnil
    cases hnil
    generalize hm : m.loops = stack at hloops
    cases hloops with
    | nil =>
      have hdone : m.step o = .finished := by simp only [Machine.step, hcode, hm]
      rw [hdone]
      exact .finished
    | @cons loop other outer outers hloop houter =>
      rw [step_of_loops hcode hm, step_of_loops rfl rfl]
      cases hloop with
      | intro hbody hrest =>
        simp only [Machine.iterate]
        cases m.store.get? loop.guard with
        | none => exact .failed _ hagrees
        | some value =>
          simp only
          split
          · exact .running (.intro hrest houter)
          · exact hagrees.count (.running (.intro hbody (.cons (.intro hbody hrest) houter)))

/-- A statement that is the same in both machines leads to machines that agree. -/
theorem Agrees.step_of_code_eq_cons (h : m.Agrees V n) (hcode : m.code = statement :: rest)
    (hvisit : V m.line) (o : Options) : (m.step o).Agrees V (n.step o) := by
  obtain ⟨others, hother, hrest⟩ : ∃ others, n.code = statement :: others ∧
      Program.Agree V (m.line + 1) rest others := by
    cases h with
    | intro hagree =>
      rw [hcode] at hagree
      cases hagree with
      | cons _ hsame hrest => exact ⟨_, hsame hvisit ▸ rfl, hrest⟩
  have hline : n.line = m.line := by
    cases h
    rfl
  cases htokens : Statement.tokens statement with
  | nil =>
    rw [step_of_tokens_eq_nil hcode htokens, step_of_tokens_eq_nil hother htokens, hline]
    exact .running (h.goto hrest)
  | cons word operands =>
    have hsame : n.tick.exceeded? o = m.tick.exceeded? o := by
      cases h
      rfl
    cases hbudget : m.tick.exceeded? o with
    | some limit =>
      rw [step_of_exceeded hcode htokens hbudget,
        step_of_exceeded hother htokens (hsame.trans hbudget), hline]
      exact .failed _ h.tick
    | none =>
      have hdispatch : Matched Eq (Agrees V)
          ((m.arrive o statement).dispatch m.line word operands rest (m.line + 1))
          ((n.arrive o statement).dispatch m.line word operands others (m.line + 1)) :=
        (h.arrive o statement).dispatch hrest word operands
      generalize hm : (m.arrive o statement).dispatch m.line word operands rest (m.line + 1) =
        result at hdispatch
      generalize hn : (n.arrive o statement).dispatch m.line word operands others (m.line + 1) =
        result' at hdispatch
      rw [← hline] at hn
      have hbudget' := hsame.trans hbudget
      cases hdispatch with
      | ok hnext =>
        rw [step_of_dispatch_ok hcode htokens hbudget hm,
          step_of_dispatch_ok hother htokens hbudget' hn]
        exact .running hnext
      | error hfault =>
        rw [step_of_dispatch_error hcode htokens hbudget hm,
          step_of_dispatch_error hother htokens hbudget' hn, hfault]
        exact .failed _ (h.arrive o statement)

/-- A transition only reads the statement that the machine has come to. -/
theorem Agrees.step (h : m.Agrees V n) (hvisit : m.code ≠ [] → V m.line) (o : Options) :
    (m.step o).Agrees V (n.step o) := by
  cases hcode : m.code with
  | nil => exact h.step_of_code_eq_nil hcode o
  | cons statement rest => exact h.step_of_code_eq_cons hcode (hvisit (by simp [hcode])) o

/-! ## Runs -/

/-- What is logged by machines that agree is written alike. -/
theorem Outcome.Agrees.write {outcome other : Outcome} (h : outcome.Agrees V other) (a : Account) :
    Matched Eq (Machine.Agrees V) (outcome.write a) (other.write a) := by
  cases h with
  | finished => exact .error rfl
  | running h =>
    cases h with
    | intro hcode hloops =>
      simp only [Outcome.write, Account.writeAll_eq]
      split
      · exact .ok (.intro hcode hloops)
      · exact .error rfl
  | failed fault h =>
    cases h with
    | intro hcode hloops =>
      simp only [Outcome.write, Account.writeAll_eq]
      split <;> exact .error rfl

theorem Agrees.attempt (h : m.Agrees V n) (hvisit : m.code ≠ [] → V m.line) (o : Options) :
    Matched Eq (Agrees V) (m.attempt o) (n.attempt o) := by
  have hempty : ({ m with log := [] } : Machine).Agrees V { n with log := [] } := by
    cases h with
    | intro hcode hloops => exact .intro hcode hloops
  rw [Machine.attempt, Machine.attempt, h.account_eq]
  exact (hempty.step hvisit o).write m.account

/-- Runs of machines that agree end alike, if the machines have the same statements where the first
run comes to. -/
theorem Agrees.map_runFor_eq (h : m.Agrees V n)
    (hvisits : ∀ later, m.Reaches o later → later.code ≠ [] → V later.line) :
    (m.runFor o fuel).map Ending.verdict = (n.runFor o fuel).map Ending.verdict := by
  induction fuel generalizing m n with
  | zero => rfl
  | succ fuel ih =>
    have hstep := h.step (hvisits m .refl) o
    simp only [runFor]
    generalize hs : m.step o = outcome at hstep ⊢
    generalize n.step o = other at hstep ⊢
    cases hstep with
    | finished => exact congrArg some (congrArg (Verdict.mk · none) h.account_eq.symm)
    | running hnext => exact ih hnext fun later hlater => hvisits later (.head hs hlater)
    | failed fault hlast =>
      exact congrArg some (congrArg (Verdict.mk · (some (.fault fault))) hlast.account_eq.symm)

/-- The same of attempts. -/
theorem Agrees.pursue_eq (h : m.Agrees V n)
    (hvisits : ∀ later, m.Gives o (.ok later) → later.code ≠ [] → V later.line) :
    m.pursue o fuel = n.pursue o fuel := by
  induction fuel generalizing m n with
  | zero => rfl
  | succ fuel ih =>
    have hattempt := h.attempt (hvisits m (.refl m)) o
    simp only [pursue]
    generalize hs : m.attempt o = result at hattempt ⊢
    generalize n.attempt o = other at hattempt ⊢
    cases hattempt with
    | ok hnext => exact ih hnext fun later hlater => hvisits later (.step hs hlater)
    | error hverdict => exact congrArg some hverdict

end Machine

/-! ## What is visited -/

namespace Machine

/-- The run from the machine ends with the verdict. -/
def EndsWith (o : Options) (m : Machine) (verdict : Verdict) : Prop :=
  ∃ e, m.Ends o e ∧ e.verdict = verdict

/-- The machines that a run comes to, in order, among the first `fuel` of them. -/
def moments (o : Options) : Nat → Machine → List Machine
  | 0, _ => []
  | fuel + 1, m =>
    m :: match m.step o with
      | .running next => moments o fuel next
      | .finished | .failed _ _ => []

theorem mem_moments_of_reaches {o : Options} {m later : Machine} {fuel : Nat}
    (h : (m.runFor o fuel).isSome) (hreach : m.Reaches o later) : later ∈ m.moments o fuel := by
  induction fuel generalizing m with
  | zero => cases h
  | succ fuel ih =>
    rw [runFor] at h
    rw [moments]
    rcases Relation.ReflTransGen.cases_head hreach with rfl | ⟨next, hs, hnext⟩
    · exact List.mem_cons_self
    · simp only [hs] at h ⊢
      exact List.mem_cons_of_mem _ (ih h hnext)

end Machine

namespace Scope

/-- The run comes to the statement at the index: it carries the statement out, passes over it if it
is blank, or finds that it has a fault or that the budget is spent. -/
def VisitedByRun (o : Options) (scope : Scope) (a : Account) (index : Nat) : Prop :=
  ∃ m, (scope.resume a).Reaches o m ∧ m.code ≠ [] ∧ m.line = scope.firstLine + index

/-- The same of the execution, which may end earlier at an integer that is not written. -/
def VisitedByExecution (o : Options) (scope : Scope) (a : Account) (index : Nat) : Prop :=
  ∃ m, (scope.resume a).Gives o (.ok m) ∧ m.code ≠ [] ∧ m.line = scope.firstLine + index

variable {o : Options} {scope : Scope} {a : Account} {index cursor : Nat} {program other : Program}
  {firstLine : Int} {verdict : Verdict}

theorem VisitedByExecution.visitedByRun (h : scope.VisitedByExecution o a index) :
    scope.VisitedByRun o a index := by
  obtain ⟨m, hgives, hcode, hline⟩ := h
  exact ⟨m, hgives.reaches, hcode, hline⟩

/-- At the start of programs with the same skeleton, machines agree where the programs do. -/
theorem agrees_resume (hroles : program.map Statement.role = other.map Statement.role)
    (firstLine : Int) (cursor : Nat) (a : Account) :
    (resume { program, firstLine, cursor } a).Agrees
      (fun line => ∀ index : Nat, line = firstLine + index → program[index]? = other[index]?)
      (resume { program := other, firstLine, cursor } a) := by
  refine .intro (m := resume { program, firstLine, cursor } a) ?_ .nil
  refine Program.agree_of_map_role_eq ?_ fun index hindex => ?_
  · simp only [resume, Account.machine, List.map_drop, hroles]
  · simp only [resume, Account.machine, Int.toNat_natCast, List.getElem?_drop] at hindex ⊢
    exact hindex (cursor + index) (by push_cast; omega)

theorem endsWith_iff_of_visited (firstLine : Int) (cursor : Nat)
    (hroles : program.map Statement.role = other.map Statement.role)
    (h : ∀ index, VisitedByRun o { program, firstLine, cursor } a index →
      program[index]? = other[index]?) :
    (resume { program, firstLine, cursor } a).EndsWith o verdict ↔
      (resume { program := other, firstLine, cursor } a).EndsWith o verdict := by
  have hruns : ∀ fuel,
      ((resume { program, firstLine, cursor } a).runFor o fuel).map Ending.verdict =
        ((resume { program := other, firstLine, cursor } a).runFor o fuel).map Ending.verdict :=
    fun fuel => (agrees_resume hroles firstLine cursor a).map_runFor_eq
      fun later hlater hcode index hline => h index ⟨later, hlater, hcode, hline⟩
  have hiff : ∀ m : Machine, m.EndsWith o verdict ↔
      ∃ fuel, (m.runFor o fuel).map Ending.verdict = some verdict := by
    intro m
    simp only [Machine.EndsWith, Machine.ends_iff_runFor, Option.map_eq_some_iff]
    exact ⟨fun ⟨e, ⟨fuel, he⟩, hv⟩ => ⟨fuel, e, he, hv⟩,
      fun ⟨fuel, e, he, hv⟩ => ⟨e, ⟨fuel, he⟩, hv⟩⟩
  simp only [hiff, hruns]

theorem executes_iff_of_visited (firstLine : Int) (cursor : Nat)
    (hroles : program.map Statement.role = other.map Statement.role)
    (h : ∀ index, VisitedByExecution o { program, firstLine, cursor } a index →
      program[index]? = other[index]?) :
    Executes o { program, firstLine, cursor } a verdict ↔
      Executes o { program := other, firstLine, cursor } a verdict := by
  have hpursue : ∀ fuel, (resume { program, firstLine, cursor } a).pursue o fuel =
      (resume { program := other, firstLine, cursor } a).pursue o fuel :=
    fun fuel => (agrees_resume hroles firstLine cursor a).pursue_eq
      fun later hlater hcode index hline => h index ⟨later, hlater, hcode, hline⟩
  rw [executes_iff_pursue (Int.natCast_nonneg cursor),
    executes_iff_pursue (Int.natCast_nonneg cursor)]
  simp only [hpursue]

end Scope

/-! ## Loops that are not entered -/

namespace Machine

/-- The body of the loop that is headed on the line is not run: the machine is not inside the loop,
or it has just come to its header and the guard is zero. -/
structure Skirts (line : Int) (m : Machine) : Prop where
  outer : ∀ loop ∈ m.loops.tail, loop.header ≠ line
  inner : ∀ loop ∈ m.loops.head?, loop.header = line →
    m.code = [] ∧ ∀ value ∈ m.store.get? loop.guard, value = 0

variable {o : Options} {m next : Machine} {line : Int}

theorem Skirts.header_ne (h : m.Skirts line) (hcode : m.code ≠ []) :
    ∀ loop ∈ m.loops, loop.header ≠ line := by
  intro loop hloop
  cases hloops : m.loops with
  | nil => simp [hloops] at hloop
  | cons first outer =>
    rw [hloops] at hloop
    rcases List.mem_cons.1 hloop with rfl | hloop
    · exact fun hline => hcode (h.inner loop (by simp [hloops]) hline).1
    · exact h.outer loop (by simpa [hloops] using hloop)

theorem skirts_of_header_ne (h : ∀ loop ∈ m.loops, loop.header ≠ line) : m.Skirts line where
  outer := fun loop hloop => h loop (List.mem_of_mem_tail hloop)
  inner := fun loop hloop hline => absurd hline (h loop (List.mem_of_mem_head? hloop))

/-- As long as the guard is zero whenever the header is come to, the loop is not entered. -/
theorem Skirts.of_running (h : m.Skirts line) (hs : m.step o = .running next)
    (hzero : ∀ statement rest, m.code = statement :: rest → m.line = line →
      ∀ value ∈ m.store.get? (Statement.guard statement), value = 0) : next.Skirts line := by
  cases transition_of_step hs with
  | @leave loop outer hcode hloops =>
    refine skirts_of_header_ne fun inner (hinner : inner ∈ outer) => ?_
    exact h.outer inner (by simpa [hloops] using hinner)
  | @again loop outer value hcode hloops hget hvalue =>
    refine skirts_of_header_ne fun inner hinner => ?_
    rcases List.mem_cons.1 hinner with rfl | hinner
    · exact fun hline => hvalue ((h.inner loop (by simp [hloops]) hline).2 value hget)
    · exact h.outer inner (by simpa [hloops] using hinner)
  | skip hcode => exact skirts_of_header_ne (h.header_ne (by simp [hcode]))
  | @perform statement rest word operands command _ hcode htokens hbudget hread hperform =>
    have hne := h.header_ne (by simp [hcode])
    cases hperform with
    | clear | increment | decrement | print | ignore =>
      refine skirts_of_header_ne fun loop hloop => hne loop ?_
      simpa [Machine.goto, Machine.emit] using hloop
    | @loop guard block hblock =>
      refine ⟨fun loop hloop => hne loop (by simpa [enter, emit] using hloop), ?_⟩
      intro loop hloop hline
      obtain rfl := Option.some.inj hloop
      have hguard : Statement.guard statement = guard := by
        cases Command.spelled_of_read hread
        rw [Statement.guard, htokens]
        rfl
      refine ⟨rfl, fun value hvalue => hzero statement rest hcode hline value ?_⟩
      simpa [enter, emit, hguard] using hvalue

theorem Skirts.of_reaches {start : Machine} (h : start.Skirts line) (hreach : start.Reaches o m)
    (hzero : ∀ later statement rest, start.Reaches o later → later.code = statement :: rest →
      later.line = line → ∀ value ∈ later.store.get? (Statement.guard statement), value = 0) :
    m.Skirts line := by
  induction hreach with
  | refl => exact h
  | tail hreach hs ih =>
    exact ih.of_running hs fun statement rest => hzero _ statement rest hreach

/-- Such a machine has come to no statement of the body. -/
theorem Skirts.index_le_or_le {program : Program} {header stop index : Nat}
    (h : m.Skirts (header + 1)) (hplaced : m.Placed program)
    (hend : program.loopEnd? header = some stop) (hcode : m.code ≠ [])
    (hline : m.line = index + 1) : index ≤ header ∨ stop ≤ index := by
  by_contra hinside
  rw [not_or, Nat.not_le, Nat.not_le] at hinside
  obtain ⟨statement, rest, hcons⟩ := List.exists_cons_of_ne_nil hcode
  obtain ⟨headers, bound, here, hstack, -, -, -, hhere, haround⟩ := hplaced.exists_index hcons
  obtain rfl : here = index := by omega
  have hmem : header ∈ program.loopsAround here :=
    Program.mem_loopsAround.2 ⟨hinside.1, stop, hend, hinside.2⟩
  rw [haround, List.mem_reverse] at hmem
  obtain ⟨loop, hloop, hopens⟩ := hstack.exists_loop hmem
  exact h.header_ne hcode loop hloop hopens.header_eq

end Machine

/-! ## Whole programs -/

/-- The closing lines show no more than the verdict does. -/
theorem Ending.verdict_close_congr {e e' : Ending} (h : e.verdict = e'.verdict) (o : Options) :
    (e.close o).verdict = (e'.close o).verdict := by
  obtain ⟨machine, fault⟩ := e
  obtain ⟨machine', fault'⟩ := e'
  have hstore : machine.store = machine'.store := congrArg (·.account.store) h
  have hsteps : machine.steps = machine'.steps := congrArg (·.account.steps) h
  have hlog : machine.log = machine'.log := congrArg (·.account.log) h
  have hstop : fault.map Stop.fault = fault'.map Stop.fault := congrArg Verdict.stop h
  have hnone : fault.isNone = fault'.isNone := by simpa using congrArg Option.isNone hstop
  rw [close, close, hnone]
  split
  · simp only [verdict, Machine.account, Machine.emit, hstore, hsteps, hlog, hstop]
  · exact h

namespace Program

variable {program other : Program} {o : Options} {verdict : Verdict}

theorem exists_ends_of_endsWith_iff
    (h : ∀ verdict, program.start.EndsWith o verdict ↔ other.start.EndsWith o verdict) :
    (∃ e, program.Ends o e ∧ e.verdict = verdict) ↔ ∃ e, other.Ends o e ∧ e.verdict = verdict := by
  have hclose : ∀ program : Program, (∃ e, program.Ends o e ∧ e.verdict = verdict) ↔
      ∃ e, program.start.Ends o e ∧ (e.close o).verdict = verdict := by
    intro program
    simp only [ends_iff]
    exact ⟨fun ⟨_, ⟨e, he, rfl⟩, hv⟩ => ⟨e, he, hv⟩, fun ⟨e, he, hv⟩ => ⟨_, ⟨e, he, rfl⟩, hv⟩⟩
  rw [hclose, hclose]
  constructor
  · rintro ⟨e, he, rfl⟩
    obtain ⟨e', he', heq⟩ := (h e.verdict).1 ⟨e, he, rfl⟩
    exact ⟨e', he', Ending.verdict_close_congr heq o⟩
  · rintro ⟨e, he, rfl⟩
    obtain ⟨e', he', heq⟩ := (h e.verdict).2 ⟨e, he, rfl⟩
    exact ⟨e', he', Ending.verdict_close_congr heq o⟩

/-- Code that is not reached matters by its skeleton alone. Let two programs have statements of the
same roles, and the same statements at all indices that the run of the first comes to, from any
cursor and any store, and under any options. Then the run of the second ends if and only if the
first does, with the same log, store, number of steps and fault; that is the same for executions,
and for whole programs with their closing lines.

In particular the body of a loop is never looked at but for its roles, if the guard is zero whenever
the run comes to the header: any other body of the same roles gives the same. -/
theorem skeleton_suffices (hroles : program.map Statement.role = other.map Statement.role)
    (o : Options) (a : Account) :
    (∀ (firstLine : Int) (cursor : Nat),
      let scope : Scope := { program, firstLine, cursor }
      let scope' : Scope := { program := other, firstLine, cursor }
      ((∀ index, scope.VisitedByRun o a index → program[index]? = other[index]?) →
        ∀ verdict, (scope.resume a).EndsWith o verdict ↔ (scope'.resume a).EndsWith o verdict) ∧
      ((∀ index, scope.VisitedByExecution o a index → program[index]? = other[index]?) →
        ∀ verdict, scope.Executes o a verdict ↔ scope'.Executes o a verdict)) ∧
    ((∀ index, Scope.VisitedByRun o { program } { store := ∅ } index →
        program[index]? = other[index]?) →
      ∀ verdict, (∃ e, program.Ends o e ∧ e.verdict = verdict) ↔
        ∃ e, other.Ends o e ∧ e.verdict = verdict) ∧
    ∀ (header stop : Nat), program.loopEnd? header = some stop →
      let scope : Scope := { program }
      let scope' : Scope := { program := other }
      (∀ m statement rest, (scope.resume a).Reaches o m → m.code = statement :: rest →
        m.line = header + 1 → ∀ value ∈ m.store.get? (Statement.guard statement), value = 0) →
      (∀ index, index ≤ header ∨ stop ≤ index → program[index]? = other[index]?) →
      (∀ verdict, (scope.resume a).EndsWith o verdict ↔ (scope'.resume a).EndsWith o verdict) ∧
        ∀ verdict, scope.Executes o a verdict ↔ scope'.Executes o a verdict := by
  refine ⟨fun firstLine cursor =>
    ⟨fun h verdict => Scope.endsWith_iff_of_visited firstLine cursor hroles h,
      fun h verdict => Scope.executes_iff_of_visited firstLine cursor hroles h⟩,
    fun h verdict => ?_, ?_⟩
  · exact exists_ends_of_endsWith_iff fun verdict =>
      Scope.endsWith_iff_of_visited 1 0 hroles h
  · intro header stop hend scope scope' hzero hsame
    -- Inside the loop the programs may differ, and there the run never comes to.
    have hvisited : ∀ index, scope.VisitedByRun o a index → program[index]? = other[index]? := by
      rintro index ⟨m, hreach, hcode, hline⟩
      have hskirts : m.Skirts (header + 1) :=
        Machine.Skirts.of_reaches (Machine.skirts_of_header_ne (by simp [scope, Scope.resume,
          Account.machine])) hreach hzero
      have hplaced := (Scope.placed_resume program a).of_reaches hreach
      refine hsame index (hskirts.index_le_or_le hplaced hend hcode ?_)
      rw [hline]
      exact Int.add_comm 1 index
    exact ⟨fun verdict => Scope.endsWith_iff_of_visited 1 0 hroles hvisited,
      fun verdict => Scope.executes_iff_of_visited 1 0 hroles
        fun index hindex => hvisited index hindex.visitedByRun⟩

/-- The guard is zero at the header of the loop. -/
def skipped : Program :=
  ["clear x", "while x not 0 do", "decr x", "while x not 0 do", "end", "end", "incr x"]

/-- The same with a body that could not be run. -/
def garbled : Program :=
  ["clear x", "while x not 0 do", "decr decr", "if", "end end", "end", "incr x"]

/-- The body is not looked at but for its roles: both executions end alike, without a fault. -/
theorem skeleton_suffices_garbled :
    ∃ verdict, Scope.Executes {} { program := skipped } { store := ∅ } verdict ∧
      Scope.Executes {} { program := garbled } { store := ∅ } verdict ∧ verdict.stop = none ∧
      verdict.account.store = Store.ofList [("x", 1)] := by
  have hroles : skipped.map Statement.role = garbled.map Statement.role := by decide +kernel
  have hend : skipped.loopEnd? 1 = some 5 := by decide +kernel
  have hends : ((Scope.resume { program := skipped } { store := ∅ }).runFor {} 20).isSome := by
    decide +kernel
  have hguards : ∀ m ∈ (Scope.resume { program := skipped } { store := ∅ }).moments {} 20,
      m.line = 2 → ∀ statement ∈ m.code.head?, ∀ value ∈ m.store.get? (Statement.guard statement),
        value = 0 := by
    decide +kernel
  have hsame : ∀ index, index ≤ 1 ∨ 5 ≤ index → skipped[index]? = garbled[index]? := by
    have hinside : ∀ index < 7, index ≤ 1 ∨ 5 ≤ index → skipped[index]? = garbled[index]? := by
      decide +kernel
    intro index hindex
    by_cases hlt : index < 7
    · exact hinside index hlt hindex
    · have hle := Nat.le_of_not_lt hlt
      rw [List.getElem?_eq_none (l := skipped) hle, List.getElem?_eq_none (l := garbled) hle]
  obtain ⟨-, -, hskips⟩ := skeleton_suffices hroles {} { store := ∅ }
  obtain ⟨-, hexecutes⟩ := hskips 1 5 hend (fun m statement rest hreach hcode hline value hvalue =>
    hguards m (Machine.mem_moments_of_reaches hends hreach) hline statement (by simp [hcode]) value
      hvalue) hsame
  have hwalk : ((Scope.resume { program := skipped } { store := ∅ }).pursue {} 20).map
      (fun verdict => (verdict.stop, verdict.account.store)) =
        some (none, Store.ofList [("x", 1)]) := by
    decide +kernel
  obtain ⟨verdict, hverdict, hvalues⟩ := Option.map_eq_some_iff.1 hwalk
  obtain ⟨hstop, hstore⟩ := Prod.mk.inj hvalues
  have hfirst : Scope.Executes {} { program := skipped } { store := ∅ } verdict :=
    (Scope.executes_iff_pursue (Int.le_refl 0)).2 ⟨20, hverdict⟩
  exact ⟨verdict, hfirst, (hexecutes verdict).1 hfirst, hstop, hstore⟩

end Program

end CounterLang
