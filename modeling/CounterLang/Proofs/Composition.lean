import CounterLang.Proofs.Executions

/-!
# Programs one after another

A loop header looks for its `end` among all the statements behind it. But the search looks at
nothing behind the `end` that it finds, so statements that are appended to a program never change
what ran before them, even if a block of the program has no `end` and would find one among them:
without a loop header, nothing looks for it.

## Main definitions

* `Machine.extend`: the machine with more statements behind its outermost block.
* `Machine.endLine`: the line behind the outermost block.

## Main statements

* `Machine.step_extend`: a transition does not depend on what stands behind the outermost block.
* `Machine.endLine_of_running`: the line behind the outermost block stays what it is.
* `Scope.executes_append`: the execution of two programs one after the other.
-/

namespace CounterLang

namespace Machine

/-- What more there is behind a block inside these loops: only the outermost block is extended. -/
def addition (more : Program) (loops : List Loop) : Program := if loops.isEmpty then more else []

/-- The loops with more statements behind the block that holds the outermost of them. -/
def extendLoops (more : Program) : List Loop → List Loop
  | [] => []
  | loop :: outer =>
    { loop with rest := loop.rest ++ addition more outer } :: extendLoops more outer

/-- The machine with more statements behind its outermost block. -/
def extend (more : Program) (m : Machine) : Machine :=
  { m with code := m.code ++ addition more m.loops, loops := extendLoops more m.loops }

variable {o : Options} {m next last : Machine} {more : Program} {statement : Statement}
  {fault : Fault} {verdict : Verdict}

@[simp] theorem addition_nil : addition more [] = more := rfl

@[simp] theorem addition_cons (loop : Loop) (outer : List Loop) :
    addition more (loop :: outer) = [] := rfl

@[simp] theorem store_extend : (m.extend more).store = m.store := rfl

@[simp] theorem line_extend : (m.extend more).line = m.line := rfl

theorem arrive_extend (m : Machine) (more : Program) (o : Options) (statement : Statement) :
    (m.extend more).arrive o statement = (m.arrive o statement).extend more := by
  simp only [arrive, announce]
  split <;> rfl

/-! ## Transitions -/

/-- A command that is carried out does not depend on what stands behind the outermost block. -/
theorem Performance.extend {line : Int} {rest : Program} {restLine : Int} {command : Command}
    (h : m.Performance line rest restLine command (.ok next)) (more : Program) :
    (m.extend more).perform line (rest ++ addition more m.loops) restLine command =
      .ok (next.extend more) := by
  cases h with
  | clear | ignore => rfl
  | increment hget | decrement hget | print hget =>
    simp only [perform, Store.increment, Store.decrement, Store.get, Machine.extend, hget]
    rfl
  | loop hblock =>
    simp only [perform, Block.split?_append hblock]
    simp [Machine.extend, enter, emit, extendLoops]

theorem Performance.extend_error {line : Int} {rest : Program} {restLine : Int} {command : Command}
    (h : m.Performance line rest restLine command (.error fault))
    (hkind : fault.kind ≠ .unterminatedBlock) (more : Program) :
    (m.extend more).perform line (rest ++ addition more m.loops) restLine command =
      .error fault := by
  cases h with
  | unterminated => exact absurd rfl hkind
  | undefined hname hget =>
    cases command <;> cases hname <;>
      simp [perform, Store.increment, Store.decrement, Store.get, Machine.extend, hget, Except.map]

theorem code_extend {rest : Program} (hcode : m.code = statement :: rest) :
    (m.extend more).code = statement :: (rest ++ addition more m.loops) := by
  simp [extend, hcode]

/-- A machine at the end of a block inside a loop is at the end of that block when it is
extended. -/
theorem extend_of_loops {loop : Loop} {outer : List Loop} (hcode : m.code = [])
    (hloops : m.loops = loop :: outer) (more : Program) :
    (m.extend more).code = [] ∧ (m.extend more).loops =
      { loop with rest := loop.rest ++ addition more outer } :: extendLoops more outer := by
  simp [extend, hcode, hloops, extendLoops]

/-- A transition does not depend on what stands behind the outermost block. -/
theorem step_extend (hs : m.step o = .running next) (more : Program) :
    (m.extend more).step o = .running (next.extend more) := by
  cases transition_of_step hs with
  | leave hcode hloops hget =>
    obtain ⟨hcode', hloops'⟩ := extend_of_loops hcode hloops more
    rw [step_of_loops hcode' hloops']
    simp only [iterate, store_extend, hget, if_true]
    simp [extend, emit, goto]
  | again hcode hloops hget hvalue hbudget =>
    obtain ⟨hcode', hloops'⟩ := extend_of_loops hcode hloops more
    rw [step_of_loops hcode' hloops']
    have hbudget' : (m.extend more).tick.exceeded? o = none := hbudget
    simp only [iterate, store_extend, hget, if_neg hvalue, count, hbudget']
    simp [extend, extendLoops, tick]
  | skip hcode htokens => exact step_of_tokens_eq_nil (code_extend hcode) htokens
  | @perform statement rest word operands command _ hcode htokens hbudget hread hperform =>
    have hperform' := hperform.extend more
    rw [loops_arrive] at hperform'
    refine step_of_dispatch_ok (code_extend hcode) htokens hbudget ?_
    rw [arrive_extend, line_extend, dispatch_of_read_ok, hperform']
    simpa using hread

/-- The same of a transition that fails, unless it is because a block has no `end`. -/
theorem step_extend_failed (hs : m.step o = .failed fault last)
    (hkind : fault.kind ≠ .unterminatedBlock) (more : Program) :
    (m.extend more).step o = .failed fault (last.extend more) := by
  cases transition_of_step hs with
  | lose hcode hloops hget =>
    obtain ⟨hcode', hloops'⟩ := extend_of_loops hcode hloops more
    rw [step_of_loops hcode' hloops']
    simp only [iterate, store_extend, hget]
  | exhaust hcode hloops hget hvalue hbudget =>
    obtain ⟨hcode', hloops'⟩ := extend_of_loops hcode hloops more
    rw [step_of_loops hcode' hloops']
    have hbudget' : (m.extend more).tick.exceeded? o = _ := hbudget
    simp only [iterate, store_extend, hget, if_neg hvalue, count, hbudget']
    rfl
  | cut hcode htokens hbudget => exact step_of_exceeded (code_extend hcode) htokens hbudget
  | reject hcode htokens hbudget hread =>
    rw [← arrive_extend]
    refine step_of_dispatch_error (code_extend hcode) htokens hbudget ?_
    rw [arrive_extend, line_extend, dispatch_of_read_error]
    simpa using hread
  | @fault statement rest word operands command _ hcode htokens hbudget hread hperform =>
    have hperform' := hperform.extend_error hkind more
    rw [loops_arrive] at hperform'
    rw [← arrive_extend]
    refine step_of_dispatch_error (code_extend hcode) htokens hbudget ?_
    rw [arrive_extend, line_extend, dispatch_of_read_ok, hperform']
    simpa using hread

/-! ## The line behind -/

/-- The line behind the outermost block, where `code` goes on on `line` inside some loops. -/
def lineBehind (code : Program) (line : Int) : List Loop → Int
  | [] => line + code.length
  | loop :: outer => lineBehind loop.rest loop.restLine outer

/-- The line behind the outermost block of a machine. -/
def endLine (m : Machine) : Int := lineBehind m.code m.line m.loops

theorem lineBehind_congr {code code' : Program} {line line' : Int}
    (h : line + code.length = line' + code'.length) (loops : List Loop) :
    lineBehind code line loops = lineBehind code' line' loops := by
  cases loops with
  | nil => exact h
  | cons => rfl

/-- The line behind the outermost block stays what it is. -/
theorem endLine_of_running (hs : m.step o = .running next) : next.endLine = m.endLine := by
  cases transition_of_step hs with
  | leave hcode hloops | again hcode hloops =>
    rw [endLine, endLine, hloops]
    rfl
  | skip hcode htokens =>
    refine lineBehind_congr ?_ m.loops
    rw [hcode, List.length_cons, goto]
    push_cast
    omega
  | @perform statement rest word operands command _ hcode htokens hbudget hread hperform =>
    rcases hperform.goto_or_enter with ⟨-, hcode', hline', hloops⟩ |
      ⟨guard, block, -, hblock, -, -, hloops⟩
    · rw [endLine, endLine, hloops, loops_arrive, hcode', hline', hcode]
      refine lineBehind_congr ?_ m.loops
      rw [List.length_cons]
      push_cast
      omega
    · obtain ⟨closer, -, rfl⟩ := Block.append_of_split?_eq_some hblock
      rw [endLine, endLine, hloops, loops_arrive, hcode]
      refine lineBehind_congr ?_ m.loops
      rw [List.length_cons, List.length_append, List.length_cons]
      push_cast
      omega

/-! ## Sequences of attempts -/

theorem attempt_extend (h : m.attempt o = .ok next) (more : Program) :
    (m.extend more).attempt o = .ok (next.extend more) := by
  rw [attempt] at h
  have hempty : (m.extend more).attempt o =
      (({ m with log := [] }.extend more).step o).write m.account := rfl
  cases hs : ({ m with log := [] } : Machine).step o with
  | finished => simp [hs, Outcome.write] at h
  | failed fault last =>
    simp only [hs, Outcome.write, bind, Except.bind] at h
    split at h <;> cases h
  | running fresh =>
    rw [hs] at h
    rw [hempty, step_extend hs more]
    simp only [Outcome.write, bind, Except.bind] at h ⊢
    split at h
    · cases h
    · rename_i hwrite
      cases h
      simp only [show (fresh.extend more).log = fresh.log from rfl,
        show (fresh.extend more).steps = fresh.steps from rfl, hwrite]
      rfl

/-- An attempt that fails fails alike, unless it is because a block has no `end`. -/
theorem attempt_extend_failed (hs : m.step o = .failed fault last)
    (hkind : fault.kind ≠ .unterminatedBlock) (more : Program) :
    (m.extend more).attempt o = m.attempt o := by
  rw [step_eq_map_behind] at hs
  cases hfresh : ({ m with log := [] } : Machine).step o with
  | finished | running => simp [hfresh, Outcome.map] at hs
  | failed fault' fresh =>
    rw [hfresh, Outcome.map, Outcome.failed.injEq] at hs
    obtain ⟨rfl, -⟩ := hs
    have hempty : (m.extend more).attempt o =
        (({ m with log := [] }.extend more).step o).write m.account := rfl
    rw [hempty, step_extend_failed hfresh hkind more, attempt, hfresh]
    rfl

/-- What a machine gives, it gives alike when it is extended, and that ends on the same line. -/
theorem Gives.extend (h : m.Gives o (.ok next)) (more : Program) :
    (m.extend more).Gives o (.ok (next.extend more)) ∧ next.endLine = m.endLine := by
  generalize hr : Except.ok next = result at h
  induction h with
  | refl =>
    cases hr
    exact ⟨.refl _, rfl⟩
  | stop => cases hr
  | step hattempt _ ih =>
    obtain ⟨hgives, hline⟩ := ih hr
    exact ⟨.step (attempt_extend hattempt more) hgives,
      hline.trans (endLine_of_running (step_of_attempt hattempt))⟩

/-- A machine that comes to the end of its outermost block comes, when it is extended, to what
stands behind that block. -/
theorem Gives.behind_of_none (h : m.Gives o (.error verdict)) (hstop : verdict.stop = none)
    (more : Program) :
    (m.extend more).Gives o (.ok (verdict.account.machine more m.endLine [])) := by
  obtain ⟨last, hgives, hattempt⟩ := h.exists_last
  obtain ⟨hextend, hline⟩ := hgives.extend more
  cases stops_of_attempt hattempt with
  | failed | unwritable => cases hstop
  | finished hs =>
    cases transition_of_step hs with
    | finish hcode hloops =>
      have hlast : last.extend more = last.account.machine more last.endLine [] := by
        simp [Machine.extend, hcode, hloops, extendLoops, account, Account.machine, endLine,
          lineBehind]
      rwa [hlast, hline] at hextend

/-- A machine that stops at a fault stops there when it is extended, unless it is because a block
has no `end`. -/
theorem Gives.extend_fault (h : m.Gives o (.error verdict))
    (hstop : verdict.stop = some (.fault fault)) (hkind : fault.kind ≠ .unterminatedBlock)
    (more : Program) : (m.extend more).Gives o (.error verdict) := by
  obtain ⟨last, hgives, hattempt⟩ := h.exists_last
  cases stops_of_attempt hattempt with
  | finished | unwritable => cases hstop
  | failed hs =>
    cases hstop
    have hextended := (attempt_extend_failed hs hkind more).trans hattempt
    exact (hgives.extend more).1.trans (.stop hextended)

/-- Only what a machine gives can stop it. -/
theorem Gives.iff_of_ok {middle : Machine} (h : m.Gives o (.ok middle)) :
    m.Gives o (.error verdict) ↔ middle.Gives o (.error verdict) := by
  refine ⟨fun hgives => ?_, h.trans⟩
  obtain ⟨fuel, hfuel⟩ := hgives.exists_pursue
  obtain ⟨less, -, hless⟩ := h.pursue_of_ok hfuel
  exact gives_of_pursue hless

end Machine

namespace Scope

/-- Two programs one after the other. If the execution of the first comes to its end, its statements
do in front of the others what they do alone, and then the others do what they do alone, on the
lines behind, from the store and the number of steps that the first have left: with the events of
these behind the events of the first, and with the same end, if there is one. If the execution of
the first stops at a fault, the whole execution stops there as well, having done the same; except
if a block has no `end`, because there may be one among the other statements. -/
theorem executes_append (first second : Program) (firstLine : Int) (o : Options) (a : Account)
    (verdict : Verdict) (h : Executes o { program := first, firstLine } a verdict) :
    (verdict.stop = none → ∀ whole,
      Executes o { program := first ++ second, firstLine } a whole ↔
        ∃ tail, Executes o { program := second, firstLine := firstLine + first.length }
            { verdict.account with log := [] } tail ∧
          whole = tail.behind verdict.account.log) ∧
    ∀ fault, verdict.stop = some (.fault fault) → fault.kind ≠ .unterminatedBlock → ∀ whole,
      Executes o { program := first ++ second, firstLine } a whole ↔ whole = verdict := by
  have hzero : (0 : Int) ≤ 0 := Int.le_refl 0
  have hgives := (executes_iff_gives hzero).1 h
  have hextend : (resume { program := first, firstLine } a).extend second =
      resume { program := first ++ second, firstLine } a := by
    simp [resume, Account.machine, Machine.extend, Machine.extendLoops]
  refine ⟨fun hstop whole => ?_, fun fault hstop hkind whole => ?_⟩
  · have hline : (resume { program := first, firstLine } a).endLine = firstLine + first.length := by
      simp [resume, Account.machine, Machine.endLine, Machine.lineBehind]
    have hrest : verdict.account.machine second (firstLine + first.length) [] =
        resume { program := second, firstLine := firstLine + first.length } verdict.account := by
      simp [resume]
    have hmiddle := hgives.behind_of_none hstop second
    rw [hextend, hline, hrest] at hmiddle
    calc
      Executes o { program := first ++ second, firstLine } a whole
      _ ↔ (resume { program := first ++ second, firstLine } a).Gives o (.error whole) :=
        executes_iff_gives hzero
      _ ↔ (resume { program := second, firstLine := firstLine + first.length }
            verdict.account).Gives o (.error whole) := hmiddle.iff_of_ok
      _ ↔ Executes o { program := second, firstLine := firstLine + first.length }
            verdict.account whole := (executes_iff_gives hzero).symm
      _ ↔ _ := executes_behind (a := { verdict.account with log := [] }) hzero verdict.account.log
  · have hwhole := hgives.extend_fault hstop hkind second
    rw [hextend, ← executes_iff_gives hzero] at hwhole
    exact ⟨fun hother => hother.unique hzero hwhole, fun heq => heq ▸ hwhole⟩

/-- Counts a variable down, behind an opener that nothing closes. -/
def preface : Program := Program.ofSource "if y; clear x; incr x; while x not 0 do; decr x; end"

/-- Prints a variable for ever. -/
def sequel : Program := Program.ofSource "incr x; while x not 0 do; print x; end"

/-- With a budget of ten steps, six of which the first program takes, the budget is spent when the
second one comes back to its loop header, on the second line behind the six of the first. -/
theorem executes_append_sequel :
    ∃ verdict tail whole,
      Executes (.ofBudget (some 10) true) { program := preface } { store := ∅ } verdict ∧
      verdict.stop = none ∧ verdict.account.steps = 6 ∧
      Executes (.ofBudget (some 10) true) { program := sequel, firstLine := 1 + preface.length }
        { verdict.account with log := [] } tail ∧
      Executes (.ofBudget (some 10) true) { program := preface ++ sequel } { store := ∅ } whole ∧
      whole.account.trace = verdict.account.trace ++ tail.account.trace ∧
      whole.account.output = (["1"] : List Text) ∧
      whole.stop = some (.fault (.stepLimit 8 "10")) := by
  have hfirst : (walk? 40 (.ofBudget (some 10) true) { program := preface } ∅).map
      (fun walk => (walk.stop, walk.machine.store, walk.machine.steps, walk.machine.output)) =
        some ((none : Option Stop), Store.ofList [("x", 0)], 6, ([] : List Text)) := by
    decide +kernel
  have hsecond : (follow? (.ofBudget (some 10) true)
      { program := sequel, firstLine := 1 + preface.length } 40
      (resume { program := sequel, firstLine := 1 + preface.length }
        { store := Store.ofList [("x", 0)], steps := 6 })).map
      (fun walk => (walk.stop, walk.machine.output)) =
        some (some (Stop.fault (.stepLimit 8 "10")), (["1"] : List Text)) := by
    decide +kernel
  obtain ⟨walk, hwalk, hvalues⟩ := Option.map_eq_some_iff.1 hfirst
  obtain ⟨rest, hrest, hends⟩ := Option.map_eq_some_iff.1 hsecond
  simp only [Prod.mk.injEq] at hvalues hends
  obtain ⟨hstop, hstore, hsteps, houtput⟩ := hvalues
  obtain ⟨hlimit, hone⟩ := hends
  have hverdict : Executes (.ofBudget (some 10) true) { program := preface } { store := ∅ }
      walk.verdict := (executes_iff_walk? (Int.le_refl 0) ∅).2 ⟨40, walk, hwalk, rfl⟩
  have htail : Executes (.ofBudget (some 10) true)
      { program := sequel, firstLine := 1 + preface.length }
      { walk.verdict.account with log := [] } rest.verdict := by
    refine ⟨40, rest, ?_, rfl⟩
    rw [← hrest, ← hstore, ← hsteps]
    rfl
  have hwhole := ((executes_append preface sequel 1 _ _ _ hverdict).1 hstop _).2 ⟨_, htail, rfl⟩
  refine ⟨walk.verdict, rest.verdict, _, hverdict, hstop, hsteps, htail, hwhole,
    Account.trace_behind _ _, ?_, hlimit⟩
  rw [Verdict.behind, Account.output_behind]
  rw [Machine.output] at houtput hone
  simp [Walk.verdict, Machine.account, Account.output, houtput, hone]

end Scope

end CounterLang
