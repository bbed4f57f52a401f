import CounterLang.Machine.Basic

/-!
# Runs

A run takes transitions until the machine stops. Within a step budget it always stops, because every
transition either uses up budget or gets nearer to the end of the open blocks, so `Machine.finish`
is a total function. Without a budget it may go on for ever, and `Machine.runFor` follows it for a
given number of transitions.

## Main definitions

* `Ending`: how a run ended.
* `Machine.finish`: the ending of a run within a budget.
* `Machine.runFor`: the ending of a run, if it comes within a number of transitions.
* `Program.run?`: the run of a whole program from the empty store.

## Main statements

* `Machine.step_decreases`: a transition within a budget makes the measure smaller.
-/

namespace CounterLang

/-- How a run ended. -/
structure Ending where
  /-- The machine at the end. -/
  machine : Machine
  /-- Why the run ended early, if it did. -/
  fault : Option Fault := none
deriving DecidableEq, Repr

namespace Machine

/-- The steps that a budget still allows. -/
def remaining (limit : Limit) (m : Machine) : Nat := (limit.steps - m.steps).toNat

/-- The statements still to run in all open blocks, with one more for each open loop. -/
def pending (m : Machine) : Nat :=
  m.code.length + m.loops.foldr (fun loop total => loop.rest.length + 1 + total) 0

section Lemmas

variable {o : Options} {limit : Limit} {m next : Machine} {line : Int} {k : Machine → Outcome}

/-- A counted step is one that the budget had left. -/
theorem remaining_lt_of_count_eq_running (hl : o.limit = some limit)
    (hk : ∀ {m'}, k m' = .running next → next.steps = m'.steps)
    (h : m.count o line k = .running next) : next.remaining limit < m.remaining limit := by
  simp only [count] at h
  split at h
  · cases h
  · rename_i hx
    have hs := hk h
    have hx : ¬limit.steps < (m.tick.steps : Int) := by
      intro hlt
      simp only [exceeded?, hl, if_pos hlt] at hx
      cases hx
    simp only [remaining, hs]
    rw [steps_tick] at hx ⊢
    omega

theorem steps_of_perform_eq_ok {rest : Program} {restLine : Int} {command : Command}
    (h : m.perform line rest restLine command = .ok next) : next.steps = m.steps := by
  cases command with
  | clear name => simp only [perform, Except.ok.injEq] at h; subst h; rfl
  | increment name =>
    simp only [perform] at h
    cases hs : m.store.increment name line with
    | error f => simp [hs, Except.map] at h
    | ok s => simp only [hs, Except.map, Except.ok.injEq] at h; subst h; rfl
  | decrement name =>
    simp only [perform] at h
    cases hs : m.store.decrement name line with
    | error f => simp [hs, Except.map] at h
    | ok s => simp only [hs, Except.map, Except.ok.injEq] at h; subst h; rfl
  | print name =>
    simp only [perform] at h
    cases hs : m.store.get name line with
    | error f => simp [hs, Except.map] at h
    | ok s => simp only [hs, Except.map, Except.ok.injEq] at h; subst h; rfl
  | ignore keyword => simp only [perform, Except.ok.injEq] at h; subst h; rfl
  | loop guard =>
    simp only [perform] at h
    split at h
    · cases h
    · simp only [Except.ok.injEq] at h; subst h; rfl

theorem steps_of_dispatch_eq_ok {word : Text} {operands : List Text} {rest : Program}
    {restLine : Int} (h : m.dispatch line word operands rest restLine = .ok next) :
    next.steps = m.steps := by
  simp only [dispatch, bind, Except.bind] at h
  split at h
  · cases h
  · exact steps_of_perform_eq_ok h

@[simp] theorem steps_announce (statement : Statement) :
    (m.announce o line statement).steps = m.steps := by
  simp only [announce]
  split <;> rfl

/-- A transition within a budget uses up budget, or leaves fewer statements to run. -/
theorem step_decreases (hl : o.limit = some limit) (h : m.step o = .running next) :
    Prod.Lex (· < ·) (· < ·) (next.remaining limit, next.pending)
      (m.remaining limit, m.pending) := by
  cases hc : m.code with
  | nil =>
    cases hloops : m.loops with
    | nil => simp [step, hc, hloops] at h
    | cons loop outer =>
      simp only [step, hc, hloops, iterate] at h
      split at h
      · cases h
      · split at h
        · simp only [Outcome.running.injEq] at h
          subst h
          apply Prod.Lex.right'
          · exact Nat.le_refl _
          · simp only [pending, goto, emit, hc, hloops, List.foldr_cons]
            omega
        · apply Prod.Lex.left
          refine remaining_lt_of_count_eq_running hl (fun h' => ?_) h
          simp only [Outcome.running.injEq] at h'
          subst h'
          rfl
  | cons statement rest =>
    simp only [step, hc] at h
    split at h
    · simp only [Outcome.running.injEq] at h
      subst h
      apply Prod.Lex.right'
      · exact Nat.le_refl _
      · simp only [pending, goto, hc, List.length_cons]
        omega
    · apply Prod.Lex.left
      refine remaining_lt_of_count_eq_running hl (fun h' => ?_) h
      split at h'
      · rename_i hd
        simp only [Outcome.running.injEq] at h'
        subst h'
        simpa using steps_of_dispatch_eq_ok hd
      · cases h'

end Lemmas

/-- The ending of a run within a budget. -/
def finish (limit : Limit) (trace : Bool) (m : Machine) : Ending :=
  match _h : m.step { limit := some limit, trace } with
  | .running next => finish limit trace next
  | .finished => { machine := m }
  | .failed fault last => { machine := last, fault := some fault }
termination_by (m.remaining limit, m.pending)
decreasing_by exact step_decreases rfl _h

/-- The ending of a run, if it comes within `fuel` transitions. -/
def runFor (o : Options) : Nat → Machine → Option Ending
  | 0, _ => none
  | fuel + 1, m =>
    match m.step o with
    | .running next => runFor o fuel next
    | .finished => some { machine := m }
    | .failed fault last => some { machine := last, fault := some fault }

/-- The ending of a run. Within a budget there always is one; without a budget the run is followed
for `fuel` transitions. -/
def run? (fuel : Nat) (o : Options) (m : Machine) : Option Ending :=
  match o.limit with
  | some limit => some (m.finish limit o.trace)
  | none => m.runFor o fuel

/-- The machine with the blocks it is inside left as they are and nothing to run after them. -/
def confine (m : Machine) : Machine :=
  { m with
    code := if m.loops.isEmpty then [] else m.code
    loops := m.loops.dropLast ++
      (m.loops.getLast?.map fun loop => { loop with rest := [] }).toList }

end Machine

namespace Ending

/-- The ending with the closing lines of the trace: a run that came to the end of its program shows
its final store. -/
def close (o : Options) (ending : Ending) : Ending :=
  if ending.fault.isNone && o.trace then
    { ending with
      machine := (ending.machine.emit .finished).emit (.snapshot ending.machine.store) }
  else ending

def diagnostic? (ending : Ending) : Option Diagnostic := ending.fault.map Fault.diagnostic

end Ending

namespace Program

/-- The machine that is about to run a program from the empty store. -/
def start (program : Program) : Machine := { code := program }

/-- The run of a program from the empty store, with the closing lines of its trace. -/
def run? (fuel : Nat) (o : Options) (program : Program) : Option Ending :=
  (program.start.run? fuel o).map (·.close o)

/-- The run of a program from the empty store, if it ends within `fuel` transitions. -/
def runFor? (fuel : Nat) (o : Options) (program : Program) : Option Ending :=
  (program.start.runFor o fuel).map (·.close o)

end Program

end CounterLang
