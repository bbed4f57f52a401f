import CounterLang.Machine.Run

/-!
# Effort

How much work a run is. Transitions differ: a blank statement is skipped at once, while a statement
with tokens and the return to the header of a loop take a little longer. Long texts, large stores
and the search for the end of a long block add to that.

## Main definitions

* `Machine.effort`: the work of the next transition.
* `Machine.endsWithin`: whether a run ends within an amount of work.
* `Program.runWithin?`: the run of a program that does.
-/

namespace CounterLang

/-- The work of looking through a text. -/
def Statement.effort (statement : Statement) : Nat := statement.length / 2

/-- The work of finding the end of a block with the given body. -/
def Program.effort (body : Program) : Nat :=
  body.foldr (fun s total => 1 + Statement.effort s + total) 0

namespace Machine

/-- The work of the next transition. The end of a loop is looked for once, before its guard is seen
for the first time. -/
def effort (m : Machine) : Nat :=
  let access := 5 + m.store.entries.length / 4
  match m.code with
  | [] =>
    match m.loops with
    | loop :: _ => access + if loop.iterations = 0 then loop.body.effort else 0
    | [] => access
  | statement :: _ =>
    (if statement.all CodePoint.isBlank then 1 else access) + Statement.effort statement

theorem effort_pos (m : Machine) : 0 < m.effort := by
  simp only [effort]
  split
  · split <;> omega
  · split <;> omega

/-- Whether a run ends within an amount of work. Its events are of no interest. -/
def endsWithin (o : Options) (work : Nat) (m : Machine) : Bool :=
  if m.effort ≤ work then
    match { m with log := [] }.step o with
    | .running next => endsWithin o (work - m.effort) next
    | .finished | .failed _ _ => true
  else false
termination_by work
decreasing_by
  have := m.effort_pos
  omega

end Machine

/-- The run of a program from the empty store, if it ends within an amount of work. As a transition
is at least one unit of work, it then ends within as many transitions. -/
def Program.runWithin? (work : Nat) (o : Options) (program : Program) : Option Ending :=
  if program.start.endsWithin o work then program.runFor? work o else none

end CounterLang
