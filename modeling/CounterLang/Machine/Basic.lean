import CounterLang.Block
import CounterLang.Command
import CounterLang.Event

/-!
# The machine

A machine runs a program one statement at a time. Beside the statements it still has to run it keeps
the loops it is inside, innermost first, so that neither a call stack nor an index into the whole
program is needed.

## Main definitions

* `Limit`: a step budget, with the way diagnostics write it.
* `Loop`: a loop whose body is running.
* `Machine`: the state of a run.
* `Machine.step`: one transition. It skips a blank statement, runs a statement, or comes back to the
  header of the innermost loop.
-/

namespace CounterLang

/-- A step budget. -/
structure Limit where
  /-- The number of steps that may be counted. -/
  steps : Int
  /-- The budget as diagnostics write it. -/
  text : Text
deriving DecidableEq, Repr

def Limit.ofInt (steps : Int) : Limit := ⟨steps, Text.decimal steps⟩

/-- What a run is given beside its program. -/
structure Options where
  /-- The step budget; without one a run may go on for ever. -/
  limit : Option Limit := none
  /-- Whether the run emits a trace. -/
  trace : Bool := true
deriving DecidableEq, Repr

/-- A loop whose body is running. -/
structure Loop where
  /-- The variable that must be zero for the loop to be left. -/
  guard : Text
  header : Int
  /-- The statements between the header and its `end`. -/
  body : Program
  /-- The line of the first of them. -/
  bodyLine : Int
  /-- The statements after the `end`, in the block that holds the loop. -/
  rest : Program
  /-- The line of the first of them. -/
  restLine : Int
  /-- How often the body has been entered. -/
  iterations : Nat := 0
deriving DecidableEq, Repr

/-- The state of a run. -/
structure Machine where
  /-- The statements still to run in the innermost block. -/
  code : Program
  /-- The line of the first of them. -/
  line : Int := 1
  /-- The loops whose bodies are running, innermost first. -/
  loops : List Loop := []
  store : Store := ∅
  steps : Nat := 0
  /-- What has happened so far, newest first. -/
  log : List Event := []
deriving DecidableEq, Repr

namespace Machine

/-- What one transition leads to. -/
inductive Outcome where
  | running (next : Machine)
  | finished
  | failed (fault : Fault) (last : Machine)

/-- The machine with one more event in its log. -/
def emit (m : Machine) (event : Event) : Machine := { m with log := event :: m.log }

/-- The machine with one more step counted. -/
def tick (m : Machine) : Machine := { m with steps := m.steps + 1 }

@[simp] theorem steps_tick (m : Machine) : m.tick.steps = m.steps + 1 := rfl

/-- The budget, if the steps counted so far are more than it allows. -/
def exceeded? (m : Machine) (o : Options) : Option Limit :=
  match o.limit with
  | some limit => if limit.steps < m.steps then some limit else none
  | none => none

/-- Counts a step for `line`, and goes on as `next` says if the budget allows the step. -/
def count (m : Machine) (o : Options) (line : Int) (next : Machine → Outcome) : Outcome :=
  match m.tick.exceeded? o with
  | some limit => .failed (.stepLimit line limit.text) m.tick
  | none => next m.tick

/-- The machine with the store and the statement on show, if it traces. -/
def announce (m : Machine) (o : Options) (line : Int) (statement : Statement) : Machine :=
  if o.trace then (m.emit (.snapshot m.store)).emit (.entry line statement) else m

/-- Goes on with the statements `rest`, the first of which is on `restLine`. -/
def goto (m : Machine) (rest : Program) (restLine : Int) : Machine :=
  { m with code := rest, line := restLine }

/-- Puts a loop on the stack. Its body starts at the next transition, if the guard is not zero. -/
def enter (m : Machine) (loop : Loop) : Machine :=
  { m with code := [], line := loop.restLine, loops := loop :: m.loops }

/-- Carries out a command of the statement on `line`, which is followed by the statements `rest`,
the first of them on `restLine`. -/
def perform (m : Machine) (line : Int) (rest : Program) (restLine : Int) :
    Command → Except Fault Machine
  | .clear name => .ok ({ m with store := m.store.clear name }.goto rest restLine)
  | .increment name => (m.store.increment name line).map fun store =>
      { m with store }.goto rest restLine
  | .decrement name => (m.store.decrement name line).map fun store =>
      { m with store }.goto rest restLine
  | .print name => (m.store.get name line).map fun value =>
      (m.emit (.printed value)).goto rest restLine
  | .ignore keyword => .ok ((m.emit (.ignored keyword line)).goto rest restLine)
  | .loop guard =>
    match Block.split? 0 rest with
    | none => .error (.unterminatedBlock line)
    | some block =>
      let closeLine := restLine + block.body.length
      .ok ((m.emit (.resolved line restLine closeLine)).enter
        { guard, header := line, body := block.body, bodyLine := restLine,
          rest := block.rest, restLine := closeLine + 1 })

/-- Runs the statement on `line` with the tokens `word :: operands`, which is followed by the
statements `rest`, the first of them on `restLine`. A statement with a fault changes nothing. -/
def dispatch (m : Machine) (line : Int) (word : Text) (operands : List Text) (rest : Program)
    (restLine : Int) : Except Fault Machine := do
  let command ← Command.read m.store line word operands
  m.perform line rest restLine command

/-- Comes back to the header of the innermost loop: leaves the loop if the guard is zero, and counts
a step and runs the body once more otherwise. -/
def iterate (m : Machine) (o : Options) (loop : Loop) (outer : List Loop) : Outcome :=
  match m.store.get? loop.guard with
  | none => .failed (.undefinedVariable loop.header loop.guard) m
  | some value =>
    if value = 0 then
      .running ({ m with loops := outer }.emit (.left loop.header loop.iterations)
        |>.goto loop.rest loop.restLine)
    else
      m.count o loop.header fun m =>
        .running { m with
          code := loop.body, line := loop.bodyLine,
          loops := { loop with iterations := loop.iterations + 1 } :: outer }

/-- One transition of the machine. -/
def step (o : Options) (m : Machine) : Outcome :=
  match m.code with
  | [] =>
    match m.loops with
    | [] => .finished
    | loop :: outer => m.iterate o loop outer
  | statement :: rest =>
    match Statement.tokens statement with
    | [] => .running (m.goto rest (m.line + 1))
    | word :: operands =>
      m.count o m.line fun m =>
        let m := m.announce o m.line statement
        match m.dispatch m.line word operands rest (m.line + 1) with
        | .ok next => .running next
        | .error fault => .failed fault m

/-- The line of the statement of the outermost block that the machine has come to: the one it is
about to run or, inside a loop, the header of the outermost loop. -/
def position (m : Machine) : Int :=
  match m.loops.getLast? with
  | some loop => loop.header
  | none => m.line

def trace (m : Machine) : List Text := m.log.reverse.filterMap Event.traceLine?

def output (m : Machine) : List Text := m.log.reverse.filterMap Event.outputLine?

def notes (m : Machine) : List Text := m.log.reverse.filterMap Event.noteLine?

/-- The trace and the output so far, as they are shown together. -/
def display (m : Machine) : List Text := m.log.reverse.filterMap Event.displayLine?

end Machine

end CounterLang
