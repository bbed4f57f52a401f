import CounterLang.Machine.Run

/-!
# Sessions

A session runs one program after another with the same options. What a run emits goes to a sink, if
there is one for it, and is collected otherwise; a sink keeps what it has received, while the
collected lines, the store and the step count are those of the last run alone.

## Main definitions

* `Session`: the state between two runs.
* `Session.run`: the session after a run with a given ending.
-/

namespace CounterLang

/-- Where the lines of a run go. -/
structure Channel where
  /-- The lines that the sink has received so far, if there is a sink. -/
  sink : Option (List Text) := none
  /-- The lines of the last run that no sink has taken. -/
  collected : List Text := []
deriving DecidableEq, Repr

/-- The channel after a run that emits the given lines. -/
def Channel.deliver (channel : Channel) (lines : List Text) : Channel :=
  match channel.sink with
  | some received => { sink := some (received ++ lines), collected := [] }
  | none => { sink := none, collected := lines }

/-- The state of a session between two runs. -/
structure Session where
  /-- The options of the next run. -/
  options : Options := {}
  trace : Channel := {}
  output : Channel := {}
  /-- The store at the end of the last run. -/
  store : Store := ∅
  /-- The steps that the last run counted. -/
  steps : Nat := 0
deriving DecidableEq, Repr

namespace Session

/-- A session that has run nothing, with a sink for the trace or the output if asked for. -/
def fresh (traceSink outputSink : Bool) : Session where
  trace := { sink := if traceSink then some [] else none }
  output := { sink := if outputSink then some [] else none }

/-- The session after a run with the given ending. -/
def run (session : Session) (ending : Ending) : Session :=
  { session with
    trace := session.trace.deliver ending.machine.trace
    output := session.output.deliver ending.machine.output
    store := ending.machine.store
    steps := ending.machine.steps }

/-- The session after a program, if the program ends within `fuel` transitions or its budget, with
the fault that ended it early. -/
def execute? (fuel : Nat) (session : Session) (program : Program) :
    Option (Session × Option Fault) :=
  (program.run? fuel session.options).map fun ending => (session.run ending, ending.fault)

end Session

end CounterLang
