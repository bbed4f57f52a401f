import CounterLang.Store
import CounterLang.Program

/-!
# Events

A run is observed through the events it emits. An event belongs to the trace, to the output or to
the debugging notes, and has one line of text there.

## Main definitions

* `Event`: what can happen.
* `Event.traceLine?`, `Event.outputLine?`, `Event.noteLine?`: its line in the trace, in the output
  and among the notes.
* `Event.displayLine?`: its line where trace and output are shown together.
-/

namespace CounterLang

/-- What can be observed of a run. -/
inductive Event where
  /-- The store before a statement, or after the last one. -/
  | snapshot (store : Store)
  /-- The statement on `line` is about to run. -/
  | entry (line : Int) (statement : Statement)
  | finished
  | printed (value : Int)
  /-- The statement on `line` opens with a keyword that has no meaning yet. -/
  | ignored (keyword : Keyword) (line : Int)
  /-- The loop on line `header` was found to have its body on the lines from `first` to `last`. -/
  | resolved (header first last : Int)
  /-- The loop on line `header` was left after `iterations` runs of its body. -/
  | left (header : Int) (iterations : Nat)
deriving DecidableEq, Repr

namespace Event

def traceLine? : Event → Option Text
  | snapshot store => some store.render
  | entry line statement => some (Text.decimal line ++ " - " ++ Text.trim statement)
  | finished => some "Finishing status:"
  | printed _ | ignored _ _ | resolved _ _ _ | left _ _ => none

def outputLine? : Event → Option Text
  | printed value => some (Text.decimal value)
  | snapshot _ | entry _ _ | finished | ignored _ _ | resolved _ _ _ | left _ _ => none

def noteLine? : Event → Option Text
  | ignored keyword line =>
    some ("'" ++ keyword.text ++ "' on line " ++ Text.decimal line ++ " is reserved; ignored")
  | resolved header first last =>
    some ("while on line " ++ Text.decimal header ++ ": body is lines " ++ Text.decimal first ++
      "-" ++ Text.decimal last)
  | left header iterations =>
    some ("while on line " ++ Text.decimal header ++ " exited after " ++ Text.decimal iterations ++
      " iterations")
  | snapshot _ | entry _ _ | finished | printed _ => none

/-- The line of an event where the trace and the output are shown together. -/
def displayLine? (event : Event) : Option Text := event.traceLine? <|> event.outputLine?

/-- Whether no integer in the line of an event in the trace or in the output has more digits than
are written. -/
def isWritable : Event → Bool
  | snapshot store => store.isWritable
  | entry line _ => Numeral.isWritable line
  | printed value => Numeral.isWritable value
  | finished | ignored _ _ | resolved _ _ _ | left _ _ => true

end Event

end CounterLang
