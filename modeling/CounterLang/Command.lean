import CounterLang.Store
import CounterLang.Word

/-!
# Commands

A command is a statement whose tokens have been found in order. `Command.read` checks the tokens
from left to right and reports the first fault of the list: an unknown first token, a missing
operand, a reserved operand, and then what the particular keyword asks for.
-/

namespace CounterLang

/-- What a well-formed statement asks for. -/
inductive Command where
  | clear (name : Text)
  | increment (name : Text)
  | decrement (name : Text)
  | print (name : Text)
  /-- Do nothing: the keyword has no meaning yet. -/
  | ignore (keyword : Keyword)
  /-- Run the block that follows until the variable is zero. -/
  | loop (guard : Text)
deriving DecidableEq, Repr

namespace Command

/-- A command that takes one operand and nothing after it. -/
def single (command : Text → Command) (line : Int) (operand : Text) :
    List Text → Except Fault Command
  | [] => .ok (command operand)
  | extra :: _ => .error (.unexpectedToken line extra)

/-- The first token that deviates from what is expected in its place, if any. -/
def mismatch? (expected actual : List Text) : Option Text :=
  ((expected.zip actual).find? fun pair => pair.2 != pair.1).map Prod.snd

/-- A loop header. Its guard must be known, its tail must have the right number of tokens, and these
must be the right ones. -/
def loopHeader (store : Store) (line : Int) (guard : Text) (tail : List Text) :
    Except Fault Command :=
  if guard ∈ store then
    if tail.length < headerTail.length then .error (.missingOperand line)
    else
      match tail.drop headerTail.length with
      | extra :: _ => .error (.unexpectedToken line extra)
      | [] =>
        match mismatch? headerTail tail with
        | some token => .error (.unexpectedToken line token)
        | none => .ok (.loop guard)
  else .error (.undefinedVariable line guard)

/-- The command of a statement on `line` with the tokens `word :: operands`, or its first fault. -/
def read (store : Store) (line : Int) (word : Text) (operands : List Text) :
    Except Fault Command :=
  match Keyword.ofText? word with
  | none => .error (.unexpectedToken line word)
  | some keyword =>
    match operands with
    | [] => .error (.missingOperand line)
    | operand :: more =>
      if isReserved operand then .error (.reservedToken line operand)
      else
        match keyword with
        | .clear => single .clear line operand more
        | .increment => single .increment line operand more
        | .decrement => single .decrement line operand more
        | .print => single .print line operand more
        | .conditional | .function => .ok (.ignore keyword)
        | .loop => loopHeader store line operand more

end Command

end CounterLang
