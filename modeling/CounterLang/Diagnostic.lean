import CounterLang.Text.Basic

/-!
# Diagnostics

A diagnostic is what a caller learns about a program that could not be run to its end: a stable
code, a label, a message, and the line and token it points at, where there are any.

## Main definitions

* `Diagnostic.Kind`: the kinds of diagnostics, with `code` and `label`.
* `Diagnostic`: a kind with its message and place.
* `Diagnostic.missingOperand` and its siblings: the diagnostic of each kind at a place. They hold
  the wording of every message.
-/

namespace CounterLang

/-- The kinds of diagnostics. -/
inductive Diagnostic.Kind where
  /-- A failure of no particular kind. -/
  | general
  /-- A statement lacks an operand. -/
  | missingOperand
  /-- A token stands where the grammar has no place for it. -/
  | unexpectedToken
  /-- A word of the language is used as a variable name. -/
  | reservedToken
  /-- A variable is used before it is cleared. -/
  | undefinedVariable
  /-- A loop has no matching `end`. -/
  | unterminatedBlock
  /-- The program cannot be set up to run. -/
  | configuration
  /-- The step budget is spent. -/
  | stepLimit
deriving DecidableEq, Repr

/-- What a caller learns about a run that stopped early. -/
structure Diagnostic where
  kind : Diagnostic.Kind
  message : Text
  /-- The line it was noticed on. -/
  line : Option Int := none
  token : Option Text := none
deriving DecidableEq, Repr

namespace Diagnostic

/-- The stable code of a kind, for programs that read diagnostics. -/
def Kind.code : Kind → Text
  | general => "ERROR"
  | missingOperand => "SYNTAX_ERROR"
  | unexpectedToken => "UNEXPECTED_TOKEN"
  | reservedToken => "RESERVED_TOKEN"
  | undefinedVariable => "UNDEFINED_VARIABLE"
  | unterminatedBlock => "UNTERMINATED_BLOCK"
  | configuration => "CONFIGURATION_ERROR"
  | stepLimit => "STEP_LIMIT"

/-- The label of a kind, for people who read diagnostics. -/
def Kind.label : Kind → Text
  | general => "Error"
  | missingOperand => "SyntaxError"
  | unexpectedToken => "UnexpectedToken"
  | reservedToken => "ReservedToken"
  | undefinedVariable => "UndefinedVariable"
  | unterminatedBlock => "UnterminatedBlock"
  | configuration => "ConfigurationError"
  | stepLimit => "StepLimit"

/-- A line as messages show it; a diagnostic may have none. -/
def lineText : Option Int → Text
  | some line => Text.decimal line
  | none => "None"

def missingOperand (line : Option Int) : Diagnostic where
  kind := .missingOperand
  message := "Syntax error on line: " ++ lineText line
  line

def unexpectedToken (line : Option Int) (token : Text) : Diagnostic where
  kind := .unexpectedToken
  message := "Unexpected token on line " ++ lineText line ++ ": " ++ token
  line
  token

def reservedToken (line : Option Int) (token : Text) : Diagnostic where
  kind := .reservedToken
  message := "Reserved token used as variable name on line " ++ lineText line ++ ": " ++ token
  line
  token

def undefinedVariable (line : Option Int) (token : Text) : Diagnostic where
  kind := .undefinedVariable
  message := "Undefined variable on line " ++ lineText line ++ ": " ++ token
  line
  token

def unterminatedBlock (line : Option Int) : Diagnostic where
  kind := .unterminatedBlock
  message := "Reached end of file before while loop on line " ++ lineText line ++ " finished"
  line

/-- The step budget, written `limit`, is spent. -/
def stepLimit (line : Option Int) (limit : Text) : Diagnostic where
  kind := .stepLimit
  message := "Step limit of " ++ limit ++ " exceeded on line " ++ lineText line
  line

/-- The single line in which a diagnostic is shown to people. -/
def summary (d : Diagnostic) : Text := d.kind.label ++ ": " ++ d.message

end Diagnostic

end CounterLang
