import CounterLang.Diagnostic

/-!
# Faults

A fault is the reason why a program under execution cannot go on. Each constructor is one cause and
carries the line that it was noticed on.
-/

namespace CounterLang

/-- Why a program under execution cannot go on. -/
inductive Fault where
  /-- The statement lacks an operand. -/
  | missingOperand (line : Int)
  /-- The grammar has no place for the token. -/
  | unexpectedToken (line : Int) (token : Text)
  /-- The word cannot name a variable. -/
  | reservedToken (line : Int) (token : Text)
  /-- The variable was never cleared. -/
  | undefinedVariable (line : Int) (name : Text)
  /-- The loop whose header stands on the line has no matching `end`. -/
  | unterminatedBlock (line : Int)
  /-- The step budget, written `limit`, does not allow the step. -/
  | stepLimit (line : Int) (limit : Text)
deriving DecidableEq, Repr

namespace Fault

def line : Fault → Int
  | missingOperand line | unexpectedToken line _ | reservedToken line _ | undefinedVariable line _
  | unterminatedBlock line | stepLimit line _ => line

def token? : Fault → Option Text
  | unexpectedToken _ token | reservedToken _ token | undefinedVariable _ token => some token
  | missingOperand _ | unterminatedBlock _ | stepLimit _ _ => none

def kind : Fault → Diagnostic.Kind
  | missingOperand _ => .missingOperand
  | unexpectedToken _ _ => .unexpectedToken
  | reservedToken _ _ => .reservedToken
  | undefinedVariable _ _ => .undefinedVariable
  | unterminatedBlock _ => .unterminatedBlock
  | stepLimit _ _ => .stepLimit

def diagnostic : Fault → Diagnostic
  | missingOperand line => .missingOperand line
  | unexpectedToken line token => .unexpectedToken line token
  | reservedToken line token => .reservedToken line token
  | undefinedVariable line name => .undefinedVariable line name
  | unterminatedBlock line => .unterminatedBlock line
  | stepLimit line limit => .stepLimit line limit

variable (f : Fault)

@[simp] theorem kind_diagnostic : f.diagnostic.kind = f.kind := by cases f <;> rfl

@[simp] theorem line_diagnostic : f.diagnostic.line = some f.line := by cases f <;> rfl

@[simp] theorem token_diagnostic : f.diagnostic.token = f.token? := by cases f <;> rfl

end Fault

end CounterLang
