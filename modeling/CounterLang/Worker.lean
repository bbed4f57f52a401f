import CounterLang.Json.Printer
import CounterLang.Report

/-!
# The worker

A worker reads one request as JSON, runs the program in it, and answers with the report as one line
of JSON. A request that cannot be understood is answered with a problem of its own.

## Main definitions

* `Worker.Request`: what a request holds.
* `Worker.respond?`: the answer to a request.

## Implementation notes

The fields of a request are taken as they come. That its program is a text is noticed only when the
program is cut into statements, and that its budget is a number only when the first step is counted.
-/

namespace CounterLang.Worker

/-- What a request holds. -/
structure Request where
  /-- The source text of the program. -/
  code : Json
  maxSteps : Json
  trace : Bool

/-- Why a worker dies without an answer. -/
inductive Crash where
  /-- The program is a value of this type and no text. -/
  | notText (typeName : Text)
  /-- The budget is a value of this type and no number. -/
  | notNumber (typeName : Text)
deriving DecidableEq, Repr

/-- The last words of a worker. -/
def Crash.message : Crash → Text
  | notText typeName => "'" ++ typeName ++ "' object has no attribute 'split'"
  | notNumber typeName => "'>' not supported between instances of 'int' and '" ++ typeName ++ "'"

/-- The answer of a worker that lives to give one. -/
structure Answer where
  /-- The exit status: 1 for a request that is not understood, 0 otherwise. -/
  exit : Nat
  stdout : Text
deriving DecidableEq, Repr

/-- The request that a text writes, or why it is not understood. -/
def Request.read (text : Text) : Except Text Request :=
  match Json.read text with
  | .error failure => .error (failure.message text)
  | .ok json =>
    match json with
    | .obj _ =>
      .ok {
        code := (json.get? "code").getD (.str "")
        maxSteps := (json.get? "max_steps").getD .null
        trace := ((json.get? "trace").getD (.bool true)).truthy }
    | other => .error (Json.ConversionError.noMembers other.typeName).message

/-- The budget that a value stands for. Numbers of all kinds bound the steps, and are shown as they
are; a budget that no count exceeds is none. -/
def limit? : Json → Except Crash (Option Limit)
  | .null => .ok none
  | .int steps => .ok (some (.ofInt steps))
  | .bool value => .ok (some ⟨Json.integerOfBool value, if value then "True" else "False"⟩)
  | .real .nan => .ok none
  | .real (.infinity negative) =>
    .ok (if negative then some ⟨-1, (Binary64.infinity negative).render⟩ else none)
  | .real (.finite negative units) =>
    .ok (some ⟨Binary64.floor negative units, (Binary64.finite negative units).render⟩)
  | .str value => .error (.notNumber (Json.str value).typeName)
  | .arr items => .error (.notNumber (Json.arr items).typeName)
  | .obj members => .error (.notNumber (Json.obj members).typeName)

/-- The answer to a request that is not understood. -/
def reject (reason : Text) : Answer where
  exit := 1
  stdout :=
    (Json.obj [("error", .obj [("code", .str "BAD_PAYLOAD"), ("message", .str reason)])]).toText
      ++ "\n"

/-- The answer that carries a report. -/
def accept (report : Report) : Answer where
  exit := 0
  stdout := report.toJson.toText ++ "\n"

/-- The answer to the text of a request, if `run?` finds the ending of its program. -/
def respond? (run? : Options → Program → Option Ending) (text : Text) :
    Option (Except Crash Answer) :=
  match Request.read text with
  | .error reason => some (.ok (reject reason))
  | .ok request =>
    match request.code with
    | .str source =>
      let program := Program.ofSource source
      match limit? request.maxSteps with
      | .ok limit =>
        (run? { limit, trace := request.trace } program).map fun ending =>
          .ok (accept (.ofEnding ending))
      | .error crash =>
        -- A blank program counts no step, so nothing is compared with the budget.
        if program.isBlank then
          (run? { trace := request.trace } program).map fun ending =>
            .ok (accept (.ofEnding ending))
        else some (.error crash)
    | other => some (.error (.notText other.typeName))

end CounterLang.Worker
