import CounterLang.Json.Conversion
import CounterLang.Machine.Run

/-!
# Reports

A report is what a caller gets of a run: its trace, its output, the final store, and the problem
that ended it early, if there is one. Reports travel as JSON.

## Main definitions

* `Problem`: why a run ended early, as callers see it.
* `Report`: the report of a run.
* `Report.toJson`, `Report.ofJson?`: its form in transit and back.
-/

namespace CounterLang

/-- Why a run ended early, as callers see it. -/
structure Problem where
  /-- The stable code of the kind of problem. -/
  code : Text
  message : Text
  /-- The line it was noticed on. -/
  line : Option Int := none
  token : Option Text := none
deriving DecidableEq, Repr

/-- What a caller gets of a run. -/
structure Report where
  trace : List Text := []
  output : List Text := []
  /-- The values of the variables at the end. -/
  store : Store := ∅
  /-- Why the run ended early, if it did. -/
  problem : Option Problem := none
deriving DecidableEq, Repr

namespace Problem

/-- The problem that a diagnostic reports. -/
def ofDiagnostic (d : Diagnostic) : Problem where
  code := d.kind.code
  message := d.message
  line := d.line
  token := d.token

/-- A problem in transit. -/
def toJson (p : Problem) : Json :=
  .obj [
    ("code", .str p.code),
    ("message", .str p.message),
    ("line", p.line.elim .null .int),
    ("token", p.token.elim .null .str)]

/-- The problem that a value in transit stands for. -/
def ofJson? (json : Json) : Option Problem := do
  let .str code ← json.get? "code" | none
  let .str message ← json.get? "message" | none
  let line ←
    match json.get? "line" with
    | some (.int line) => some (some line)
    | some .null | none => some none
    | some _ => none
  let token ←
    match json.get? "token" with
    | some (.str token) => some (some token)
    | some .null | none => some none
    | some _ => none
  return { code, message, line, token }

end Problem

namespace Report

/-- The report of a run that ended. -/
def ofEnding (ending : Ending) : Report where
  trace := ending.machine.trace
  output := ending.machine.output
  store := ending.machine.store
  problem := ending.diagnostic?.map .ofDiagnostic

/-- A report in transit. -/
def toJson (r : Report) : Json :=
  .obj [
    ("trace", .arr (r.trace.map .str)),
    ("output", .arr (r.output.map .str)),
    ("store", .obj (r.store.entries.map fun entry => (entry.1, .int entry.2))),
    ("error", r.problem.elim .null Problem.toJson)]

/-- The text of a value that is one. -/
def text? : Json → Option Text
  | .str text => some text
  | _ => none

/-- The variable that a member of an object stands for. -/
def entry? (entry : Text × Json) : Option (Text × Int) :=
  match entry.2 with
  | .int value => some (entry.1, value)
  | _ => none

/-- The report that a value in transit stands for. -/
def ofJson? (json : Json) : Option Report := do
  let .arr trace ← json.get? "trace" | none
  let .arr output ← json.get? "output" | none
  let .obj store ← json.get? "store" | none
  let problem ←
    match json.get? "error" with
    | some .null | none => some none
    | some problem => (Problem.ofJson? problem).map some
  return {
    trace := ← trace.mapM text?
    output := ← output.mapM text?
    store := Store.ofList (← store.mapM entry?)
    problem }

end Report

end CounterLang
