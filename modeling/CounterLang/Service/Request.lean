import CounterLang.Isolation
import CounterLang.Service.Basic
import CounterLang.Settings
import CounterLang.Text.Encoding

/-!
# Requests to the service

A request to run a program is checked for its shape, its settings are held below the ceilings, and
the program is run in the server's own process or in a worker. Every answer to a request of the
right shape has the same shape.

## Main definitions

* `Service.run`: the result of a program with its settings.
* `Service.answerBytes`, `Service.answerText`, `Service.answerJson`: the answer to a request whose
  body is given as bytes, as a text or as a value.
-/

namespace CounterLang.Service

/-! ## Running -/

/-- The result of a run in the server's own process. Its budget brings every run to an end. -/
def runInProcess (source : Text) (settings : Settings) : Result :=
  let limit := Limit.ofInt settings.maxSteps
  let options : Options := { limit := some limit, trace := settings.trace }
  .ofReport (.ofEnding
    (((Program.ofSource source).start.finish limit settings.trace).close options))

/-- The result of a run in a worker. -/
def runIsolated (source : Text) (settings : Settings) : Result :=
  match Isolation.run source (some settings.maxSteps) settings.trace (some settings.timeout) with
  | .timedOut => { trouble := some .timeout }
  | .refused refusal => { trouble := some (.server refusal.message) }
  | .exited _ stdout =>
    match Json.read stdout with
    | .error failure => { trouble := some (.server (failure.message stdout)) }
    | .ok json =>
      match Report.ofJson? json with
      | some report => .ofReport report
      | none => { trouble := some (.server stdout) }

/-- The result of a program with the settings that a client asks for. -/
def run (ceilings : Ceilings) (source : Text) (asked : Json) : Result :=
  match Settings.cap ceilings asked with
  | .error error => { trouble := some (.server error.message) }
  | .ok settings =>
    if settings.isolated then runIsolated source settings else runInProcess source settings

/-! ## Checking -/

/-- The part of a request that holds everything. -/
def body : Place := .part "body"

/-- What is wrong with the program of a request. -/
def codeIssues (request : Json) : List Issue :=
  match request.get? "code" with
  | some (.str _) => []
  | some input => [⟨"string_type", [body, .part "code"], "Input should be a valid string", input⟩]
  | none => [⟨"missing", [body, .part "code"], "Field required", request⟩]

/-- What is wrong with the settings of a request. -/
def settingsIssues (request : Json) : List Issue :=
  match request.get? "settings" with
  | none | some .null | some (.obj _) => []
  | some input =>
    [⟨"dict_type", [body, .part "settings"], "Input should be a valid dictionary", input⟩]

/-- The answer to a request whose body is a value. -/
def answerJson (ceilings : Ceilings) (request : Json) : Answer :=
  match request with
  | .obj _ =>
    match request.get? "code", codeIssues request ++ settingsIssues request with
    | some (.str source), [] =>
      .result (run ceilings source ((request.get? "settings").getD .null))
    | _, issues => .invalid issues
  | _ =>
    .invalid [⟨"model_attributes_type", [body],
      "Input should be a valid dictionary or object to extract fields from", request⟩]

/-- The answer to a request whose body is a text. -/
def answerText (ceilings : Ceilings) (text : Text) : Answer :=
  match Json.read text with
  | .ok request => answerJson ceilings request
  | .error (.tooLong _) => .unreadable
  | .error failure =>
    .invalid
      [⟨"json_invalid", [body, .offset (failure.offset text)], "JSON decode error", .obj []⟩]

/-- The answer to a request whose body is given as bytes. -/
def answerBytes (ceilings : Ceilings) (bytes : List UInt8) : Answer :=
  if bytes.isEmpty then .invalid [⟨"missing", [body], "Field required", .null⟩]
  else
    match Text.ofJsonBytes? bytes with
    | some text => answerText ceilings text
    | none => .unreadable

end CounterLang.Service
