import CounterLang.CommandLine.Arguments
import CounterLang.Loading
import CounterLang.Machine.Run

/-!
# Invocations

What the command does: it loads the program that its arguments name, runs it, shows trace and output
as they come, and reports the diagnostic of a run that ends early.

## Main definitions

* `Invocation`: what the command leaves behind.
* `invoke?`: the invocation with given arguments.
-/

namespace CounterLang.CommandLine

/-- How the command is used, in one line. -/
def usage : Text :=
  "usage: barebones [-h] [--no-trace] [--max-steps MAX_STEPS] [-v] [program]"

/-- How the command is used, in full. -/
def help : List Text :=
  [usage,
    "",
    "Bare Bones interpreter",
    "",
    "positional arguments:",
    "  program               Path to the program file",
    "",
    "options:",
    "  -h, --help            show this help message and exit",
    "  --no-trace            Do not print the execution trace",
    "  --max-steps MAX_STEPS",
    "                        Abort after this many steps (default: unbounded)",
    "  -v, --verbose         Enable debug logging"]

/-- A debugging note as the command shows it. -/
def noteLine (note : Text) : Text := "DEBUG backend.barebones.interpreter: " ++ note

/-- The diagnostic for a step budget below zero. -/
def negativeBudget : Diagnostic where
  kind := .configuration
  message := "--max-steps must not be negative"

/-- What stops the command without an exit status. -/
inductive Crash where
  /-- The system refuses to look for the program. -/
  | loading (failure : Loading.Failure)
  /-- The step budget has no value to compare. -/
  | emptyBudget
deriving DecidableEq, Repr

def Crash.message : Crash → Text
  | loading failure => failure.message
  | emptyBudget => "'<' not supported between instances of 'list' and 'int'"

/-- What the command leaves behind. -/
structure Invocation where
  /-- The exit status, or what stops the command without one. -/
  exit : Except Crash Nat
  stdout : List Text := []
  stderr : List Text := []

/-- What the command does before a program runs. -/
inductive Preparation where
  | done (invocation : Invocation)
  | run (program : Program) (options : Options) (verbose : Bool)

def diagnosed (d : Diagnostic) : Invocation where
  exit := .ok 1
  stderr := [d.summary]

/-- The step budget of a run, or how an invocation ends without one. -/
def Budget.limit : Budget → Except Invocation (Option Limit)
  | unlimited => .ok none
  | steps count =>
    if count < 0 then .error (diagnosed negativeBudget) else .ok (some (.ofInt count))
  | empty => .error { exit := .error .emptyBudget }

/-- What the command does with a request before a program runs, where `find` says what paths lead
to. -/
def Request.prepare (find : Text → Lookup) (request : Request) : Preparation :=
  match request.budget.limit with
  | .error invocation => .done invocation
  | .ok limit =>
    match Loading.load find request.program with
    | .ok program => .run program { limit, trace := request.trace } request.verbose
    | .error failure =>
      match failure.diagnostic? with
      | some d => .done (diagnosed d)
      | none => .done { exit := .error (.loading failure) }

/-- What the command does with its arguments before a program runs. -/
def prepare (find : Text → Lookup) (arguments : List Text) : Preparation :=
  match Request.parse arguments with
  | .error .help => .done { exit := .ok 0, stdout := help }
  | .error (.usage error) =>
    .done { exit := .ok 2, stderr := [usage, "barebones: error: " ++ error.message] }
  | .ok request => request.prepare find

/-- The path that has to be followed to prepare an invocation, if its arguments name one. -/
def programPath? (arguments : List Text) : Option Text :=
  (Request.parse arguments).toOption.bind fun request => request.program.map Path.normalize

/-- The invocation that a run with the given ending makes up. -/
def conclude (verbose : Bool) (ending : Ending) : Invocation where
  exit := .ok (if ending.fault.isSome then 1 else 0)
  stdout := ending.machine.display
  stderr :=
    (if verbose then ending.machine.notes.map noteLine else []) ++
      (ending.diagnostic?.map Diagnostic.summary).toList

/-- The invocation with the given arguments, if the program ends within its budget or `fuel`
transitions. -/
def invoke? (fuel : Nat) (find : Text → Lookup) (arguments : List Text) : Option Invocation :=
  match prepare find arguments with
  | .done invocation => some invocation
  | .run program options verbose => (program.run? fuel options).map (conclude verbose)

end CounterLang.CommandLine
