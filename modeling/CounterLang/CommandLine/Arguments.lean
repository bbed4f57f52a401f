import CounterLang.Numeral.Integer
import CounterLang.Text.Quoted

/-!
# Command-line arguments

The command takes one path and four options. An argument is first classified: it is an option, a
plain word, or the mark `--`, after which all arguments are plain. Long options may be cut short as
long as they stay unambiguous and may carry their value after an equals sign; short options may be
run together.

## Main definitions

* `Flag`: the options, with their spellings.
* `Argument.classify`: what an argument is.
* `Request.parse`: what a list of arguments asks for.
-/

namespace CounterLang.CommandLine

/-- The options of the command. -/
inductive Flag where
  | help
  | noTrace
  | maxSteps
  | verbose
deriving DecidableEq, Repr

namespace Flag

/-- The spellings of all options. -/
def spellings : List (Text × Flag) :=
  [("-h", help), ("--help", help), ("--no-trace", noTrace), ("--max-steps", maxSteps),
    ("-v", verbose), ("--verbose", verbose)]

def ofText? (text : Text) : Option Flag := spellings.lookup text

def name : Flag → Text
  | help => "-h/--help"
  | noTrace => "--no-trace"
  | maxSteps => "--max-steps"
  | verbose => "-v/--verbose"

def takesValue : Flag → Bool
  | maxSteps => true
  | help | noTrace | verbose => false

end Flag

/-- What is wrong with the arguments. -/
inductive UsageError where
  | missingValue (flag : Flag)
  | notInteger (flag : Flag) (value : Text)
  | strayValue (flag : Flag) (value : Text)
  /-- The cut-short option could be any of these. -/
  | ambiguous (argument : Text) (candidates : List Text)
  /-- No use was found for these arguments. -/
  | unrecognized (arguments : List Text)
deriving DecidableEq, Repr

def UsageError.message : UsageError → Text
  | missingValue flag => "argument " ++ flag.name ++ ": expected one argument"
  | notInteger flag value =>
    "argument " ++ flag.name ++ ": invalid int value: " ++ Text.quote value
  | strayValue flag value =>
    "argument " ++ flag.name ++ ": ignored explicit argument " ++ Text.quote value
  | ambiguous argument candidates =>
    "ambiguous option: " ++ argument ++ " could match " ++ Text.join ", " candidates
  | unrecognized arguments => "unrecognized arguments: " ++ Text.join " " arguments

/-- What an argument is. -/
inductive Argument where
  /-- A word that is no option. -/
  | plain (text : Text)
  /-- The mark after which all arguments are plain. -/
  | mark
  /-- An option, perhaps with a value attached. -/
  | option (flag : Flag) (long : Bool) (attached : Option Text)
  /-- A word that looks like an option and is none. -/
  | unknown (text : Text)
deriving DecidableEq, Repr

namespace Argument

def markText : Text := "--"

/-- The argument as it was written, for arguments that no option uses. -/
def text : Argument → Text
  | plain text | unknown text => text
  | mark => markText
  | option _ _ _ => []

/-- Whether a text is a minus sign and a number, with or without a point. -/
def isNegativeNumber (text : Text) : Bool :=
  let isDigit : CodePoint → Bool
    | .scalar c => (Text.digitValue? c).isSome
    | .surrogate _ => false
  -- A line feed at the very end does not count.
  let text := if text.getLast? = some '\n' then text.dropLast else text
  match text with
  | .scalar '-' :: rest =>
    let fraction := (rest.dropWhile isDigit).drop 1
    (!rest.isEmpty && rest.all isDigit) ||
      ((rest.dropWhile isDigit).head? = some '.' && !fraction.isEmpty && fraction.all isDigit)
  | _ => false

/-- The part of a text before its first equals sign, and the part after it if there is one. -/
def splitValue (text : Text) : Text × Option Text :=
  let name := text.takeWhile (· != .scalar '=')
  match text.drop name.length with
  | [] => (name, none)
  | _ :: value => (name, some value)

def isLong (text : Text) : Bool := markText.isPrefixOf text

/-- The options that an argument may be a short form of, with their spellings. A long option may be
cut short anywhere; what follows a short option is its value or further short options. -/
def candidates (text : Text) : List (Text × Argument) :=
  if isLong text then
    let (name, value) := splitValue text
    (Flag.spellings.filter fun spelling => name.isPrefixOf spelling.1).map fun spelling =>
      (spelling.1, option spelling.2 true value)
  else
    (Flag.spellings.filter fun spelling => spelling.1 == text.take 2).map fun spelling =>
      (spelling.1, option spelling.2 false (some (text.drop 2)))

/-- What an argument is that starts with a minus sign, has further characters, and is not the full
spelling of an option. -/
def classifyDashed (text : Text) : Except UsageError Argument :=
  let (name, value) := splitValue text
  match Flag.ofText? name, value with
  | some flag, some value => .ok (option flag (isLong name) (some value))
  | _, _ =>
    match candidates text with
    | [(_, argument)] => .ok argument
    | [] =>
      if isNegativeNumber text || text.contains (.scalar ' ') then .ok (plain text)
      else .ok (unknown text)
    | many => .error (.ambiguous text (many.map Prod.fst))

/-- What an argument is that stands before any mark. -/
def classify (text : Text) : Except UsageError Argument :=
  if text = markText then .ok mark
  else
    match text with
    | .scalar '-' :: _ :: _ =>
      match Flag.ofText? text with
      | some flag => .ok (option flag (isLong text) none)
      | none => classifyDashed text
    | _ => .ok (plain text)

/-- What the arguments are. After a mark all are plain. -/
def classifyAll : List Text → Except UsageError (List Argument)
  | [] => .ok []
  | text :: rest => do
    match ← classify text with
    | mark => return mark :: rest.map plain
    | argument => return argument :: (← classifyAll rest)

end Argument

/-- The step budget that the arguments ask for. -/
inductive Budget where
  | unlimited
  | steps (count : Int)
  /-- One without a value: the mark was attached to the option, and a mark is never a value. -/
  | empty
deriving DecidableEq, Repr

/-- What the arguments ask for so far. -/
structure Request where
  /-- The path of the program. -/
  program : Option Text := none
  trace : Bool := true
  budget : Budget := .unlimited
  verbose : Bool := false
deriving DecidableEq, Repr

/-- Why the arguments are not taken to their end. -/
inductive Stop where
  | help
  | usage (error : UsageError)
deriving DecidableEq, Repr

namespace Request

def setBudget (request : Request) (value : Text) : Except Stop Request :=
  if value = Argument.markText then .ok { request with budget := .empty }
  else
    match Numeral.readInteger value with
    | .ok count => .ok { request with budget := .steps count }
    | .error _ => .error (.usage (.notInteger .maxSteps value))

def set (request : Request) : Flag → Except Stop Request
  | .help => .error .help
  | .noTrace => .ok { request with trace := false }
  | .verbose => .ok { request with verbose := true }
  | .maxSteps => .error (.usage (.missingValue .maxSteps))

/-- The short options in an argument, from `flag` on, where `letters` are the letters after it. Each
of them must be a short option. -/
def cluster (flag : Flag) : Text → Except UsageError (List Flag)
  | [] => .ok [flag]
  | letter :: letters => do
    match Flag.ofText? ['-', letter] with
    | some next => return flag :: (← cluster next letters)
    | none => throw (.strayValue flag (letter :: letters))

/-- The request after all arguments. `positional` says whether the path has been taken, and `extras`
are the arguments without a use so far, newest first. -/
def take (request : Request) (positional : Bool) (extras : List Text) :
    List Argument → Except Stop (Request × List Text)
  | [] => .ok (request, extras.reverse)
  | .mark :: rest =>
    -- All that follows is plain: the first word may still be the path.
    if positional then
      .ok (request, extras.reverse ++ Argument.markText :: rest.map Argument.text)
    else
      match rest with
      | [] => .ok (request, extras.reverse)
      | path :: rest =>
        .ok ({ request with program := some path.text }, extras.reverse ++ rest.map Argument.text)
  | .plain text :: rest =>
    if positional then take request positional (text :: extras) rest
    else
      let request := { request with program := some text }
      match rest with
      | .mark :: rest => .ok (request, extras.reverse ++ rest.map Argument.text)
      | rest => take request true extras rest
  | .unknown text :: rest => take request positional (text :: extras) rest
  | .option flag _ none :: rest =>
    if flag.takesValue then
      match rest with
      | .plain value :: rest => do take (← request.setBudget value) positional extras rest
      | _ => .error (.usage (.missingValue flag))
    else do take (← request.set flag) positional extras rest
  | .option flag long (some value) :: rest =>
    if flag.takesValue then do take (← request.setBudget value) positional extras rest
    else if long || value.isEmpty then .error (.usage (.strayValue flag value))
    else do
      let flags ← (cluster flag value).mapError .usage
      take (← flags.foldlM set request) positional extras rest

/-- What the arguments ask for. -/
def parse (arguments : List Text) : Except Stop Request := do
  let classified ← (Argument.classifyAll arguments).mapError .usage
  let (request, extras) ← take {} false [] classified
  if extras.isEmpty then return request else throw (.usage (.unrecognized extras))

end Request

end CounterLang.CommandLine
