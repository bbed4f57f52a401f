import CounterLang.CommandLine.Invocation

/-!
# The command

Runs a program from a file and shows its events as they happen. Everything is decided in
`CounterLang.CommandLine`; this module reads the file and writes the lines.
-/

namespace CounterLang.CommandLine

/-- The number by which the system says that a path or name is too long. -/
def tooLongNumber : UInt32 := 36

/-- The string that is written for a text. What has no form in UTF-8 is replaced. -/
def shown (text : Text) : String :=
  String.ofList (text.map fun point =>
    match point with
    | .scalar c => c
    | .surrogate _ => '\ufffd')

/-- What a path leads to in the file system. -/
def lookup (path : Text) : IO Lookup := do
  let some path := Text.toString? path | return .noFile
  try
    return .file (← IO.FS.readBinFile path).toList
  catch
    | .invalidArgument _ number _ =>
      return if number = tooLongNumber then .nameTooLong else .noFile
    | _ => return .noFile

/-- Writes the lines of the events in a log, which has the newest first. -/
def showEvents (verbose : Bool) (log : List Event) : IO Unit :=
  for event in log.reverse do
    if let some line := event.displayLine? then IO.println (shown line)
    if verbose then
      if let some note := event.noteLine? then IO.eprintln (shown (noteLine note))

/-- Writes what an invocation leaves behind and gives its exit status. -/
def finish (invocation : Invocation) : IO UInt32 := do
  for line in invocation.stdout do IO.println (shown line)
  for line in invocation.stderr do IO.eprintln (shown line)
  match invocation.exit with
  | .ok status => return status.toUInt32
  | .error crash =>
    IO.eprintln (shown crash.message)
    return 1

/-- Follows a run to its end. The log is emptied once its events are shown. -/
partial def follow (options : Options) (verbose : Bool) (machine : Machine) : IO UInt32 := do
  match machine.step options with
  | .running next =>
    showEvents verbose next.log
    follow options verbose { next with log := [] }
  | .finished => finish (conclude verbose (Ending.close options { machine }))
  | .failed fault last => finish (conclude verbose { machine := last, fault := some fault })

/-- Carries out the command with the given arguments. -/
def execute (arguments : List String) : IO UInt32 := do
  let arguments := arguments.map Text.ofString
  let found ← (programPath? arguments).elim (pure .noFile) lookup
  match prepare (fun _ => found) arguments with
  | .done invocation => finish invocation
  | .run program options verbose => follow options verbose program.start

end CounterLang.CommandLine

def main (arguments : List String) : IO UInt32 := CounterLang.CommandLine.execute arguments
