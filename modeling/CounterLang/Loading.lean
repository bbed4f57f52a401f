import CounterLang.Diagnostic
import CounterLang.FileTree
import CounterLang.Program
import CounterLang.Text.Newline
import CounterLang.Text.Quoted

/-!
# Loading programs

A program file holds UTF-8 text. It is read with unified line ends and cut into statements; a byte
order mark is part of the text.

## Main definitions

* `Loading.Failure`: why a program cannot be loaded.
* `Loading.load`: the program that a path leads to.
-/

namespace CounterLang.Loading

/-- Why a program cannot be loaded. -/
inductive Failure where
  | noPath
  /-- The path does not lead to a regular file. -/
  | notFound (path : Text)
  /-- The file is not UTF-8. -/
  | undecodable (path : Text) (failure : Text.Utf8.Failure)
  /-- The system refuses the path for its length. -/
  | pathTooLong (path : Text)
deriving DecidableEq, Repr

def reasonMessage : Text.Utf8.Reason → Text
  | .invalidStart => "invalid start byte"
  | .invalidContinuation => "invalid continuation byte"
  | .unexpectedEnd => "unexpected end of data"

/-- The wording for bytes that are not UTF-8. -/
def undecodableMessage (failure : Text.Utf8.Failure) : Text :=
  let start := failure.position
  let place : Text :=
    match failure.bytes with
    | [byte] =>
      "byte 0x" ++ Text.ofChars (Text.hexadecimal 2 byte.toNat) ++ " in position " ++
        Text.decimal start
    | bytes =>
      "bytes in position " ++ Text.decimal start ++ "-" ++ Text.decimal (start + bytes.length - 1)
  "'utf-8' codec can't decode " ++ place ++ ": " ++ reasonMessage failure.reason

def Failure.message : Failure → Text
  | noPath => "No file given to interpret"
  | notFound path => "Program file not found: " ++ path
  | undecodable path failure =>
    "Cannot read program file " ++ path ++ ": " ++ undecodableMessage failure
  | pathTooLong path => "[Errno 36] File name too long: " ++ Text.quote path

/-- The diagnostic that reports a failure. A path that the system refuses has none: the program that
asked for it is stopped. -/
def Failure.diagnostic? (failure : Failure) : Option Diagnostic :=
  match failure with
  | noPath | notFound _ | undecodable _ _ =>
    some { kind := .configuration, message := failure.message }
  | pathTooLong _ => none

/-- The program in a file with the given bytes. -/
def decode (bytes : List UInt8) : Except Text.Utf8.Failure Program :=
  (Text.Utf8.decode bytes).map fun text =>
    Program.ofSource (Text.ofChars (Text.unifyNewlines text))

/-- The program that a path leads to, where `find` says what paths lead to. -/
def load (find : Text → Lookup) : Option Text → Except Failure Program
  | none => .error .noPath
  | some path =>
    if path.isEmpty then .error .noPath
    else
      let path := Path.normalize path
      match find path with
      | .file bytes => (decode bytes).mapError (.undecodable path)
      | .noFile => .error (.notFound path)
      | .nameTooLong => .error (.pathTooLong path)

end CounterLang.Loading
