import CounterLang.Text.Blank
import CounterLang.Text.Digit

/-!
# Integers in text

An integer is written as an optional sign and decimal digits, in which single underscores may stand
between digits and around which there may be blanks. Digits and blanks of all scripts are accepted.
A numeral of more than 4300 digits is refused, as reading it takes time quadratic in its length.

## Main definitions

* `toAscii`: the text with digits and blanks of all scripts replaced by their ASCII forms.
* `readInteger`: the integer that a text writes.
-/

namespace CounterLang.Numeral

/-- Why a text is not read as an integer. -/
inductive IntegerError where
  /-- It does not have the form of an integer. -/
  | malformed
  /-- It has this many digits, more than are accepted. -/
  | tooLong (digits : Nat)
deriving DecidableEq, Repr

/-- The most digits that are accepted. -/
def maxDigits : Nat := 4300

/-- The blanks that may stand around a numeral. -/
def isSpace (c : Char) : Bool := c == ' ' || ('\t' ≤ c && c ≤ '\r')

/-- A code point of a numeral in ASCII. What is neither a digit nor a blank has no such form, and a
mark that no numeral holds takes its place. -/
def toAsciiChar : CodePoint → Char
  | .surrogate _ => '?'
  | .scalar c =>
    if c.toNat < 0x7f then c
    else if Text.isBlank c then ' '
    else
      match Text.digitValue? c with
      | some value => Nat.digitChar value
      | none => '?'

/-- The text with digits and blanks of all scripts replaced by their ASCII forms. -/
def toAscii (text : Text) : List Char := text.map toAsciiChar

/-- Takes the sign off a numeral: whether it is negative, and what follows. -/
def takeSign : List Char → Bool × List Char
  | '-' :: rest => (true, rest)
  | '+' :: rest => (false, rest)
  | rest => (false, rest)

def valueOfDigits (digits : List Char) : Nat :=
  digits.foldl (fun value c => 10 * value + (c.toNat - '0'.toNat)) 0

/-- Whether underscores stand only between digits, one at a time, in a nonempty run of digits and
underscores. -/
def wellSpaced (run : List Char) : Bool :=
  (run.splitOn '_').all fun group => !group.isEmpty

/-- The integer that a text writes. -/
def readInteger (text : Text) : Except IntegerError Int :=
  let (negative, unsigned) := takeSign ((toAscii text).dropWhile isSpace)
  let run := unsigned.takeWhile fun c => c.isDigit || c == '_'
  let digits := run.filter Char.isDigit
  if !wellSpaced run then .error .malformed
  else if maxDigits < digits.length then .error (.tooLong digits.length)
  else if (unsigned.drop run.length).all isSpace then
    let value := valueOfDigits digits
    .ok (if negative then -value else value)
  else .error .malformed

/-- Whether an integer has no more digits than are written. -/
def isWritable (n : Int) : Bool := n.natAbs < Nat.pow 10 maxDigits

/-- The wording for a numeral with this many digits, more than are read. -/
def tooLongMessage (digits : Nat) : Text :=
  "Exceeds the limit (" ++ Text.decimal maxDigits ++ " digits) for integer string conversion: " ++
    "value has " ++ Text.decimal digits ++
    " digits; use sys.set_int_max_str_digits() to increase the limit"

/-- The wording for an integer with more digits than are written. -/
def unwritableMessage : Text :=
  "Exceeds the limit (" ++ Text.decimal maxDigits ++ " digits) for integer string conversion; " ++
    "use sys.set_int_max_str_digits() to increase the limit"

example : (readInteger " -1_000 ").toOption = some (-1000) := by decide

example : (readInteger "1__0").toOption = none := by decide

end CounterLang.Numeral
