import CounterLang.Json.Basic
import CounterLang.Numeral.Binary64.Reader

/-!
# Reading JSON

`Json.read` accepts the standard grammar and, as numbers, the words `NaN`, `Infinity` and
`-Infinity`. A text that it refuses is refused at the first character that cannot be right, and the
failure says where that is.

## Main definitions

* `Json.Failure`: what was expected, and the text from the place where it was missing.
* `Json.Failure.message`: the failure in words, with line, column and offset.
* `Json.read`: the value that a text writes.

## Implementation notes

The readers work on the text still to come, so a place in the text is known by what follows it. The
recursion of values inside values is bounded by the length of the text, as no reader calls another
twice without taking a code point off it.
-/

namespace CounterLang.Json

/-- What was expected, or what is wrong, at a place in the text. -/
inductive Expectation where
  | value
  | name
  | colon
  /-- A comma or the closing bracket should stand here. -/
  | comma
  | ending
  /-- The text literal that starts here does not end. -/
  | closingQuote
  /-- This control character should have been escaped. -/
  | printable
  /-- This backslash starts no escape. -/
  | escape
  /-- Four hexadecimal digits should follow here. -/
  | hexadecimal
  /-- A byte order mark stands at the start of the text. -/
  | noMark
deriving DecidableEq, Repr

def Expectation.message : Expectation → Text
  | value => "Expecting value"
  | name => "Expecting property name enclosed in double quotes"
  | colon => "Expecting ':' delimiter"
  | comma => "Expecting ',' delimiter"
  | ending => "Extra data"
  | closingQuote => "Unterminated string starting at"
  | printable => "Invalid control character at"
  | escape => "Invalid \\escape"
  | hexadecimal => "Invalid \\uXXXX escape"
  | noMark => "Unexpected UTF-8 BOM (decode using utf-8-sig)"

/-- Why a text is not read. -/
inductive Failure where
  /-- An expectation fails where the text goes on with `rest`. -/
  | expected (expectation : Expectation) (rest : Text)
  /-- An integer has this many digits, more than are accepted. -/
  | tooLong (digits : Nat)
deriving DecidableEq, Repr

/-- A reader of one part of a text: the part's value and the rest of the text, or a failure. -/
abbrev Reading (α : Type) := Except Failure (α × Text)

/-- The code points that may stand between tokens. -/
def isSpace : CodePoint → Bool
  | .scalar c => c == ' ' || c == '\t' || c == '\n' || c == '\r'
  | .surrogate _ => false

/-- The text without the space at its start. -/
def skipSpace (text : Text) : Text := text.dropWhile isSpace

/-- The value of a hexadecimal digit. -/
def hexValue? : CodePoint → Option (Fin 16)
  | .scalar c =>
    if c.isDigit then some (Fin.ofNat 16 (c.toNat - '0'.toNat))
    else if 'a' ≤ c && c ≤ 'f' then some (Fin.ofNat 16 (c.toNat - 'a'.toNat + 10))
    else if 'A' ≤ c && c ≤ 'F' then some (Fin.ofNat 16 (c.toNat - 'A'.toNat + 10))
    else none
  | .surrogate _ => none

/-- The code point that four hexadecimal digits stand for. -/
def hexPoint? (a b c d : CodePoint) : Option CodePoint := do
  let high := (← hexValue? a).val * 16 + (← hexValue? b)
  let low := (← hexValue? c).val * 16 + (← hexValue? d)
  return .ofUnit (Fin.ofNat 0x10000 (high * 0x100 + low))

/-- The character that a backslash and one letter stand for. -/
def simpleEscape? : CodePoint → Option Char
  | .scalar '"' => some '"'
  | .scalar '\\' => some '\\'
  | .scalar '/' => some '/'
  | .scalar 'b' => some '\x08'
  | .scalar 'f' => some '\x0c'
  | .scalar 'n' => some '\n'
  | .scalar 'r' => some '\r'
  | .scalar 't' => some '\t'
  | _ => none

/-- A code point of a text literal. -/
structure Piece where
  point : CodePoint
  /-- Whether it was written by its number. -/
  numbered : Bool := false

/-- The pieces of a text literal, and the rest of the text. `opening` is the text from the opening
quote on, and `pieces` are the pieces so far, newest first. -/
def readPieces (opening : Text) (pieces : List Piece) : Text → Reading (List Piece)
  | [] => .error (.expected .closingQuote opening)
  | .scalar '"' :: rest => .ok (pieces.reverse, rest)
  | [.scalar '\\'] => .error (.expected .closingQuote opening)
  | .scalar '\\' :: .scalar 'u' :: a :: b :: c :: d :: e :: rest =>
    match hexPoint? a b c d with
    | some point => readPieces opening (⟨point, true⟩ :: pieces) (e :: rest)
    | none => .error (.expected .hexadecimal (.scalar 'u' :: a :: b :: c :: d :: e :: rest))
  | .scalar '\\' :: .scalar 'u' :: rest => .error (.expected .hexadecimal (.scalar 'u' :: rest))
  | .scalar '\\' :: letter :: rest =>
    match simpleEscape? letter with
    | some c => readPieces opening ({ point := c } :: pieces) rest
    | none => .error (.expected .escape (.scalar '\\' :: letter :: rest))
  | point :: rest =>
    if point.toNat < 0x20 then .error (.expected .printable (point :: rest))
    else readPieces opening ({ point } :: pieces) rest

/-- The text of a list of pieces. Two surrogates that are written by their numbers and make a pair
stand for one character. -/
def joinPieces : List Piece → Text
  | [] => []
  | [piece] => [piece.point]
  | high :: low :: rest =>
    match if high.numbered && low.numbered then high.point.pair? low.point else none with
    | some c => .scalar c :: joinPieces rest
    | none => high.point :: joinPieces (low :: rest)

/-- The text literal that starts at a quote, with the text from the quote on. -/
def readText (opening : Text) : Reading Text :=
  match readPieces opening [] (opening.drop 1) with
  | .ok (pieces, rest) => .ok (joinPieces pieces, rest)
  | .error failure => .error failure

/-- The characters at the start of a text that a number can hold. -/
def numberChars : Text → List Char
  | .scalar c :: rest =>
    if c.isDigit || ['-', '+', '.', 'e', 'E'].contains c then c :: numberChars rest else []
  | .surrogate _ :: _ | [] => []

/-- The digits before the point: a zero alone, or a digit string that starts with another digit. -/
def wholeDigits : List Char → List Char
  | '0' :: _ => ['0']
  | text => text.takeWhile Char.isDigit

/-- The digits after the point, if there is a point with a digit after it. -/
def fractionDigits : List Char → List Char
  | '.' :: rest => rest.takeWhile Char.isDigit
  | _ => []

/-- The number at the start of a text. -/
def readNumber (text : Text) : Reading Json :=
  let chars := numberChars text
  let (negative, unsigned) :=
    match chars with
    | '-' :: rest => (true, rest)
    | rest => (false, rest)
  let whole := wholeDigits unsigned
  if whole.isEmpty then .error (.expected .value text)
  else
    let rest := unsigned.drop whole.length
    let fraction := fractionDigits rest
    let rest := if fraction.isEmpty then rest else rest.drop (1 + fraction.length)
    let (exponent, rest') := Numeral.scanExponent rest
    let after := text.drop (chars.length - rest'.length)
    if fraction.isEmpty && rest'.length == rest.length then
      if Numeral.maxDigits < whole.length then .error (.tooLong whole.length)
      else
        let value := Numeral.valueOfDigits whole
        .ok (.int (if negative then -value else value), after)
    else
      let coefficient := Numeral.valueOfDigits (whole ++ fraction)
      .ok (.real (.ofDecimal negative coefficient (exponent - fraction.length)), after)

/-- The words that are values. -/
def wordValues : List (Text × Json) :=
  [("null", .null), ("true", .bool true), ("false", .bool false), ("NaN", .real .nan),
    ("Infinity", .real (.infinity false)), ("-Infinity", .real (.infinity true))]

def readScalar (text : Text) : Reading Json :=
  match wordValues.find? fun word => word.1.isPrefixOf text with
  | some (word, value) => .ok (value, text.drop word.length)
  | none => readNumber text

mutual

/-- The value at the start of a text. -/
def readValue : Nat → Text → Reading Json
  | 0, text => .error (.expected .value text)
  | fuel + 1, text =>
    match text with
    | .scalar '"' :: rest =>
      match readText (.scalar '"' :: rest) with
      | .ok (value, rest) => .ok (.str value, rest)
      | .error failure => .error failure
    | .scalar '[' :: rest =>
      match skipSpace rest with
      | .scalar ']' :: rest => .ok (.arr [], rest)
      | rest => readItems fuel [] rest
    | .scalar '\x7b' :: rest =>
      match skipSpace rest with
      | .scalar '\x7d' :: rest => .ok (.obj [], rest)
      | rest => readMembers fuel [] rest
    | rest => readScalar rest

/-- The items of a list from the next one on, after the items `read`, newest first. -/
def readItems : Nat → List Json → Text → Reading Json
  | 0, _, text => .error (.expected .value text)
  | fuel + 1, read, text =>
    match readValue fuel text with
    | .error failure => .error failure
    | .ok (value, rest) =>
      match skipSpace rest with
      | .scalar ']' :: rest => .ok (.arr (value :: read).reverse, rest)
      | .scalar ',' :: rest => readItems fuel (value :: read) (skipSpace rest)
      | rest => .error (.expected .comma rest)

/-- The members of an object from the next one on, after the members `read`, newest first. -/
def readMembers : Nat → List (Text × Json) → Text → Reading Json
  | 0, _, text => .error (.expected .name text)
  | fuel + 1, read, text =>
    match text with
    | .scalar '"' :: rest =>
      match readText (.scalar '"' :: rest) with
      | .error failure => .error failure
      | .ok (name, rest) =>
        match skipSpace rest with
        | .scalar ':' :: rest =>
          match readValue fuel (skipSpace rest) with
          | .error failure => .error failure
          | .ok (value, rest) =>
            match skipSpace rest with
            | .scalar '\x7d' :: rest =>
              .ok (.obj (Entries.ofList ((name, value) :: read).reverse), rest)
            | .scalar ',' :: rest => readMembers fuel ((name, value) :: read) (skipSpace rest)
            | rest => .error (.expected .comma rest)
        | rest => .error (.expected .colon rest)
    | rest => .error (.expected .name rest)

end

/-- The value that a text writes. -/
def read (text : Text) : Except Failure Json :=
  match text with
  | .scalar '\ufeff' :: _ => .error (.expected .noMark text)
  | _ =>
    match readValue (2 * text.length + 2) (skipSpace text) with
    | .error failure => .error failure
    | .ok (value, rest) =>
      match skipSpace rest with
      | [] => .ok value
      | rest => .error (.expected .ending rest)

namespace Failure

/-- How many code points of the text stand before the place of a failure. -/
def offset (text : Text) : Failure → Nat
  | expected _ rest => text.length - rest.length
  | tooLong _ => 0

/-- A failure in words, with the line, the column and the offset of its place in the text. -/
def message (text : Text) : Failure → Text
  | expected expectation rest =>
    let before := text.take (text.length - rest.length)
    let lineEnd : CodePoint := '\n'
    let line := before.count lineEnd + 1
    let column := (before.reverse.takeWhile (· != lineEnd)).length + 1
    expectation.message ++ ": line " ++ Text.decimal line ++ " column " ++ Text.decimal column ++
      " (char " ++ Text.decimal before.length ++ ")"
  | tooLong digits => Numeral.tooLongMessage digits

end Failure

end CounterLang.Json
