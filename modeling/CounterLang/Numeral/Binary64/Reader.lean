import CounterLang.Numeral.Integer
import CounterLang.Numeral.Binary64.Basic

/-!
# Reading binary floating-point numbers

A number is written as an optional sign and either digits, with a point somewhere among them and
perhaps a power of ten after them, or one of the names of infinity and of the non-number. Single
underscores may stand between digits and blanks around the whole.

## Main definitions

* `scanDecimal?`: the longest unsigned decimal at the start of a text.
* `Binary64.read?`: the number nearest to what a text writes.
-/

namespace CounterLang.Numeral

/-- The power of ten at the start of a text, if there is one, and what follows it. -/
def scanExponent : List Char → Int × List Char
  | [] => (0, [])
  | e :: text =>
    let (negative, unsigned) := takeSign text
    let digits := unsigned.takeWhile Char.isDigit
    if (e == 'e' || e == 'E') && !digits.isEmpty then
      (if negative then -valueOfDigits digits else valueOfDigits digits,
        unsigned.drop digits.length)
    else (0, e :: text)

/-- The unsigned decimal at the start of a text: its coefficient, its power of ten, and what follows
it. There must be a digit on one side of the point. -/
def scanDecimal? (text : List Char) : Option (Nat × Int × List Char) :=
  let whole := text.takeWhile Char.isDigit
  let rest := text.drop whole.length
  let fraction := if rest.head? = some '.' then (rest.drop 1).takeWhile Char.isDigit else []
  let rest := if rest.head? = some '.' then rest.drop (1 + fraction.length) else rest
  if whole.isEmpty && fraction.isEmpty then none
  else
    let (exponent, rest) := scanExponent rest
    some (valueOfDigits (whole ++ fraction), exponent - fraction.length, rest)

/-- Whether every underscore of a text stands between two digits. -/
def underscoresBetweenDigits : List Char → Bool
  | [] => true
  | '_' :: _ => false
  | [_] => true
  | c :: '_' :: d :: rest => c.isDigit && d.isDigit && underscoresBetweenDigits (d :: rest)
  | _ :: d :: rest => underscoresBetweenDigits (d :: rest)

end CounterLang.Numeral

namespace CounterLang.Binary64

open Numeral

/-- The names of infinity, in lower case. -/
def infinityNames : List (List Char) := ["inf".toList, "infinity".toList]

/-- The names of the non-number, in lower case. -/
def nanNames : List (List Char) := ["nan".toList]

/-- The unsigned number that an ASCII text writes. -/
def readUnsigned? (negative : Bool) (text : List Char) : Option Binary64 :=
  let name := text.map Char.toLower
  if infinityNames.contains name then some (infinity negative)
  else if nanNames.contains name then some nan
  else
    match scanDecimal? text with
    | some (coefficient, exponent, []) => some (ofDecimal negative coefficient exponent)
    | _ => none

/-- The number nearest to what a text writes. -/
def read? (text : Text) : Option Binary64 :=
  let trimmed := (((toAscii text).dropWhile isSpace).reverse.dropWhile isSpace).reverse
  if underscoresBetweenDigits trimmed then
    let (negative, unsigned) := takeSign (trimmed.filter (· != '_'))
    readUnsigned? negative unsigned
  else none

end CounterLang.Binary64
