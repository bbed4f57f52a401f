import CounterLang.Json.Reader
import CounterLang.Text.Quoted

/-!
# Numbers from JSON values

Settings are taken liberally: a truth value counts as 0 or 1, a text is read as a numeral, and a
number with a fraction is cut off towards zero where an integer is wanted.

## Main definitions

* `Json.ConversionError`: why a value gives no number, with its wording.
* `Json.toInteger`, `Json.toReal`: the integer or floating-point number that a value gives.
* `integerOfText`, `realOfText`: the same for a text alone.
-/

namespace CounterLang.Json

/-- Why a value gives no number. -/
inductive ConversionError where
  /-- The text does not write an integer. -/
  | notInteger (text : Text)
  /-- The text writes an integer with too many digits. -/
  | tooLong (digits : Nat)
  /-- The text does not write a number. -/
  | notReal (text : Text)
  /-- No integer is made from values of this type. -/
  | integerType (typeName : Text)
  /-- No floating-point number is made from values of this type. -/
  | realType (typeName : Text)
  /-- The non-number has no integer next to it. -/
  | nanToInteger
  /-- An infinity has no integer next to it. -/
  | infinityToInteger
  /-- The integer lies beyond all finite floating-point numbers. -/
  | integerTooLarge
  /-- Values of this type have no members to look up. -/
  | noMembers (typeName : Text)
deriving DecidableEq, Repr

/-- The most characters of a quoted text that a message shows. -/
def shownCharacters : Nat := 200

def ConversionError.message : ConversionError → Text
  | notInteger text =>
    "invalid literal for int() with base 10: " ++ (Text.quote text).take shownCharacters
  | tooLong digits => Numeral.tooLongMessage digits
  | notReal text => "could not convert string to float: " ++ Text.quote text
  | integerType typeName =>
    "int() argument must be a string, a bytes-like object or a real number, not '" ++ typeName ++
      "'"
  | realType typeName =>
    "float() argument must be a string or a real number, not '" ++ typeName ++ "'"
  | nanToInteger => "cannot convert float NaN to integer"
  | infinityToInteger => "cannot convert float infinity to integer"
  | integerTooLarge => "int too large to convert to float"
  | noMembers typeName => "'" ++ typeName ++ "' object has no attribute 'get'"

/-- The integer that a text writes. -/
def integerOfText (text : Text) : Except ConversionError Int :=
  match Numeral.readInteger text with
  | .ok value => .ok value
  | .error .malformed => .error (.notInteger text)
  | .error (.tooLong digits) => .error (.tooLong digits)

/-- The floating-point number that a text writes. -/
def realOfText (text : Text) : Except ConversionError Binary64 :=
  match Binary64.read? text with
  | some value => .ok value
  | none => .error (.notReal text)

def integerOfBool (value : Bool) : Int := if value then 1 else 0

/-- The floating-point number nearest to an integer. -/
def realOfInteger (value : Int) : Except ConversionError Binary64 :=
  match Binary64.ofInt? value with
  | some value => .ok value
  | none => .error .integerTooLarge

/-- The integer that a value gives. -/
def toInteger : Json → Except ConversionError Int
  | bool value => .ok (integerOfBool value)
  | int value => .ok value
  | real (.finite negative units) => .ok (Binary64.truncate negative units)
  | real .nan => .error .nanToInteger
  | real (.infinity _) => .error .infinityToInteger
  | str value => integerOfText value
  | null => .error (.integerType (typeName null))
  | arr items => .error (.integerType (typeName (arr items)))
  | obj members => .error (.integerType (typeName (obj members)))

/-- The floating-point number that a value gives. -/
def toReal : Json → Except ConversionError Binary64
  | bool value => realOfInteger (integerOfBool value)
  | int value => realOfInteger value
  | real value => .ok value
  | str value => realOfText value
  | null => .error (.realType (typeName null))
  | arr items => .error (.realType (typeName (arr items)))
  | obj members => .error (.realType (typeName (obj members)))

end CounterLang.Json
