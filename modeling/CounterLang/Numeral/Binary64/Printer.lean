import CounterLang.Numeral.Binary64.Basic
import CounterLang.Text.Basic

/-!
# Writing binary floating-point numbers

A number is written with the fewest decimal digits that read back to it and, of those, the nearest
to its value. The digits are laid out positionally for exponents from -4 to 15 and with an exponent
of at least two digits otherwise; a whole number keeps `.0`.

## Main definitions

* `Decimal`: a coefficient and a power of ten.
* `Binary64.shortest`: the decimal chosen for a positive number.
* `Binary64.render`: the text of a number.
-/

namespace CounterLang

/-- The number `coefficient * 10 ^ exponent`. -/
structure Decimal where
  /-- The significant digits. -/
  coefficient : Nat
  /-- The power of ten of the last of them. -/
  exponent : Int
deriving DecidableEq, Repr

/-- The same number without zeros at the end of its coefficient. -/
def Decimal.normalize (coefficient : Nat) (exponent : Int) : Decimal :=
  if coefficient ≠ 0 ∧ coefficient % 10 = 0 then normalize (coefficient / 10) (exponent + 1)
  else ⟨coefficient, exponent⟩
termination_by coefficient
decreasing_by omega

namespace Binary64

/-- The exponent of the first decimal digit of a positive number of this many units. -/
def leadingExponent (units : Nat) : Int :=
  -- With 340 places after the point even the least number has digits to count.
  ((Nat.toDigits 10 (units * Nat.pow 10 340 / one)).length : Int) - 341

/-- The multiple of `10 ^ exponent` nearest to a number of this many units, if some neighbouring
multiple reads back as the number. -/
def nearest? (units : Nat) (exponent : Int) : Option Nat :=
  -- In quarters of a unit times `widen`, the number is `value` and the grid has spacing `spacing`.
  let widen := Nat.pow 10 (-exponent).toNat
  let value := 4 * units * widen
  let spacing := 4 * one * Nat.pow 10 exponent.toNat
  let gap := Nat.pow 2 (scale units) * widen
  let even := units / Nat.pow 2 (scale units) % 2 == 0
  -- Below a power of two the numbers are twice as dense.
  let below := if units == Nat.pow 2 (52 + scale units) && scale units != 0 then gap else 2 * gap
  let inside (c : Nat) : Bool :=
    let x := c * spacing
    if x ≤ value then value - x < below || (even && value - x == below)
    else x - value < 2 * gap || (even && x - value == 2 * gap)
  let low := value / spacing
  match inside low, inside (low + 1) with
  | true, true =>
    let toLow := value - low * spacing
    let toHigh := (low + 1) * spacing - value
    some (if toLow < toHigh || (toLow == toHigh && low % 2 == 0) then low else low + 1)
  | true, false => some low
  | false, true => some (low + 1)
  | false, false => none

/-- The shortest decimal that reads back as a positive number of this many units. Seventeen digits
always do. -/
def shortest (units : Nat) : Decimal :=
  let lead := leadingExponent units
  let found := (List.range 17).findSome? fun (digits : Nat) =>
    let exponent := lead - digits
    (nearest? units exponent).map fun c => Decimal.normalize c exponent
  found.getD ⟨0, 0⟩

/-- The digits of an exponent: a sign and at least two digits. -/
def renderExponent (exponent : Int) : List Char :=
  let digits := Nat.toDigits 10 exponent.natAbs
  (if exponent < 0 then '-' else '+') :: (List.replicate (2 - digits.length) '0' ++ digits)

/-- The layout of a positive decimal. -/
def renderDecimal (d : Decimal) : List Char :=
  let digits := Nat.toDigits 10 d.coefficient
  let lead : Int := d.exponent + digits.length - 1
  if lead < -4 || 16 ≤ lead then
    let tail := digits.drop 1
    digits.take 1 ++ (if tail.isEmpty then [] else '.' :: tail) ++ 'e' :: renderExponent lead
  else if lead < 0 then
    ['0', '.'] ++ List.replicate (-lead - 1).toNat '0' ++ digits
  else if 0 ≤ d.exponent then
    digits ++ List.replicate d.exponent.toNat '0' ++ ['.', '0']
  else
    digits.take (lead + 1).toNat ++ '.' :: digits.drop (lead + 1).toNat

def finiteChars (negative : Bool) (units : Nat) : List Char :=
  let magnitude := if units = 0 then ['0', '.', '0'] else renderDecimal (shortest units)
  if negative then '-' :: magnitude else magnitude

def render : Binary64 → Text
  | nan => "nan"
  | infinity negative => if negative then "-inf" else "inf"
  | finite negative units => Text.ofChars (finiteChars negative units)

end Binary64

end CounterLang
