/-!
# Binary floating-point numbers

The numbers of the 64-bit binary format. Every finite one is a whole multiple of 2^-1074, its least
positive number, so a finite number is kept as a sign and a natural number of such units. Rounding,
order and truncation are then exact statements about natural numbers.

## Main definitions

* `Binary64`: the numbers.
* `Binary64.round`: the number nearest to a quotient, ties going to the even significand.
* `Binary64.lt`: the order; no comparison with the non-number holds.
* `Binary64.truncate`, `Binary64.floor`: the integers next to a finite number.
-/

namespace CounterLang

/-- A number of the 64-bit binary format. -/
inductive Binary64 where
  | nan
  /-- A number beyond all finite ones. -/
  | infinity (negative : Bool)
  /-- A finite number, as a multiple of 2^-1074. -/
  | finite (negative : Bool) (units : Nat)
deriving DecidableEq, Repr

namespace Binary64

/-- How many units make one. -/
def one : Nat := Nat.pow 2 1074

/-- The units of the least power of two that is too large to be finite. -/
def overflow : Nat := Nat.pow 2 2098

/-- The exponent of the least significand bit of a number of this many units, in units. -/
def scale (units : Nat) : Nat := Nat.log2 units - 52

/-- The quotient rounded to a whole number, a half going to the even neighbour. -/
def roundHalfEven (num den : Nat) : Nat :=
  let quotient := num / den
  let twice := 2 * (num % den)
  if twice < den then quotient
  else if den < twice then quotient + 1
  else quotient + quotient % 2

/-- The number nearest to `num / den` units, with 53 significant bits. -/
def round (negative : Bool) (num den : Nat) : Binary64 :=
  let step := Nat.pow 2 (scale (num / den))
  let units := roundHalfEven num (den * step) * step
  if units < overflow then finite negative units else infinity negative

/-- The number nearest to an integer, or `none` if the integer lies beyond all finite numbers. -/
def ofInt? (n : Int) : Option Binary64 :=
  match round (n < 0) (n.natAbs * one) 1 with
  | finite negative units => some (finite negative units)
  | infinity _ | nan => none

/-- The number nearest to `coefficient * 10 ^ exponent`. -/
def ofDecimal (negative : Bool) (coefficient : Nat) (exponent : Int) : Binary64 :=
  -- Far outside the range of finite numbers the power of ten need not be computed.
  let magnitude := (Nat.toDigits 10 coefficient).length + exponent
  if coefficient = 0 || magnitude < -330 then finite negative 0
  else if 330 < magnitude then infinity negative
  else round negative (coefficient * one * Nat.pow 10 exponent.toNat) (Nat.pow 10 (-exponent).toNat)

/-- A finite number in units, with its sign. -/
def signedUnits (negative : Bool) (units : Nat) : Int := if negative then -units else units

def lt : Binary64 → Binary64 → Bool
  | nan, _ | _, nan => false
  | infinity s, infinity t => s && !t
  | infinity s, finite _ _ => s
  | finite _ _, infinity t => !t
  | finite s m, finite t n => signedUnits s m < signedUnits t n

def isZero : Binary64 → Bool
  | finite _ units => units == 0
  | nan | infinity _ => false

/-- The integer next to a finite number on the side of zero. -/
def truncate (negative : Bool) (units : Nat) : Int := signedUnits negative (units / one)

/-- The greatest integer that is not above a finite number. -/
def floor (negative : Bool) (units : Nat) : Int := Int.fdiv (signedUnits negative units) one

theorem lt_irrefl (x : Binary64) : lt x x = false := by
  cases x with
  | nan => rfl
  | infinity s => cases s <;> rfl
  | finite s m => simp [lt]

theorem lt_asymm {x y : Binary64} (h : lt x y = true) : lt y x = false := by
  cases x with
  | nan => simp [lt] at h
  | infinity s =>
    cases y with
    | nan => rfl
    | infinity t => cases s <;> cases t <;> simp_all [lt]
    | finite t n => simp_all [lt]
  | finite s m =>
    cases y with
    | nan => rfl
    | infinity t => simp_all [lt]
    | finite t n =>
      simp only [lt, decide_eq_true_eq, decide_eq_false_iff_not] at h ⊢
      omega

end Binary64

end CounterLang
