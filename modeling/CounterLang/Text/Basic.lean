/-!
# Text

Programs travel as JSON, and the strings of JSON may hold one half of a surrogate pair without the
other. `String` has no room for such a half, so text is a list of code points here, surrogates
included. All else that a text is made of is a `Char`, and string literals are texts by coercion.

## Main definitions

* `CodePoint`: a character, or a surrogate that stands alone.
* `Text`: a list of code points.
* `Text.ofString`, `Text.toString?`: between texts and strings.
* `Text.decimal`: an integer in decimal digits.

## Main statements

* `CodePoint.ofNat?_toNat`: a code point is determined by its number.
* `Text.toString?_ofString`: no string is lost in a text.
-/

namespace CounterLang

/-- A code point of Unicode. -/
inductive CodePoint where
  | scalar (c : Char)
  /-- The surrogate U+D800 + `offset`, which stands for nothing by itself. -/
  | surrogate (offset : Fin 0x800)
deriving DecidableEq, Repr

/-- A text, in which a surrogate may stand alone. -/
abbrev Text := List CodePoint

namespace CodePoint

instance : Coe Char CodePoint := ⟨scalar⟩

instance : Inhabited CodePoint := ⟨scalar ' '⟩

/-- The number of a code point. -/
def toNat : CodePoint → Nat
  | scalar c => c.toNat
  | surrogate offset => 0xd800 + offset

/-- The code point with the given number. -/
def ofNat? (n : Nat) : Option CodePoint :=
  if h : n.isValidChar then some (scalar (Char.ofNatAux n h))
  else if h : 0xd800 ≤ n ∧ n < 0xe000 then some (surrogate ⟨n - 0xd800, by omega⟩)
  else none

def isSurrogate : CodePoint → Bool
  | scalar _ => false
  | surrogate _ => true

/-- The code point of a number below 0x10000. -/
def ofUnit (unit : Fin 0x10000) : CodePoint :=
  if h : 0xd800 ≤ unit.val ∧ unit.val < 0xe000 then surrogate ⟨unit - 0xd800, by omega⟩
  else scalar (Char.ofNat unit)

/-- The character that two surrogates stand for, if the first is a high one and the second a low
one. -/
def pair? (high low : CodePoint) : Option Char :=
  if 0xd800 ≤ high.toNat ∧ high.toNat < 0xdc00 ∧ 0xdc00 ≤ low.toNat ∧ low.toNat < 0xe000 then
    some (Char.ofNat (0x10000 + (high.toNat - 0xd800) * 0x400 + (low.toNat - 0xdc00)))
  else none

/-- A code point is determined by its number. -/
theorem ofNat?_toNat (p : CodePoint) : ofNat? p.toNat = some p := by
  cases p with
  | scalar c =>
    have h : c.toNat.isValidChar := c.valid
    rw [toNat, ofNat?, dif_pos h]
    rfl
  | surrogate offset =>
    have h : ¬ (0xd800 + offset.val).isValidChar := by
      have := offset.isLt
      simp only [Nat.isValidChar]
      omega
    have h' : 0xd800 ≤ 0xd800 + offset.val ∧ 0xd800 + offset.val < 0xe000 := by omega
    rw [toNat, ofNat?, dif_neg h, dif_pos h']
    simp only [Nat.add_sub_cancel_left]

end CodePoint

namespace Text

def ofChars (chars : List Char) : Text := chars.map .scalar

def ofString (s : String) : Text := ofChars s.toList

instance : Coe String Text := ⟨ofString⟩

/-- The characters of a text, if no surrogate stands alone in it. -/
def toChars? (text : Text) : Option (List Char) :=
  text.mapM fun point =>
    match point with
    | .scalar c => some c
    | .surrogate _ => none

/-- The string of a text, if no surrogate stands alone in it. -/
def toString? (text : Text) : Option String := (toChars? text).map String.ofList

/-- The decimal digits of an integer, after a minus sign if it is negative. -/
def decimalChars (n : Int) : List Char :=
  let digits := Nat.toDigits 10 n.natAbs
  if n < 0 then '-' :: digits else digits

/-- An integer in decimal digits, with a minus sign if it is negative. -/
def decimal (n : Int) : Text := ofChars (decimalChars n)

/-- A list of texts with another between each two. -/
def join (separator : Text) (texts : List Text) : Text := separator.intercalate texts

@[simp] theorem toChars?_ofChars (chars : List Char) : toChars? (ofChars chars) = some chars := by
  induction chars with
  | nil => rfl
  | cons c chars ih =>
    simp only [toChars?, ofChars, List.map_cons, List.mapM_cons] at ih ⊢
    simp [ih]

/-- No string is lost in a text. -/
@[simp] theorem toString?_ofString (s : String) : toString? (ofString s) = some s := by
  simp [toString?, ofString]

example : decimal (-12) = "-12" := by decide

end Text

end CounterLang
