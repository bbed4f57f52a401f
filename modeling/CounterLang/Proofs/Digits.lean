import CounterLang.Json.Printer
import CounterLang.Json.Reader
import CounterLang.Proofs.Texts
import Mathlib.Data.List.TakeWhile

/-!
# Digits in transit

Integers travel in decimal digits, and code points that JSON does not write as they are travel in
hexadecimal ones. What is written is read as what it was.

## Main statements

* `Text.decimal_injective`: an integer is determined by its digits.
* `Json.readNumber_decimal`: an integer is read back, if no character follows that could be a part
  of it.
* `Json.exists_hexPoint?_hexadecimal`: a UTF-16 unit is read back from its four digits.
-/

namespace CounterLang

namespace Numeral

variable {n : Nat}

theorem valueOfDigits_toDigits (n : Nat) : valueOfDigits (Nat.toDigits 10 n) = n :=
  Nat.ofDigitChars_ten_toDigits

theorem isDigit_of_mem_toDigits {c : Char} (h : c ∈ Nat.toDigits 10 n) : c.isDigit = true :=
  Nat.isDigit_of_mem_toDigits (by decide) (by decide) h

/-- No zero stands in front of further digits. -/
theorem head?_toDigits_ne (h : 0 < n) : (Nat.toDigits 10 n).head? ≠ some '0' := by
  induction n using Nat.strongRecOn with
  | ind n ih =>
    rw [Nat.toDigits_eq_if (by decide)]
    split
    · simp only [List.head?_cons, ne_eq, Option.some.injEq, Nat.digitChar_eq_zero]
      omega
    · rw [List.head?_append_of_ne_nil _ Nat.toDigits_ne_nil]
      exact ih (n / 10) (by omega) (by omega)

theorem length_toDigits_le {most : Nat} (hpos : 0 < most) (h : n < Nat.pow 10 most) :
    (Nat.toDigits 10 n).length ≤ most :=
  (Nat.length_toDigits_le_iff (by decide) hpos).2 h

end Numeral

namespace Text

variable {n : Nat}

theorem notMem_decimal {value : Int} {c : Char} (hminus : c ≠ '-') (hdigit : ¬ c.isDigit) :
    CodePoint.scalar c ∉ decimal value := by
  intro h
  obtain ⟨_, hc, ⟨⟩⟩ := List.mem_map.1 h
  exact (mem_decimalChars hc).elim hminus hdigit

/-- An integer is determined by its digits. -/
theorem decimal_injective : Function.Injective decimal := by
  intro left right h
  have hchars : decimalChars left = decimalChars right :=
    List.map_injective_iff.2 (fun _ _ => CodePoint.scalar.inj) h
  have hvalue : ∀ {k n : Nat}, Nat.toDigits 10 k = Nat.toDigits 10 n → k = n := by
    intro k n h
    rw [← Numeral.valueOfDigits_toDigits k, h, Numeral.valueOfDigits_toDigits]
  have hminus : ∀ {k : Nat}, '-' ∉ Nat.toDigits 10 k := by
    intro k h
    exact absurd (Numeral.isDigit_of_mem_toDigits h) (by decide)
  simp only [decimalChars] at hchars
  split at hchars <;> split at hchars
  · have := hvalue (List.cons.inj hchars).2
    omega
  · exact absurd (hchars ▸ List.mem_cons_self) hminus
  · exact absurd (hchars ▸ List.mem_cons_self) hminus
  · have := hvalue hchars
    omega

theorem hexadecimal_one (h : n < 16) : hexadecimal 1 n = [Nat.digitChar n] := by
  rw [hexadecimal, Nat.toDigits_of_lt_base h]
  rfl

/-- The last digit is behind the digits of what is left without it. -/
theorem hexadecimal_succ {width : Nat} (hwidth : 0 < width) (n : Nat) :
    hexadecimal (width + 1) n = hexadecimal width (n / 16) ++ [Nat.digitChar (n % 16)] := by
  simp only [hexadecimal]
  by_cases h : n < 16
  · obtain ⟨width, rfl⟩ := Nat.exists_eq_succ_of_ne_zero hwidth.ne'
    rw [Nat.toDigits_of_lt_base h, Nat.div_eq_of_lt h, Nat.mod_eq_of_lt h, Nat.toDigits_zero]
    simp [List.replicate_succ']
  · rw [Nat.toDigits_eq_if (by decide), if_neg h]
    simp

theorem exists_hexadecimal_four (unit : Fin 0x10000) : ∃ a b c d : Fin 16,
    hexadecimal 4 unit =
        [Nat.digitChar a, Nat.digitChar b, Nat.digitChar c, Nat.digitChar d] ∧
      (a.val * 16 + b.val) * 0x100 + (c.val * 16 + d.val) = unit := by
  have hunit := unit.isLt
  refine ⟨⟨unit / 16 / 16 / 16, by omega⟩, ⟨unit / 16 / 16 % 16, by omega⟩,
    ⟨unit / 16 % 16, by omega⟩, ⟨unit % 16, by omega⟩, ?_, by simp only; omega⟩
  rw [hexadecimal_succ (by decide), hexadecimal_succ (by decide), hexadecimal_succ (by decide),
    hexadecimal_one (by omega)]
  rfl

end Text

namespace Json

open Numeral

variable {n : Nat} {rest : Text}

/-! ## Decimal digits -/

/-- Whether a character may occur in a number. -/
def isNumberChar (c : Char) : Bool := c.isDigit || ['-', '+', '.', 'e', 'E'].contains c

theorem numberChars_ofChars_append {chars : List Char} (h : ∀ c ∈ chars, isNumberChar c)
    (hrest : numberChars rest = []) : numberChars (Text.ofChars chars ++ rest) = chars := by
  induction chars with
  | nil => exact hrest
  | cons c chars ih =>
    have hc : (c.isDigit || ['-', '+', '.', 'e', 'E'].contains c) = true := h c List.mem_cons_self
    have ih := ih fun d hd => h d (List.mem_cons_of_mem c hd)
    simp only [Text.ofChars, List.map_cons, List.cons_append, numberChars, hc, if_true] at ih ⊢
    rw [ih]

theorem isNumberChar_of_mem_decimalChars {value : Int} {c : Char}
    (h : c ∈ Text.decimalChars value) : isNumberChar c := by
  rcases Text.mem_decimalChars h with rfl | hdigit
  · rfl
  · simp [isNumberChar, hdigit]

theorem wholeDigits_toDigits (n : Nat) : wholeDigits (Nat.toDigits 10 n) = Nat.toDigits 10 n := by
  rcases Nat.eq_zero_or_pos n with rfl | hpos
  · rfl
  · have htake : (Nat.toDigits 10 n).takeWhile Char.isDigit = Nat.toDigits 10 n := by
      rw [List.takeWhile_eq_self_iff]
      intro c hc
      exact isDigit_of_mem_toDigits hc
    have hhead := head?_toDigits_ne hpos
    revert htake hhead
    cases Nat.toDigits 10 n with
    | nil => intros; rfl
    | cons c digits =>
      intro htake hhead
      rw [wholeDigits]
      · exact htake
      · rintro rest ⟨⟩
        exact hhead rfl

/-- The digits behind the sign, if there is one. -/
theorem exists_cons_toDigits (n : Nat) :
    ∃ c digits, Nat.toDigits 10 n = c :: digits ∧ c.isDigit := by
  obtain ⟨c, digits, h⟩ := List.exists_cons_of_ne_nil (@Nat.toDigits_ne_nil n 10)
  exact ⟨c, digits, h, isDigit_of_mem_toDigits (h ▸ List.mem_cons_self)⟩

/-- An integer is read back, if no character follows that could be a part of it. -/
theorem readNumber_decimal {value : Int} (h : isWritable value) (hrest : numberChars rest = []) :
    readNumber (Text.decimal value ++ rest) = .ok (.int value, rest) := by
  have hchars : numberChars (Text.decimal value ++ rest) = Text.decimalChars value :=
    numberChars_ofChars_append (fun c hc => isNumberChar_of_mem_decimalChars hc) hrest
  have hdrop : (Text.decimal value ++ rest).drop (Text.decimalChars value).length = rest := by
    rw [Text.decimal, Text.ofChars, ← List.length_map CodePoint.scalar]
    exact List.drop_left
  have hlength : ¬ maxDigits < (Nat.toDigits 10 value.natAbs).length :=
    Nat.not_lt.2 (length_toDigits_le (by decide) (of_decide_eq_true h))
  obtain ⟨c, digits, hdigits, hc⟩ := exists_cons_toDigits value.natAbs
  have hnil : (Nat.toDigits 10 value.natAbs).isEmpty = false := by rw [hdigits]; rfl
  rw [readNumber, hchars]
  -- The reader takes off a minus sign and reads the same digits with it or without.
  by_cases hneg : value < 0
  · have hchars : Text.decimalChars value = '-' :: Nat.toDigits 10 value.natAbs := by
      simp only [Text.decimalChars, if_pos hneg]
    have hvalue : -(value.natAbs : Int) = value := by omega
    rw [hchars] at hdrop ⊢
    simp only [wholeDigits_toDigits, hnil, List.drop_length, fractionDigits, scanExponent,
      hlength, valueOfDigits_toDigits, List.length_nil, hvalue]
    simpa using hdrop
  · have hchars : Text.decimalChars value = Nat.toDigits 10 value.natAbs := by
      simp only [Text.decimalChars, if_neg hneg]
    have hvalue : (value.natAbs : Int) = value := by omega
    rw [hchars] at hdrop ⊢
    split
    rename_i negative unsigned hsign
    split at hsign
    · rename_i hhead
      cases hdigits.symm.trans hhead
      cases hc
    · cases hsign
      simp only [wholeDigits_toDigits, hnil, List.drop_length, fractionDigits, scanExponent,
        hlength, valueOfDigits_toDigits, List.length_nil, hvalue]
      simpa using hdrop

/-! ## Hexadecimal digits -/

theorem hexValue?_digitChar (digit : Fin 16) : hexValue? (Nat.digitChar digit) = some digit := by
  revert digit
  decide

/-- A UTF-16 unit is read back from its digits. -/
theorem exists_hexPoint?_hexadecimal (unit : Fin 0x10000) : ∃ a b c d : CodePoint,
    Text.ofChars (Text.hexadecimal 4 unit) = [a, b, c, d] ∧
      hexPoint? a b c d = some (.ofUnit unit) := by
  obtain ⟨a, b, c, d, hdigits, hunit⟩ := Text.exists_hexadecimal_four unit
  refine ⟨Nat.digitChar a, Nat.digitChar b, Nat.digitChar c, Nat.digitChar d,
    by rw [hdigits]; rfl, ?_⟩
  have hunit : Fin.ofNat 0x10000 ((a.val * 16 + b.val) * 0x100 + (c.val * 16 + d.val)) = unit := by
    apply Fin.ext
    simp [Fin.ofNat, hunit]
  simp only [hexPoint?, hexValue?_digitChar, Option.bind_eq_bind, Option.bind_some]
  rw [hunit]
  rfl

end Json

end CounterLang
