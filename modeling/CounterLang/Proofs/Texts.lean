import CounterLang.Program
import Mathlib.Data.List.Basic

/-!
# Kinds of text

Two kinds of text can be told to others without loss. Scalar texts have no surrogate of their own,
and plain texts are made up of the printable ASCII characters. Both kinds are closed under all that
messages and traces are made with. A third kind, the tokens, is what statements are made up of.

## Main definitions

* `Text.IsScalar`, `Text.IsPlain`: the two kinds that can be told to others.
* `Text.IsToken`: a text that holds nothing which separates tokens or statements.

## Main statements

* `Program.isScalar_of_mem_ofSource`: the statements of a scalar source are scalar.
* `Program.isToken_of_mem_ofSource`: the statements of a source are made up of tokens.
* `Text.isPlain_decimal`: integers are written plainly.
-/

namespace CounterLang

namespace Text

/-- No surrogate stands alone in the text. -/
def IsScalar (text : Text) : Prop := ∀ point ∈ text, point.isSurrogate = false

/-- The text consists of printable ASCII characters, so it is within one line. -/
def IsPlain (text : Text) : Prop := ∀ point ∈ text, 0x20 ≤ point.toNat ∧ point.toNat < 0x7f

/-- A text that can be a token of source text. -/
structure IsToken (token : Text) : Prop where
  ne_nil : token ≠ []
  isBlank_eq_false : ∀ point ∈ token, point.isBlank = false
  delimiter_notMem : Program.delimiter ∉ token

instance (token : Text) : Decidable token.IsToken :=
  decidable_of_iff (token ≠ [] ∧ (∀ point ∈ token, point.isBlank = false) ∧
    Program.delimiter ∉ token) ⟨fun ⟨h, h', h''⟩ => ⟨h, h', h''⟩, fun ⟨h, h', h''⟩ => ⟨h, h', h''⟩⟩

variable {text left right separator : Text} {texts : List Text}

instance : Decidable text.IsScalar :=
  inferInstanceAs (Decidable (∀ point ∈ text, point.isSurrogate = false))

instance : Decidable text.IsPlain :=
  inferInstanceAs (Decidable (∀ point ∈ text, 0x20 ≤ point.toNat ∧ point.toNat < 0x7f))

theorem forall_mem_join {P : CodePoint → Prop} (hseparator : ∀ point ∈ separator, P point)
    (htexts : ∀ text ∈ texts, ∀ point ∈ text, P point) :
    ∀ point ∈ join separator texts, P point := by
  induction texts with
  | nil =>
    intro point hpoint
    simp [join] at hpoint
  | cons text texts ih =>
    have htext := htexts text List.mem_cons_self
    have ih := ih fun t ht => htexts t (List.mem_cons_of_mem text ht)
    cases texts with
    | nil => simpa [join] using htext
    | cons next texts =>
      rw [join, List.intercalate_cons_cons, List.forall_mem_append, List.forall_mem_append]
      exact ⟨⟨htext, hseparator⟩, ih⟩

theorem mem_of_mem_words {word : Text} {point : CodePoint} (hword : word ∈ words text)
    (hpoint : point ∈ word) : point ∈ text :=
  (mem_of_mem_splitOnP (List.mem_of_mem_filter hword) hpoint).1

theorem mem_decimalChars {value : Int} {c : Char} (h : c ∈ decimalChars value) :
    c = '-' ∨ c.isDigit := by
  have hdigit : ∀ d ∈ Nat.toDigits 10 value.natAbs, d.isDigit := by
    intro d hd
    exact Nat.isDigit_of_mem_toDigits (by decide) (by decide) hd
  simp only [decimalChars] at h
  split at h
  · exact (List.mem_cons.1 h).imp_right (hdigit c)
  · exact .inr (hdigit c h)

/-! ## Scalar texts -/

theorem IsScalar.append (hleft : left.IsScalar) (hright : right.IsScalar) :
    (left ++ right).IsScalar := List.forall_mem_append.2 ⟨hleft, hright⟩

theorem IsPlain.append (hleft : left.IsPlain) (hright : right.IsPlain) : (left ++ right).IsPlain :=
  List.forall_mem_append.2 ⟨hleft, hright⟩

/-- The only blank of a plain text is the space. -/
theorem IsPlain.eq_space (h : text.IsPlain) {point : CodePoint} (hpoint : point ∈ text)
    (hblank : point.isBlank) : point = ' ' := by
  obtain ⟨hle, hlt⟩ := h point hpoint
  cases point with
  | surrogate => cases hblank
  | scalar c =>
    have hspace : c.toNat = ' '.toNat := by
      simp only [CodePoint.toNat] at hle hlt
      simp only [CodePoint.isBlank, isBlank] at hblank
      rw [if_pos (by omega)] at hblank
      simp only [Bool.or_eq_true, Bool.and_eq_true, decide_eq_true_eq] at hblank
      have hnumber : ' '.toNat = 0x20 := rfl
      omega
    rw [Char.toNat_inj.1 hspace]

theorem isPlain_decimal (value : Int) : (decimal value).IsPlain := by
  intro point hpoint
  obtain ⟨c, hc, rfl⟩ := List.mem_map.1 hpoint
  rcases mem_decimalChars hc with rfl | hdigit
  · decide
  · simp only [Char.isDigit, Bool.and_eq_true, decide_eq_true_eq] at hdigit
    rw [ge_iff_le, UInt32.le_iff_toNat_le, UInt32.le_iff_toNat_le] at hdigit
    have hzero : '0'.val.toNat = 0x30 := rfl
    have hnine : '9'.val.toNat = 0x39 := rfl
    rw [CodePoint.toNat, Char.toNat]
    omega

end Text

namespace Program

/-- The tokens of a source text hold nothing that separates tokens or statements. -/
theorem isToken_of_mem_ofSource {source : Text} {statement : Statement} {token : Text}
    (hstatement : statement ∈ ofSource source) (htoken : token ∈ Statement.tokens statement) :
    token.IsToken := by
  obtain ⟨hne, hblank⟩ := Text.ne_nil_and_not_blank_of_mem_words htoken
  refine ⟨hne, hblank, fun hmem => ?_⟩
  have hpoint := Text.mem_of_mem_words htoken hmem
  rw [ofSource, List.splitOn_eq_splitOnP] at hstatement
  simpa using (Text.mem_of_mem_splitOnP hstatement hpoint).2

end Program

end CounterLang
