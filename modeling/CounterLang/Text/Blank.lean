import CounterLang.Text.Basic
import CounterLang.Text.Fields

/-!
# Blanks

The characters that separate tokens and are trimmed from the ends of a statement: the white space of
Unicode together with the four information separators U+001C to U+001F.

## Main definitions

* `isBlank`: the class of characters; `CodePoint.isBlank`: the same of code points.
* `words`: the maximal blank-free pieces of a text, in order.
* `trim`: a text without the blanks at its two ends.

## Main statements

* `ne_nil_and_not_blank_of_mem_words`: a word has a code point, and none of them is blank.
* `words_trim`: the blanks at the two ends of a text make no difference to its words.
-/

namespace CounterLang

namespace Text

/-- The blanks: U+0009 to U+000D, U+001C to U+0020, U+0085, U+00A0, U+1680, U+2000 to U+200A,
U+2028, U+2029, U+202F, U+205F and U+3000. -/
def isBlank (c : Char) : Bool :=
  let n := c.toNat
  if n < 0x80 then (0x9 ≤ n && n ≤ 0xd) || (0x1c ≤ n && n ≤ 0x20)
  else
    n == 0x85 || n == 0xa0 || n == 0x1680 || (0x2000 ≤ n && n ≤ 0x200a) || n == 0x2028 ||
      n == 0x2029 || n == 0x202f || n == 0x205f || n == 0x3000

/-- Every ASCII white space character is a blank. -/
theorem isBlank_of_isWhitespace {c : Char} (h : c.isWhitespace = true) : isBlank c = true := by
  simp only [Char.isWhitespace, Bool.or_eq_true, decide_eq_true_eq] at h
  rcases h with ((rfl | rfl) | rfl) | rfl <;> decide

end Text

/-- Whether a code point is a blank. -/
def CodePoint.isBlank : CodePoint → Bool
  | scalar c => Text.isBlank c
  | surrogate _ => false

namespace Text

/-- The blank-free pieces of a text that hold at least one code point, in order. -/
def words (text : Text) : List Text :=
  (text.splitOnP CodePoint.isBlank).filter fun field => !field.isEmpty

/-- The text without the blanks at its two ends. -/
def trim (text : Text) : Text :=
  ((text.dropWhile CodePoint.isBlank).reverse.dropWhile CodePoint.isBlank).reverse

/-- A word has a code point, and none of its code points is blank. -/
theorem ne_nil_and_not_blank_of_mem_words {text word : Text} (h : word ∈ words text) :
    word ≠ [] ∧ ∀ p ∈ word, p.isBlank = false := by
  simp only [words, List.mem_filter, Bool.not_eq_true', List.isEmpty_eq_false_iff] at h
  exact ⟨h.2, fun p hp => (mem_of_mem_splitOnP h.1 hp).2⟩

theorem words_append_cons {p : CodePoint} (hp : p.isBlank = true) (before behind : Text) :
    words (before ++ p :: behind) = words before ++ words behind := by
  rw [words, List.splitOnP_append_cons before behind hp, List.filter_append]
  rfl

theorem words_dropWhile (text : Text) : words (text.dropWhile CodePoint.isBlank) = words text := by
  induction text with
  | nil => rfl
  | cons p text ih =>
    rw [List.dropWhile_cons]
    split
    · rename_i hp
      exact ih.trans (words_append_cons hp [] text).symm
    · rfl

theorem words_reverse_dropWhile (text : Text) :
    words (text.dropWhile CodePoint.isBlank).reverse = words text.reverse := by
  induction text with
  | nil => rfl
  | cons p text ih =>
    rw [List.dropWhile_cons]
    split
    · rename_i hp
      have hlast : words (text.reverse ++ [p]) = words text.reverse := by
        rw [words_append_cons hp]
        exact List.append_nil _
      rw [ih, List.reverse_cons, hlast]
    · rfl

/-- The blanks at the two ends of a text make no difference to its words. -/
@[simp] theorem words_trim (text : Text) : words (trim text) = words text := by
  rw [trim, words_reverse_dropWhile, List.reverse_reverse, words_dropWhile]

example : words "\t incr   x " = (["incr", "x"] : List Text) := by decide

example : trim "\n clear x  " = "clear x" := by decide

end Text

end CounterLang
