import CounterLang.Text.Blank
import Mathlib.Data.List.TakeWhile

/-!
# Words replaced in a text

The first or the second word of a text can be replaced where it stands. The blanks around it and all
other words stay as they are.

## Main definitions

* `Text.firstWord`, `Text.behindWord`: the first word of a text, and what stands behind it.
* `Text.mapFirst`, `Text.mapSecond`: the text with one word replaced.

## Main statements

* `Text.words_eq`: the words of a text are its first word and those behind it.
* `Text.words_mapFirst`, `Text.words_mapSecond`: one word is replaced and no other.
-/

namespace CounterLang

namespace Text

/-- The blanks at the start of a text. -/
def indent (text : Text) : Text := text.takeWhile CodePoint.isBlank

/-- The first word of a text, which is empty if the text has none. -/
def firstWord (text : Text) : Text :=
  (text.dropWhile CodePoint.isBlank).takeWhile fun point => !point.isBlank

/-- What stands behind the first word of a text. -/
def behindWord (text : Text) : Text :=
  (text.dropWhile CodePoint.isBlank).dropWhile fun point => !point.isBlank

/-- The text with its first word replaced. -/
def mapFirst (f : Text → Text) (text : Text) : Text :=
  indent text ++ (f (firstWord text) ++ behindWord text)

/-- The text with its second word replaced. -/
def mapSecond (f : Text → Text) (text : Text) : Text :=
  indent text ++ (firstWord text ++ mapFirst f (behindWord text))

/-- What can stand behind a word: nothing, or a text that begins with a blank. -/
def IsCut (text : Text) : Prop := ∀ point ∈ text.head?, point.isBlank = true

variable {word more text : Text} {f : Text → Text}

theorem words_append (hne : word ≠ []) (hword : ∀ point ∈ word, point.isBlank = false)
    (hmore : IsCut more) : words (word ++ more) = word :: words more := by
  have hsingle : words word = [word] := by
    rw [words, List.splitOnP_eq_singleton hword]
    simpa using hne
  cases more with
  | nil => rw [List.append_nil, hsingle]; rfl
  | cons point more =>
    have hpoint : point.isBlank = true := hmore point rfl
    have hbehind : words (point :: more) = words more := words_append_cons hpoint [] more
    rw [words_append_cons hpoint, hsingle, hbehind]
    rfl

theorem isCut_behindWord (text : Text) : IsCut (behindWord text) := by
  intro point hpoint
  have hdrop := List.head?_dropWhile_not (fun point : CodePoint => !point.isBlank)
    (text.dropWhile CodePoint.isBlank)
  rw [behindWord] at hpoint
  rw [hpoint] at hdrop
  simpa using hdrop

theorem firstWord_append_behindWord (text : Text) :
    firstWord text ++ behindWord text = text.dropWhile CodePoint.isBlank :=
  List.takeWhile_append_dropWhile

theorem isBlank_of_mem_firstWord {point : CodePoint} (h : point ∈ firstWord text) :
    point.isBlank = false := by
  simpa using List.mem_takeWhile_imp h

theorem behindWord_eq_nil (h : firstWord text = []) : behindWord text = [] := by
  have hrest := firstWord_append_behindWord text
  rw [h, List.nil_append] at hrest
  cases hbehind : behindWord text with
  | nil => rfl
  | cons point more =>
    have hblank := isCut_behindWord text point (by rw [hbehind]; rfl)
    have hdrop := List.head?_dropWhile_not CodePoint.isBlank text
    rw [← hrest, hbehind] at hdrop
    exact absurd hblank (by simpa using hdrop)

/-- The words of a text are its first word, if it has one, and those behind it. -/
theorem words_eq (text : Text) :
    words text = if firstWord text = [] then [] else firstWord text :: words (behindWord text) := by
  rw [← words_dropWhile, ← firstWord_append_behindWord]
  split
  · rename_i hnil
    rw [hnil, behindWord_eq_nil hnil]
    rfl
  · rename_i hne
    exact words_append hne (fun point => isBlank_of_mem_firstWord) (isCut_behindWord text)

theorem words_append_of_isBlank {gap : Text} (h : ∀ point ∈ gap, point.isBlank = true)
    (more : Text) : words (gap ++ more) = words more := by
  rw [← words_dropWhile, List.dropWhile_append_of_pos h, words_dropWhile]

theorem words_indent_append (text more : Text) : words (indent text ++ more) = words more :=
  words_append_of_isBlank (fun _ hpoint => List.mem_takeWhile_imp hpoint) more

section Map

variable (hnil : f [] = []) (hne : ∀ word, word ≠ [] → f word ≠ [])
  (hword : ∀ word, (∀ point ∈ word, point.isBlank = false) →
    ∀ point ∈ f word, point.isBlank = false)

include hnil

theorem isCut_mapFirst (h : IsCut text) : IsCut (mapFirst f text) := by
  cases text with
  | nil => simpa [mapFirst, indent, firstWord, behindWord, hnil] using h
  | cons point more =>
    have hpoint : point.isBlank = true := h point rfl
    rw [mapFirst, indent, List.takeWhile_cons_of_pos hpoint, List.cons_append]
    exact h

include hne hword

theorem words_mapFirst (text : Text) :
    words (mapFirst f text) =
      match words text with
      | [] => []
      | word :: more => f word :: more := by
  rw [mapFirst, words_indent_append, words_eq text]
  by_cases hfirst : firstWord text = []
  · rw [hfirst, behindWord_eq_nil hfirst, hnil]
    rfl
  · rw [if_neg hfirst]
    exact words_append (hne _ hfirst) (hword _ fun point => isBlank_of_mem_firstWord)
      (isCut_behindWord text)

theorem words_mapSecond (text : Text) :
    words (mapSecond f text) =
      match words text with
      | first :: second :: more => first :: f second :: more
      | other => other := by
  rw [mapSecond, words_indent_append, words_eq text]
  by_cases hfirst : firstWord text = []
  · have hbehind : mapFirst f [] = [] := by simp [mapFirst, indent, firstWord, behindWord, hnil]
    rw [hfirst, behindWord_eq_nil hfirst, hbehind]
    rfl
  · rw [if_neg hfirst, words_append hfirst (fun point => isBlank_of_mem_firstWord)
      (isCut_mapFirst hnil (isCut_behindWord text)), words_mapFirst hnil hne hword]
    cases words (behindWord text) <;> rfl

end Map

end Text

end CounterLang
