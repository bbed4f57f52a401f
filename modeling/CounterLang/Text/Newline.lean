/-!
# Line ends

Text files end their lines with a line feed, a carriage return, or the two together. Reading a file
as text turns each of them into one line feed.
-/

namespace CounterLang.Text

/-- The text with every line end written as one line feed. -/
def unifyNewlines : List Char → List Char
  | [] => []
  | '\r' :: '\n' :: rest => '\n' :: unifyNewlines rest
  | c :: rest => (if c = '\r' then '\n' else c) :: unifyNewlines rest

/-- No carriage return is left. -/
theorem carriageReturn_not_mem_unifyNewlines (text : List Char) : '\r' ∉ unifyNewlines text := by
  fun_induction unifyNewlines text with
  | case1 => simp
  | case2 rest ih => simp [ih]
  | case3 c rest _ ih =>
    by_cases h : c = '\r'
    · simp [h, ih]
    · simp [h, ih, Ne.symm h]

/-- A text without carriage returns is left as it is. -/
theorem unifyNewlines_eq_self {text : List Char} (h : '\r' ∉ text) : unifyNewlines text = text := by
  fun_induction unifyNewlines text with
  | case1 => rfl
  | case2 rest ih => simp at h
  | case3 c rest _ ih =>
    simp only [List.mem_cons, not_or] at h
    simp [ih h.2, Ne.symm h.1]

end CounterLang.Text
