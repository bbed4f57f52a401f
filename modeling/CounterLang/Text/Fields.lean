/-!
# Cutting text into fields

Programs are cut into statements at a delimiter, and statements into tokens at blanks. Both use
`List.splitOnP`; this module adds what is needed of it beside the laws that come with it.

## Main statements

* `length_splitOnP`: there is one field more than there are separators.
* `mem_of_mem_splitOnP`: a field holds members of the text, and none of them separates.
-/

namespace CounterLang.Text

variable {α : Type} {p : α → Bool} {c : α} {text field : List α}

/-- There is one field more than there are separators. -/
theorem length_splitOnP : (text.splitOnP p).length = text.countP p + 1 := by
  induction text with
  | nil => rfl
  | cons c text ih =>
    cases h : p c <;> simp [List.splitOnP_cons_eq_if_modifyHead, h, ih]

/-- A field holds only members of the text, and none of them separates. -/
theorem mem_of_mem_splitOnP (hf : field ∈ text.splitOnP p) (hc : c ∈ field) :
    c ∈ text ∧ p c = false := by
  induction text generalizing field with
  | nil =>
    obtain rfl : field = [] := by simpa using hf
    cases hc
  | cons d text ih =>
    rw [List.splitOnP_cons_eq_if_modifyHead] at hf
    split at hf
    · rcases List.mem_cons.1 hf with rfl | hf
      · cases hc
      · exact (ih hf hc).imp_left (List.mem_cons_of_mem d)
    · rename_i hd
      obtain ⟨first, rest, hs⟩ := List.exists_cons_of_ne_nil (List.splitOnP_ne_nil p text)
      rw [hs, List.modifyHead_cons] at hf
      rw [hs] at ih
      rcases List.mem_cons.1 hf with rfl | hf
      · rcases List.mem_cons.1 hc with rfl | hc
        · exact ⟨List.mem_cons_self, by simpa using hd⟩
        · exact (ih List.mem_cons_self hc).imp_left (List.mem_cons_of_mem d)
      · exact (ih (List.mem_cons_of_mem first hf) hc).imp_left (List.mem_cons_of_mem d)

end CounterLang.Text
