import CounterLang.Text.Basic

/-!
# Named entries

Values under names, in the order in which the names first came up. Stores and the objects of JSON
both keep their values so.

## Main definitions

* `Entries`: names with values.
* `Entries.assign`: one name set to a value.
* `Entries.ofList`: the entries of a list in which names may be repeated.

## Main statements

* `Entries.map_fst_assign`: a new name goes to the end, a known name keeps its place.
* `Entries.lookup_assign`: the name has the value, and all others keep theirs.
* `Entries.ofList_eq_self`: where no name is repeated, no entry is lost.
-/

namespace CounterLang

/-- Values under names, in order. -/
abbrev Entries (α : Type) := List (Text × α)

namespace Entries

variable {α : Type}

/-- The entries with `name` set to `value`: in its place if it has one, at the end otherwise. -/
def assign (name : Text) (value : α) : Entries α → Entries α
  | [] => [(name, value)]
  | entry :: rest =>
    if entry.1 = name then (name, value) :: rest else entry :: assign name value rest

/-- The entries of a list. A repeated name keeps its first place and takes its last value. -/
def ofList (list : List (Text × α)) : Entries α :=
  list.foldl (fun entries entry => entries.assign entry.1 entry.2) []

theorem map_fst_assign (name : Text) (value : α) (entries : Entries α) :
    (entries.assign name value).map Prod.fst =
      if name ∈ entries.map Prod.fst then entries.map Prod.fst
      else entries.map Prod.fst ++ [name] := by
  induction entries with
  | nil => simp [assign]
  | cons entry rest ih =>
    by_cases h : entry.1 = name
    · simp [assign, h]
    · simp only [assign, h, if_false, List.map_cons, ih, List.mem_cons, Ne.symm h, false_or]
      split <;> simp

theorem lookup_assign (name other : Text) (value : α) (entries : Entries α) :
    (entries.assign name value).lookup other =
      if other = name then some value else entries.lookup other := by
  induction entries with
  | nil =>
    by_cases h : other = name
    · simp [assign, h]
    · have hb : (other == name) = false := by simpa using h
      simp [assign, List.lookup_cons, hb, h]
  | cons entry rest ih =>
    obtain ⟨key, v⟩ := entry
    by_cases hk : key = name
    · subst hk
      by_cases ho : other = key
      · simp [assign, ho]
      · have hb : (other == key) = false := by simpa using ho
        simp [assign, List.lookup_cons, hb, ho]
    · by_cases ho : other = key
      · subst ho
        simp [assign, hk]
      · have hb : (other == key) = false := by simpa using ho
        simp [assign, List.lookup_cons, hk, hb, ih]

/-- Setting a name repeats none. -/
theorem nodup_assign {name : Text} {value : α} {entries : Entries α}
    (h : (entries.map Prod.fst).Nodup) : ((entries.assign name value).map Prod.fst).Nodup := by
  rw [map_fst_assign]
  split
  · exact h
  · rename_i hn
    rw [List.nodup_append]
    exact ⟨h, by simp, by rintro a ha b hb rfl; simp_all⟩

/-- The entries of a list repeat no name. -/
theorem nodup_ofList (list : List (Text × α)) : ((ofList list).map Prod.fst).Nodup := by
  suffices h : ∀ entries : Entries α, (entries.map Prod.fst).Nodup →
      ((list.foldl (fun entries entry => entries.assign entry.1 entry.2) entries).map
        Prod.fst).Nodup from h [] List.nodup_nil
  induction list with
  | nil => exact fun entries h => h
  | cons entry list ih => exact fun entries h => ih _ (nodup_assign h)

theorem assign_of_notMem {name : Text} (value : α) {entries : Entries α}
    (h : name ∉ entries.map Prod.fst) : entries.assign name value = entries ++ [(name, value)] := by
  induction entries with
  | nil => rfl
  | cons entry rest ih =>
    simp only [List.map_cons, List.mem_cons, not_or] at h
    rw [assign, if_neg (Ne.symm h.1), ih h.2]
    rfl

/-- A list that repeats no name is the list of its entries. -/
theorem ofList_eq_self {list : List (Text × α)} (h : (list.map Prod.fst).Nodup) :
    ofList list = list := by
  suffices hall : ∀ entries : Entries α, ((entries ++ list).map Prod.fst).Nodup →
      list.foldl (fun entries entry => entries.assign entry.1 entry.2) entries =
        entries ++ list from hall [] h
  induction list with
  | nil => exact fun entries _ => (List.append_nil entries).symm
  | cons entry list ih =>
    intro entries hentries
    have hnew : entry.1 ∉ entries.map Prod.fst := by
      intro hmem
      rw [List.map_append, List.nodup_append] at hentries
      exact hentries.2.2 _ hmem _ List.mem_cons_self rfl
    have hlist : (list.map Prod.fst).Nodup := (List.nodup_cons.1 h).2
    rw [List.append_cons] at hentries ⊢
    rw [List.foldl_cons, assign_of_notMem entry.2 hnew]
    exact ih hlist _ hentries

end Entries

end CounterLang
