import CounterLang.Proofs.Digits
import CounterLang.Proofs.Names

/-!
# What a snapshot tells

A snapshot has no quotes and no escapes, and a name may hold every character that stands between
names and values, but for the blank. So a snapshot is taken apart at its blanks and at nothing else:
the pieces are by turns a name with its colon and a value with its comma.

## Main definitions

* `Entries.pieces`: names and values as the blanks of a snapshot separate them.
* `Store.IsBlankFree`: no name has a blank in it.

## Main statements

* `Entries.pieces_injective`: entries are determined by their pieces.
* `Entries.splitOn_listing`: a listing is taken apart into the pieces at its blanks.
* `Store.render_lossless`: a store is determined by its snapshot.
-/

namespace CounterLang

/-! ## Pieces -/

namespace Entries

variable {entries others : Entries Int}

/-- The character that stands behind every colon and every comma of a snapshot. -/
def blank : CodePoint := ' '

/-- An entry as a snapshot lists it. -/
def entryText (entry : Text × Int) : Text := entry.1 ++ ": " ++ Text.decimal entry.2

/-- The entries of a snapshot, without the braces. -/
def listing (entries : Entries Int) : Text := Text.join ", " (entries.map entryText)

/-- Each name with a colon behind it and each value with a comma behind it, in order. -/
def pieces (entries : Entries Int) : List Text :=
  entries.flatMap fun entry => [entry.1 ++ ":", Text.decimal entry.2 ++ ","]

theorem pieces_cons (entry : Text × Int) (rest : Entries Int) :
    pieces (entry :: rest) = (entry.1 ++ ":") :: (Text.decimal entry.2 ++ ",") :: pieces rest := rfl

theorem length_pieces (entries : Entries Int) : (pieces entries).length = 2 * entries.length := by
  induction entries with
  | nil => rfl
  | cons entry rest ih =>
    rw [pieces_cons, List.length_cons, List.length_cons, ih, List.length_cons]
    omega

/-- Entries are determined by their pieces. -/
theorem pieces_injective : Function.Injective pieces := by
  intro entries
  induction entries with
  | nil =>
    intro others h
    cases others with
    | nil => rfl
    | cons other more => cases h
  | cons entry rest ih =>
    intro others h
    cases others with
    | nil => cases h
    | cons other more =>
      rw [pieces_cons, pieces_cons, List.cons.injEq, List.cons.injEq] at h
      obtain ⟨hname, hvalue, hrest⟩ := h
      have hname := List.append_cancel_right hname
      have hvalue := Text.decimal_injective (List.append_cancel_right hvalue)
      rw [Prod.ext hname hvalue, ih hrest]

theorem blank_notMem_of_mem_pieces (h : ∀ entry ∈ entries, blank ∉ entry.1) :
    ∀ piece ∈ pieces entries, blank ∉ piece := by
  intro piece hpiece
  obtain ⟨entry, hentry, hpiece⟩ := List.mem_flatMap.1 hpiece
  simp only [List.mem_cons, List.not_mem_nil, or_false] at hpiece
  rcases hpiece with rfl | rfl
  · exact List.not_mem_append (h entry hentry) (by decide)
  · exact List.not_mem_append (Text.notMem_decimal (by decide) (by decide)) (by decide)

/-- A listing with one more comma at its end is its pieces with blanks between them. -/
theorem listing_append_comma (hne : entries ≠ []) :
    listing entries ++ "," = [blank].intercalate (pieces entries) := by
  have hcolon : (": " : Text) = ":" ++ [blank] := rfl
  have hcomma : (", " : Text) = "," ++ [blank] := rfl
  induction entries with
  | nil => exact absurd rfl hne
  | cons entry rest ih =>
    cases rest with
    | nil =>
      rw [listing, List.map_singleton, Text.join, List.intercalate_singleton, entryText, hcolon,
        pieces_cons, List.intercalate_cons_cons]
      simp [pieces]
    | cons next more =>
      have hjoin : listing (entry :: next :: more) =
          entryText entry ++ ", " ++ listing (next :: more) := List.intercalate_cons_cons
      have hpieces : [blank].intercalate (pieces (entry :: next :: more)) =
          (entry.1 ++ ":") ++ [blank] ++ ((Text.decimal entry.2 ++ ",") ++ [blank] ++
            [blank].intercalate (pieces (next :: more))) := by
        rw [pieces_cons, List.intercalate_cons_cons, pieces_cons, List.intercalate_cons_cons]
      rw [hjoin, List.append_assoc, ih (List.cons_ne_nil next more), hpieces, entryText, hcolon,
        hcomma]
      simp only [List.append_assoc]

/-- A listing is taken apart into the pieces at its blanks. -/
theorem splitOn_listing (hne : entries ≠ []) (h : ∀ entry ∈ entries, blank ∉ entry.1) :
    (listing entries ++ ",").splitOn blank = pieces entries := by
  rw [listing_append_comma hne]
  refine List.splitOn_intercalate blank (blank_notMem_of_mem_pieces h) ?_
  intro hnil
  have hlength := length_pieces entries
  have hpos := List.length_pos_iff.2 hne
  rw [hnil, List.length_nil] at hlength
  omega

theorem listing_eq_nil_iff : listing entries = [] ↔ entries = [] := by
  refine ⟨fun h => ?_, fun h => h ▸ rfl⟩
  by_contra hne
  obtain ⟨entry, rest, rfl⟩ := List.exists_cons_of_ne_nil hne
  have hlisting := listing_append_comma hne
  rw [h, pieces_cons, List.intercalate_cons_cons] at hlisting
  have hlength := congrArg List.length hlisting
  simp [Text.ofString, Text.ofChars] at hlength
  omega

/-- Entries whose names have no blank in them are determined by their listing. -/
theorem eq_of_listing_eq (hentries : ∀ entry ∈ entries, blank ∉ entry.1)
    (hothers : ∀ entry ∈ others, blank ∉ entry.1) (h : listing entries = listing others) :
    entries = others := by
  by_cases hne : entries = []
  · subst hne
    exact (listing_eq_nil_iff.1 h.symm).symm
  · have hne' : others ≠ [] := fun hnil => hne (listing_eq_nil_iff.1 (by rw [h, hnil]; rfl))
    apply pieces_injective
    rw [← splitOn_listing hne hentries, h, splitOn_listing hne' hothers]

end Entries

/-! ## Stores -/

namespace Store

/-- No name in the store has a blank in it. -/
def IsBlankFree (s : Store) : Prop := ∀ name ∈ s.names, ∀ point ∈ name, point.isBlank = false

instance (s : Store) : Decidable s.IsBlankFree :=
  inferInstanceAs (Decidable (∀ name ∈ s.names, ∀ point ∈ name, point.isBlank = false))

theorem IsBlankFree.notMem {s : Store} (h : s.IsBlankFree) :
    ∀ entry ∈ s.entries, Entries.blank ∉ entry.1 := by
  intro entry hentry hmem
  exact absurd (h entry.1 (List.mem_map_of_mem hentry) _ hmem) (by decide)

theorem render_eq (s : Store) : s.render = "\x7b" ++ Entries.listing s.entries ++ "\x7d" := rfl

theorem render_inj {s t : Store} :
    s.render = t.render ↔ Entries.listing s.entries = Entries.listing t.entries := by
  rw [render_eq, render_eq, List.append_assoc, List.append_assoc, List.append_right_inj,
    List.append_left_inj]

end Store

/-- A run only knows names without blanks. -/
theorem Machine.isBlankFree_of_reaches {program : Program} {o : Options} {m : Machine}
    (h : program.start.Reaches o m) : m.store.IsBlankFree :=
  fun name hname => ((drawn_of_reaches h).store name hname).isBlank_eq_false

/-- A store is determined by its snapshot, as long as there are no blanks in its names: two stores
that are shown alike have the same names with the same values in the same order. In particular only
the empty store is shown as a pair of braces. The names may hold all the other characters of a
snapshot. None of the names that a program comes to has a blank in it, at any moment of its run or
at the end. -/
theorem Store.render_lossless (s t : Store) (hs : s.IsBlankFree) (ht : t.IsBlankFree) :
    (s.render = t.render ↔ s = t) ∧ (s.render = "\x7b\x7d" ↔ s = ∅) ∧
    (∀ (program : Program) (o : Options) (m : Machine), program.start.Reaches o m →
      m.store.IsBlankFree) ∧
    ∀ (program : Program) (o : Options) (e : Ending), program.Ends o e →
      e.machine.store.IsBlankFree := by
  refine ⟨⟨fun h => ?_, fun h => h ▸ rfl⟩, ⟨fun h => ?_, fun h => h ▸ rfl⟩,
    fun _ _ _ h => Machine.isBlankFree_of_reaches h,
    fun _ _ _ h name hname => (h.drawn.store name hname).isBlank_eq_false⟩
  · exact Store.ext (Entries.eq_of_listing_eq hs.notMem ht.notMem (render_inj.1 h))
  · have hlisting : Entries.listing s.entries = Entries.listing (∅ : Store).entries :=
      render_inj.1 h
    exact Store.ext (Entries.listing_eq_nil_iff.1 hlisting)

namespace Store

/-- Has separators in its names. -/
def separated : Store := .ofList [("x:", 1), ("\x7by,", -2)]

/-- Has the same separators, one of them at another place. -/
def shifted : Store := .ofList [("x", 1), (":\x7by,", -2)]

/-- A colon that belongs to another name makes for another snapshot. -/
theorem render_lossless_separated :
    separated.IsBlankFree ∧ shifted.IsBlankFree ∧ separated.render = "\x7bx:: 1, \x7by,: -2\x7d" ∧
      separated.render ≠ shifted.render ∧ separated.render ≠ "\x7b\x7d" := by
  have hseparated : separated.IsBlankFree := by decide
  have hshifted : shifted.IsBlankFree := by decide
  obtain ⟨hrender, hempty, -⟩ := render_lossless separated shifted hseparated hshifted
  exact ⟨hseparated, hshifted, by decide, mt hrender.1 (by decide), mt hempty.1 (by decide)⟩

/-- With a blank in a name, two stores can be shown alike. -/
example : (ofList [("x: 1, y", 2)]).render = (ofList [("x", 1), ("y", 2)]).render := by decide

end Store

end CounterLang
