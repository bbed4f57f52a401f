import CounterLang.Proofs.Digits

/-!
# JSON in transit

What is written in ASCII is read as what it was. A code point past U+FFFF is written as two
surrogates and read as one code point again, so a text must not hold surrogates of its own: two of
them that make a pair would come back as one character.

## Main definitions

* `Json.Spells`: reading what is written for a code point gives the code point.
* `Json.Portable`: the values that are read back.

## Main statements

* `Json.readText_renderText`: a text is read back from its literal.
* `Json.read_toText`: a value is read back from what is written for it.
* `Json.Portable.isPlain_toText`: what is written is within one line of ASCII.
-/

namespace CounterLang

namespace CodePoint

variable {point : CodePoint}

theorem toNat_lt (point : CodePoint) : point.toNat < 0x110000 := by
  cases point with
  | scalar c =>
    have hc : c.toNat.isValidChar := c.valid
    simp only [Nat.isValidChar] at hc
    rw [toNat]
    omega
  | surrogate offset =>
    rw [toNat]
    omega

theorem toNat_ofUnit (unit : Fin 0x10000) : (ofUnit unit).toNat = unit := by
  rw [ofUnit]
  split
  · simp only [toNat]
    omega
  · rename_i h
    have hvalid : unit.val.isValidChar := by
      simp only [Nat.isValidChar]
      omega
    rw [toNat, Char.ofNat, dif_pos hvalid]
    rfl

end CodePoint

namespace Json

variable {text rest : Text} {point : CodePoint} {pieces more : List Piece}

/-! ## Code points -/

theorem joinPieces_cons {piece : Piece} (h : piece.point.isSurrogate = false) :
    joinPieces (piece :: more) = piece.point :: joinPieces more := by
  cases more with
  | nil => rfl
  | cons low more =>
    have hpair : piece.point.pair? low.point = none := by
      rw [CodePoint.pair?, if_neg]
      rintro ⟨hlow, hhigh, -⟩
      cases hp : piece.point with
      | scalar c =>
        rw [hp, CodePoint.toNat] at hlow hhigh
        have hc : c.toNat.isValidChar := c.valid
        simp only [Nat.isValidChar] at hc
        omega
      | surrogate => simp [hp, CodePoint.isSurrogate] at h
    rw [joinPieces, hpair]
    simp

/-- Reading what is written for a code point gives the pieces, and these make up the code point. -/
structure Spells (written : Text) (point : CodePoint) (pieces : List Piece) : Prop where
  read : ∀ opening before next rest, readPieces opening before (written ++ next :: rest) =
    readPieces opening (pieces.reverse ++ before) (next :: rest)
  join : ∀ more, joinPieces (pieces ++ more) = point :: joinPieces more

theorem spells_letter (letter : CodePoint) {c : Char} (h : simpleEscape? letter = some c) :
    Spells [.scalar '\\', letter] c [{ point := c }] where
  read opening before next rest := by
    have hletter : letter ≠ .scalar 'u' := by
      rintro rfl
      cases h
    rw [List.cons_append, List.cons_append, List.nil_append, readPieces, h]
    · rfl
    · exact fun _ _ _ _ _ _ hu _ => hletter hu
    · exact hletter
  join _ := joinPieces_cons rfl

theorem spells_self (hpoint : point.isSurrogate = false) (hquote : point ≠ .scalar '"')
    (hslash : point ≠ .scalar '\\') (hprints : 0x20 ≤ point.toNat) :
    Spells [point] point [{ point }] where
  read opening before next rest := by
    rw [List.singleton_append, readPieces, if_neg (Nat.not_lt.2 hprints)]
    · rfl
    · exact hquote
    all_goals
      intros
      exact hslash ‹_›
  join _ := joinPieces_cons hpoint

theorem readPieces_escapeUnit (unit : Fin 0x10000) (opening : Text) (before : List Piece)
    (next : CodePoint) (rest : Text) :
    readPieces opening before (escapeUnit unit ++ next :: rest) =
      readPieces opening (⟨.ofUnit unit, true⟩ :: before) (next :: rest) := by
  obtain ⟨a, b, c, d, hdigits, hpoint⟩ := exists_hexPoint?_hexadecimal unit
  have hescape : escapeUnit unit = [.scalar '\\', .scalar 'u', a, b, c, d] := by
    rw [← hdigits]
    rfl
  rw [hescape]
  simp only [List.cons_append, List.nil_append]
  rw [readPieces, hpoint]

theorem spells_unit (hpoint : point.isSurrogate = false) (h : point.toNat < 0x10000) :
    Spells (escapeUnit point.toNat) point [⟨point, true⟩] where
  read opening before next rest := by
    have hunit : CodePoint.ofUnit ⟨point.toNat, h⟩ = point := by
      cases point with
      | scalar c =>
        have hc : c.toNat.isValidChar := c.valid
        simp only [Nat.isValidChar] at hc
        rw [CodePoint.ofUnit, dif_neg (by simp only [CodePoint.toNat]; omega)]
        simp [CodePoint.toNat]
      | surrogate => cases hpoint
    have hread := readPieces_escapeUnit ⟨point.toNat, h⟩ opening before next rest
    rw [hunit] at hread
    exact hread
  join _ := joinPieces_cons hpoint

theorem surrogates_lt {n : Nat} (h : n < 0x110000) :
    (surrogates n).1 < 0x10000 ∧ (surrogates n).2 < 0x10000 := by
  simp only [surrogates]
  omega

theorem spells_pair {c : Char} (h : 0x10000 ≤ c.toNat) :
    ∃ high low, Spells (escapeUnit (surrogates c.toNat).1 ++ escapeUnit (surrogates c.toNat).2) c
      [⟨high, true⟩, ⟨low, true⟩] := by
  have hlt : c.toNat < 0x110000 := CodePoint.toNat_lt c
  obtain ⟨hhigh, hlow⟩ := surrogates_lt hlt
  refine ⟨.ofUnit ⟨_, hhigh⟩, .ofUnit ⟨_, hlow⟩, ?_, ?_⟩
  · intro opening before next rest
    obtain ⟨a, rest', hsecond⟩ : ∃ a rest', escapeUnit (surrogates c.toNat).2 ++ next :: rest =
        a :: rest' := ⟨_, _, rfl⟩
    rw [List.append_assoc, hsecond, readPieces_escapeUnit ⟨_, hhigh⟩, ← hsecond,
      readPieces_escapeUnit ⟨_, hlow⟩]
    rfl
  · intro more
    have hpair : CodePoint.pair? (.ofUnit ⟨_, hhigh⟩) (.ofUnit ⟨_, hlow⟩) = some c := by
      have hnumber : 0x10000 + ((surrogates c.toNat).1 - 0xd800) * 0x400 +
          ((surrogates c.toNat).2 - 0xdc00) = c.toNat := by
        simp only [surrogates]
        omega
      rw [CodePoint.pair?, CodePoint.toNat_ofUnit, CodePoint.toNat_ofUnit, hnumber, if_pos]
      · simp
      · simp only [surrogates]
        omega
    simp only [List.cons_append, List.nil_append, joinPieces, Bool.and_self, if_true, hpair]

/-- A code point that is no surrogate is read back from what is written for it. -/
theorem exists_spells_renderPoint (h : point.isSurrogate = false) :
    ∃ pieces, Spells (renderPoint .ascii point) point pieces := by
  simp only [renderPoint]
  split_ifs with hquote hslash hline hreturn htab hbell hfeed
  · subst hquote
    exact ⟨_, spells_letter (.scalar '"') rfl⟩
  · subst hslash
    exact ⟨_, spells_letter (.scalar '\\') rfl⟩
  · subst hline
    exact ⟨_, spells_letter (.scalar 'n') rfl⟩
  · subst hreturn
    exact ⟨_, spells_letter (.scalar 'r') rfl⟩
  · subst htab
    exact ⟨_, spells_letter (.scalar 't') rfl⟩
  · subst hbell
    exact ⟨_, spells_letter (.scalar 'b') rfl⟩
  · subst hfeed
    exact ⟨_, spells_letter (.scalar 'f') rfl⟩
  · simp only [Layout.ascii]
    split
    · rename_i hascii
      simp only [Bool.and_eq_true, decide_eq_true_eq] at hascii
      exact ⟨_, spells_self h hquote hslash hascii.1⟩
    · rw [escapePoint]
      split
      · exact ⟨_, spells_unit h ‹_›⟩
      · cases point with
        | scalar c =>
          obtain ⟨high, low, hpair⟩ := spells_pair (c := c) (Nat.le_of_not_lt ‹_›)
          exact ⟨_, hpair⟩
        | surrogate => cases h

/-! ## Texts -/

theorem exists_readPieces_render (h : text.IsScalar) :
    ∃ pieces, joinPieces pieces = text ∧ ∀ opening before rest,
      readPieces opening before (text.flatMap (renderPoint .ascii) ++ .scalar '"' :: rest) =
        .ok (before.reverse ++ pieces, rest) := by
  induction text with
  | nil =>
    refine ⟨[], rfl, ?_⟩
    intro opening before rest
    rw [List.append_nil, List.flatMap_nil, List.nil_append, readPieces]
  | cons point text ih =>
    obtain ⟨first, hfirst⟩ := exists_spells_renderPoint (h point List.mem_cons_self)
    obtain ⟨more, hjoin, hread⟩ := ih fun p hp => h p (List.mem_cons_of_mem point hp)
    refine ⟨first ++ more, by rw [hfirst.join, hjoin], ?_⟩
    intro opening before rest
    -- The closing quote is behind the text at the latest, so there is a code point to go on with.
    obtain ⟨next, tail, htail⟩ : ∃ next tail,
        text.flatMap (renderPoint .ascii) ++ .scalar '"' :: rest = next :: tail :=
      List.exists_cons_of_ne_nil (by simp)
    rw [List.flatMap_cons, List.append_assoc, htail, hfirst.read, ← htail, hread]
    simp

/-- A text is read back from its literal. -/
theorem readText_renderText (h : text.IsScalar) (rest : Text) :
    readText (renderText .ascii text ++ rest) = .ok (text, rest) := by
  obtain ⟨pieces, hjoin, hread⟩ := exists_readPieces_render h
  have hdrop : (renderText .ascii text ++ rest).drop 1 =
      text.flatMap (renderPoint .ascii) ++ .scalar '"' :: rest := by
    rw [renderText, List.cons_append, List.drop_one, List.tail_cons, List.append_assoc]
    rfl
  rw [readText, hdrop, hread, List.reverse_nil, List.nil_append]
  simp only [hjoin]

/-! ## Values -/

/-- A value that is read as what it was written: its integers can be written, there are no
surrogates in its texts, and no object repeats a name. -/
inductive Portable : Json → Prop where
  | null : Portable null
  | bool (value : Bool) : Portable (bool value)
  | int {value : Int} (h : Numeral.isWritable value) : Portable (int value)
  | str {text : Text} (h : text.IsScalar) : Portable (str text)
  | arr {items : List Json} (h : ∀ item ∈ items, Portable item) : Portable (arr items)
  | obj {members : List (Text × Json)} (hnames : ∀ member ∈ members, member.1.IsScalar)
      (hvalues : ∀ member ∈ members, Portable member.2) (hnodup : (members.map Prod.fst).Nodup) :
      Portable (obj members)

variable {json : Json} {items : List Json} {members known : List (Text × Json)} {fuel : Nat}

/-- An object with the given names is portable if its values are. -/
theorem Portable.of_names (names : List Text) (hnames : members.map Prod.fst = names)
    (hnodup : names.Nodup) (hscalar : ∀ name ∈ names, name.IsScalar)
    (hvalues : ∀ member ∈ members, Portable member.2) : Portable (Json.obj members) := by
  subst hnames
  exact .obj (fun member hmember => hscalar member.1 (List.mem_map_of_mem hmember)) hvalues hnodup

/-- A member of an object as it is written. -/
def memberText (member : Text × Json) : Text :=
  renderText .ascii member.1 ++ ": " ++ member.2.toText

theorem toText_null : null.toText = "null" := by rw [toText, render]

theorem toText_bool (value : Bool) :
    (bool value).toText = if value then ("true" : Text) else "false" := by rw [toText, render]

theorem toText_int (value : Int) : (int value).toText = Text.decimal value := by
  rw [toText, render]

theorem toText_str (text : Text) : (str text).toText = renderText .ascii text := by
  rw [toText, render]

theorem toText_arr (items : List Json) :
    (arr items).toText = "[" ++ Text.join ", " (items.map toText) ++ "]" := by
  rw [toText, render]
  rfl

theorem toText_obj (members : List (Text × Json)) :
    (obj members).toText = "\x7b" ++ Text.join ", " (members.map memberText) ++ "\x7d" := by
  rw [toText, render]
  rfl

theorem toText_arr_append (items : List Json) (rest : Text) : (arr items).toText ++ rest =
    .scalar '[' :: (Text.join ", " (items.map toText) ++ .scalar ']' :: rest) := by
  rw [toText_arr, List.append_assoc, List.append_assoc]
  rfl

theorem toText_obj_append (members : List (Text × Json)) (rest : Text) :
    (obj members).toText ++ rest =
      .scalar '\x7b' :: (Text.join ", " (members.map memberText) ++ .scalar '\x7d' :: rest) := by
  rw [toText_obj, List.append_assoc, List.append_assoc]
  rfl

/-! ### How a value starts -/

/-- An integer starts with a digit, or with a minus sign and a digit. -/
theorem exists_decimal (value : Int) : ∃ c tail, Text.decimal value = .scalar c :: tail ∧
    (c.isDigit ∨ c = '-' ∧ ∃ d tail', tail = .scalar d :: tail' ∧ d.isDigit) := by
  obtain ⟨c, digits, hdigits, hc⟩ := exists_cons_toDigits value.natAbs
  by_cases hneg : value < 0
  · refine ⟨'-', Text.ofChars (c :: digits), ?_, .inr ⟨rfl, c, _, rfl, hc⟩⟩
    simp [Text.decimal, Text.decimalChars, hneg, hdigits, Text.ofChars]
  · refine ⟨c, Text.ofChars digits, ?_, .inl hc⟩
    simp [Text.decimal, Text.decimalChars, hneg, hdigits, Text.ofChars]

/-- The characters that a written value can start with. -/
def startsValue (c : Char) : Bool := c.isDigit || ['-', 'n', 't', 'f', '"', '[', '\x7b'].contains c

theorem exists_startsValue (h : Portable json) :
    ∃ c rest, json.toText = .scalar c :: rest ∧ startsValue c := by
  cases h with
  | null => exact ⟨'n', _, toText_null, by decide⟩
  | bool value =>
    cases value with
    | false => exact ⟨'f', _, toText_bool false, by decide⟩
    | true => exact ⟨'t', _, toText_bool true, by decide⟩
  | @int value =>
    obtain ⟨c, tail, htext, hc | ⟨rfl, -⟩⟩ := exists_decimal value
    · exact ⟨c, tail, (toText_int value).trans htext, by simp [startsValue, hc]⟩
    · exact ⟨'-', tail, (toText_int value).trans htext, by decide⟩
  | @str text => exact ⟨'"', _, toText_str text, by decide⟩
  | @arr items => exact ⟨'[', _, toText_arr items, by decide⟩
  | @obj members => exact ⟨'\x7b', _, toText_obj members, by decide⟩

theorem isSpace_of_startsValue {c : Char} (h : startsValue c) : isSpace (.scalar c) = false := by
  rw [isSpace]
  by_contra hspace
  simp only [Bool.not_eq_false, Bool.or_eq_true, beq_iff_eq] at hspace
  rcases hspace with ((rfl | rfl) | rfl) | rfl <;> exact absurd h (by decide)

/-- There is no space at the start of the text, whatever is behind it. -/
def Unspaced (text : Text) : Prop := ∀ rest, skipSpace (text ++ rest) = text ++ rest

theorem skipSpace_cons {point : CodePoint} (h : isSpace point = false) (rest : Text) :
    skipSpace (point :: rest) = point :: rest := by
  rw [skipSpace, List.dropWhile_cons, h]
  rfl

theorem unspaced_toText (h : Portable json) : Unspaced json.toText := by
  obtain ⟨c, tail, htext, hc⟩ := exists_startsValue h
  intro rest
  rw [htext, List.cons_append]
  exact skipSpace_cons (isSpace_of_startsValue hc) _

/-- A value takes fuel to be read. -/
theorem exists_fuel (h : Portable json) (hfuel : json.toText.length ≤ fuel) :
    ∃ f, fuel = f + 1 := by
  obtain ⟨c, tail, htext, -⟩ := exists_startsValue h
  rw [htext, List.length_cons] at hfuel
  exact ⟨fuel - 1, by omega⟩

/-! ### Reading values -/

/-- The value is read back from what is written for it, whatever comes behind that does not go on
with a number. -/
def ReadBack (json : Json) : Prop := ∀ fuel rest, json.toText.length ≤ fuel →
  numberChars rest = [] → readValue fuel (json.toText ++ rest) = .ok (json, rest)

/-- No word is mistaken for an integer. -/
theorem find?_wordValues_decimal (value : Int) :
    (wordValues.find? fun word => word.1.isPrefixOf (Text.decimal value ++ rest)) = none := by
  obtain ⟨c, tail, htext, hc⟩ := exists_decimal value
  have hwords : ∀ word ∈ wordValues, ∃ c d tail, word.1 = .scalar c :: .scalar d :: tail ∧
      c.isDigit = false ∧ d.isDigit = false := by
    intro word hword
    simp only [wordValues, List.mem_cons, List.not_mem_nil, or_false] at hword
    rcases hword with rfl | rfl | rfl | rfl | rfl | rfl <;>
      exact ⟨_, _, _, rfl, by decide, by decide⟩
  rw [List.find?_eq_none]
  intro word hword hprefix
  obtain ⟨c', d', tail', hword, hc', hd'⟩ := hwords word hword
  rw [hword, htext, List.cons_append, List.isPrefixOf_iff_prefix, List.cons_prefix_cons] at hprefix
  obtain ⟨⟨⟩, hprefix⟩ := hprefix
  rcases hc with hc | ⟨-, d, tail, rfl, hd⟩
  · simp [hc] at hc'
  · rw [List.cons_append, List.cons_prefix_cons] at hprefix
    obtain ⟨⟨⟩, -⟩ := hprefix
    simp [hd] at hd'

theorem readBack_int {value : Int} (h : Numeral.isWritable value) : (int value).ReadBack := by
  intro fuel rest hfuel hrest
  obtain ⟨c, tail, hcons, hc⟩ := exists_decimal value
  have hstart : ∀ d rest', Text.decimal value ++ rest = .scalar d :: rest' →
      d.isDigit ∨ d = '-' := by
    intro d rest' hd
    rw [hcons, List.cons_append] at hd
    cases hd
    exact hc.imp_right And.left
  obtain ⟨fuel, rfl⟩ := exists_fuel (.int h) hfuel
  rw [toText_int, readValue, readScalar, find?_wordValues_decimal]
  · exact readNumber_decimal h hrest
  all_goals
    intro rest' hquote
    exact absurd (hstart _ rest' hquote) (by decide)

theorem readBack_str (h : text.IsScalar) : (str text).ReadBack := by
  intro fuel rest hfuel hrest
  obtain ⟨fuel, rfl⟩ := exists_fuel (.str h) hfuel
  rw [toText_str, renderText, List.cons_append, readValue, ← List.cons_append, ← renderText,
    readText_renderText h _]

/-! ### Lists and objects -/

theorem join_cons_cons (separator first second : Text) (more : List Text) :
    Text.join separator (first :: second :: more) =
      first ++ (separator ++ Text.join separator (second :: more)) :=
  List.intercalate_cons_cons.trans (List.append_assoc ..)

theorem exists_join_cons (separator first : Text) (more : List Text) :
    ∃ tail, Text.join separator (first :: more) = first ++ tail := by
  cases more with
  | nil => exact ⟨[], by simp [Text.join]⟩
  | cons second more => exact ⟨_, join_cons_cons separator first second more⟩

section Sequence

variable {α : Type} {written : α → Text} {parts : List α}

theorem unspaced_join (hne : parts ≠ []) (hstart : ∀ x ∈ parts, Unspaced (written x)) :
    Unspaced (Text.join ", " (parts.map written)) := by
  obtain ⟨first, more, rfl⟩ := List.exists_cons_of_ne_nil hne
  obtain ⟨tail, htail⟩ := exists_join_cons ", " (written first) (more.map written)
  intro rest
  rw [List.map_cons, htail, List.append_assoc]
  exact hstart first List.mem_cons_self _

/-- A reader of the parts of a list or an object that takes a part and the comma behind it, or the
closing bracket behind it, takes all the parts. -/
theorem read_join (next : Nat → List α → Text → Reading Json) (close : CodePoint)
    (make : List α → Json) (hne : parts ≠ [])
    (hstart : ∀ x ∈ parts, Unspaced (written x))
    (hcomma : ∀ x ∈ parts, ∀ fuel before rest, (written x).length ≤ fuel →
      next (fuel + 1) before (written x ++ (", " ++ rest)) =
        next fuel (x :: before) (skipSpace rest))
    (hclose : ∀ x ∈ parts, ∀ fuel before, (written x).length ≤ fuel →
      next (fuel + 1) before (written x ++ close :: rest) =
        .ok (make (x :: before).reverse, rest))
    (before : List α) (hfuel : (Text.join ", " (parts.map written)).length < fuel) :
    next fuel before (Text.join ", " (parts.map written) ++ close :: rest) =
      .ok (make (before.reverse ++ parts), rest) := by
  -- Each part takes one unit of fuel, and the text of the parts that are left is longer than that.
  induction parts generalizing fuel before with
  | nil => exact absurd rfl hne
  | cons x parts ih =>
    obtain ⟨fuel, rfl⟩ : ∃ f, fuel = f + 1 := ⟨fuel - 1, by omega⟩
    have hx := List.mem_cons_self (a := x) (l := parts)
    have hmore : ∀ y ∈ parts, y ∈ x :: parts := fun y hy => List.mem_cons_of_mem x hy
    cases parts with
    | nil =>
      simp only [List.map_cons, List.map_nil, Text.join, List.intercalate_singleton] at hfuel ⊢
      rw [hclose x hx fuel before (by omega)]
      simp
    | cons y parts =>
      have hjoin : Text.join ", " ((x :: y :: parts).map written) =
          written x ++ (", " ++ Text.join ", " ((y :: parts).map written)) := join_cons_cons ..
      have hlength : List.length (", " : Text) = 2 := rfl
      rw [hjoin] at hfuel ⊢
      simp only [List.length_append, hlength] at hfuel
      rw [List.append_assoc, List.append_assoc, hcomma x hx fuel before _ (by omega),
        unspaced_join (by simp) (fun z hz => hstart z (hmore z hz)),
        ih (by simp) (fun z hz => hstart z (hmore z hz)) (fun z hz => hcomma z (hmore z hz))
          (fun z hz => hclose z (hmore z hz)) (x :: before) (by omega)]
      simp

end Sequence

theorem readValue_arr (h : ∀ tail, skipSpace rest ≠ .scalar ']' :: tail) :
    readValue (fuel + 1) (.scalar '[' :: rest) = readItems fuel [] (skipSpace rest) := by
  rw [readValue]
  split
  · exact absurd ‹_› (h _)
  · rfl

theorem readValue_obj (h : ∀ tail, skipSpace rest ≠ .scalar '\x7d' :: tail) :
    readValue (fuel + 1) (.scalar '\x7b' :: rest) = readMembers fuel [] (skipSpace rest) := by
  rw [readValue]
  split
  · exact absurd ‹_› (h _)
  · rfl

theorem readBack_arr (hportable : ∀ item ∈ items, Portable item)
    (hread : ∀ item ∈ items, item.ReadBack) : (arr items).ReadBack := by
  intro fuel rest hfuel hrest
  have hstart : ∀ item ∈ items, Unspaced item.toText :=
    fun item hitem => unspaced_toText (hportable item hitem)
  have hlength := congrArg List.length (toText_arr_append items [])
  simp only [List.length_append, List.length_cons, List.length_nil] at hlength
  obtain ⟨fuel, rfl⟩ : ∃ f, fuel = f + 1 := ⟨fuel - 1, by omega⟩
  rw [toText_arr_append]
  cases items with
  | nil => rfl
  | cons item items =>
    have hskip := unspaced_join (List.cons_ne_nil item items) hstart (.scalar ']' :: rest)
    rw [readValue_arr, hskip]
    · refine read_join readItems (.scalar ']') arr (by simp) hstart ?_ ?_ [] (by omega)
      · intro item hitem fuel before rest hfuel
        rw [readItems, hread item hitem fuel _ hfuel rfl]
        rfl
      · intro item hitem fuel before hfuel
        rw [readItems, hread item hitem fuel _ hfuel rfl]
        rfl
    · obtain ⟨c, tail, htext, hc⟩ := exists_startsValue (hportable item List.mem_cons_self)
      obtain ⟨tail', htail⟩ := exists_join_cons ", " item.toText (items.map toText)
      intro tail
      rw [hskip, List.map_cons, htail, htext]
      rintro ⟨⟩
      cases hc

theorem memberText_append (member : Text × Json) (rest : Text) :
    memberText member ++ rest = renderText .ascii member.1 ++
      (.scalar ':' :: .scalar ' ' :: (member.2.toText ++ rest)) := by
  rw [memberText, List.append_assoc, List.append_assoc]
  rfl

theorem unspaced_memberText (member : Text × Json) : Unspaced (memberText member) := by
  intro rest
  rw [memberText_append]
  exact skipSpace_cons (by decide) _

/-- A member is taken with the comma or the closing bracket behind it. -/
theorem readMembers_memberText {name : Text} {value : Json} (hname : name.IsScalar)
    (hportable : Portable value) (hread : value.ReadBack)
    (hfuel : (memberText (name, value)).length ≤ fuel) (rest : Text) :
    readMembers (fuel + 1) known (memberText (name, value) ++ (", " ++ rest)) =
        readMembers fuel ((name, value) :: known) (skipSpace rest) ∧
      readMembers (fuel + 1) known (memberText (name, value) ++ .scalar '\x7d' :: rest) =
        .ok (.obj (Entries.ofList ((name, value) :: known).reverse), rest) := by
  have hlength : value.toText.length ≤ fuel := by
    simp [memberText] at hfuel
    omega
  have hcolon := @skipSpace_cons (.scalar ':') rfl
  have hskip : ∀ rest, skipSpace (.scalar ' ' :: (value.toText ++ rest)) = value.toText ++ rest :=
    unspaced_toText hportable
  have hliteral : ∀ rest, readText (.scalar '"' :: (name.flatMap (renderPoint .ascii) ++ "\"" ++
      rest)) = .ok (name, rest) := readText_renderText hname
  constructor
  · have hvalue := hread fuel (", " ++ rest) hlength rfl
    rw [memberText_append, renderText, List.cons_append, readMembers, hliteral]
    simp only [hcolon, hskip, hvalue]
    rfl
  · have hvalue := hread fuel (.scalar '\x7d' :: rest) hlength rfl
    rw [memberText_append, renderText, List.cons_append, readMembers, hliteral]
    simp only [hcolon, hskip, hvalue]
    rfl

theorem readBack_obj (hnames : ∀ member ∈ members, member.1.IsScalar)
    (hportable : ∀ member ∈ members, Portable member.2)
    (hnodup : (members.map Prod.fst).Nodup)
    (hread : ∀ member ∈ members, member.2.ReadBack) : (obj members).ReadBack := by
  intro fuel rest hfuel hrest
  have hstart : ∀ member ∈ members, Unspaced (memberText member) :=
    fun member _ => unspaced_memberText member
  have hlength := congrArg List.length (toText_obj_append members [])
  simp only [List.length_append, List.length_cons, List.length_nil] at hlength
  obtain ⟨fuel, rfl⟩ : ∃ f, fuel = f + 1 := ⟨fuel - 1, by omega⟩
  rw [toText_obj_append]
  cases members with
  | nil => rfl
  | cons member members =>
    have hskip := unspaced_join (List.cons_ne_nil member members) hstart (.scalar '\x7d' :: rest)
    rw [readValue_obj, hskip]
    · refine (read_join readMembers (.scalar '\x7d') (fun read => obj (Entries.ofList read))
        (by simp) hstart ?_ ?_ [] (by omega)).trans ?_
      · intro m hm fuel known rest hfuel
        exact (readMembers_memberText (hnames m hm) (hportable m hm) (hread m hm) hfuel rest).1
      · intro m hm fuel known hfuel
        exact (readMembers_memberText (hnames m hm) (hportable m hm) (hread m hm) hfuel rest).2
      · rw [List.reverse_nil, List.nil_append, Entries.ofList_eq_self hnodup]
    · obtain ⟨tail', htail⟩ := exists_join_cons ", " (memberText member) (members.map memberText)
      intro tail
      rw [hskip, List.map_cons, htail, List.append_assoc, memberText_append]
      rintro ⟨⟩

theorem Portable.readBack (h : Portable json) : json.ReadBack := by
  induction h with
  | null =>
    intro fuel rest hfuel _
    obtain ⟨fuel, rfl⟩ := exists_fuel .null hfuel
    rw [toText_null]
    rfl
  | bool value =>
    intro fuel rest hfuel _
    obtain ⟨fuel, rfl⟩ := exists_fuel (.bool value) hfuel
    rw [toText_bool]
    cases value <;> rfl
  | int h => exact readBack_int h
  | str h => exact readBack_str h
  | arr hportable hread => exact readBack_arr hportable hread
  | obj hnames hportable hnodup hread => exact readBack_obj hnames hportable hnodup hread

theorem numberChars_eq_nil_of_isSpace (h : ∀ point ∈ rest, isSpace point) :
    numberChars rest = [] := by
  cases rest with
  | nil => rfl
  | cons point rest =>
    have hspace := h point List.mem_cons_self
    cases point with
    | scalar c =>
      simp only [isSpace, Bool.or_eq_true, beq_iff_eq] at hspace
      rcases hspace with ((rfl | rfl) | rfl) | rfl <;> rfl
    | surrogate => rfl

/-- A value is read as what it was written, with space behind it or without. -/
theorem read_toText (h : Portable json) (rest : Text) (hrest : ∀ point ∈ rest, isSpace point) :
    read (json.toText ++ rest) = .ok json := by
  have hspace : skipSpace rest = [] := List.dropWhile_eq_nil_iff.2 hrest
  have hread := h.readBack (2 * (json.toText ++ rest).length + 2) rest
    (by rw [List.length_append]; omega) (numberChars_eq_nil_of_isSpace hrest)
  rw [read.eq_def]
  split
  · rename_i htext
    obtain ⟨c, tail, hstart, hc⟩ := exists_startsValue h
    rw [hstart] at htext
    cases htext
    cases hc
  · simp only [unspaced_toText h rest, hread, hspace]

theorem Portable.read_toText (h : Portable json) : read json.toText = .ok json := by
  have hread := Json.read_toText h [] (List.forall_mem_nil _)
  rwa [List.append_nil] at hread

/-! ## One line of ASCII -/

theorem isPlain_escapeUnit {unit : Nat} (h : unit < 0x10000) : (escapeUnit unit).IsPlain := by
  obtain ⟨a, b, c, d, hdigits, -⟩ := Text.exists_hexadecimal_four ⟨unit, h⟩
  have hdigit : ∀ digit : Fin 16, 0x20 ≤ (Nat.digitChar digit).toNat ∧
      (Nat.digitChar digit).toNat < 0x7f := by decide
  simp only at hdigits
  rw [escapeUnit, hdigits]
  intro point hpoint
  simp only [Text.ofChars, List.map_cons, List.map_nil, List.mem_cons, List.not_mem_nil,
    or_false] at hpoint
  rcases hpoint with rfl | rfl | rfl | rfl | rfl | rfl
  · decide
  · decide
  all_goals exact hdigit _

theorem isPlain_renderPoint (point : CodePoint) : (renderPoint .ascii point).IsPlain := by
  simp only [renderPoint]
  split_ifs
  all_goals try decide
  simp only [Layout.ascii]
  split
  · rename_i hascii
    simp only [Bool.and_eq_true, decide_eq_true_eq] at hascii
    intro p hp
    obtain rfl := List.mem_singleton.1 hp
    exact hascii
  · rw [escapePoint]
    split
    · exact isPlain_escapeUnit ‹_›
    · obtain ⟨hhigh, hlow⟩ := surrogates_lt point.toNat_lt
      exact (isPlain_escapeUnit hhigh).append (isPlain_escapeUnit hlow)

theorem isPlain_renderText (text : Text) : (renderText .ascii text).IsPlain := by
  intro point hpoint
  rcases List.mem_cons.1 hpoint with rfl | hpoint
  · decide
  rcases List.mem_append.1 hpoint with hpoint | hpoint
  · obtain ⟨p, -, hp⟩ := List.mem_flatMap.1 hpoint
    exact isPlain_renderPoint p point hp
  · obtain rfl := List.mem_singleton.1 hpoint
    decide

theorem isPlain_join_comma {texts : List Text} (h : ∀ text ∈ texts, text.IsPlain) :
    (Text.join ", " texts).IsPlain := Text.forall_mem_join (by decide) h

theorem isPlain_toText_null : null.toText.IsPlain := by
  rw [toText_null]
  decide

theorem isPlain_toText_int (value : Int) : (int value).toText.IsPlain := by
  rw [toText_int]
  exact Text.isPlain_decimal value

theorem isPlain_toText_str (text : Text) : (str text).toText.IsPlain := by
  rw [toText_str]
  exact isPlain_renderText text

theorem isPlain_toText_arr (h : ∀ item ∈ items, item.toText.IsPlain) :
    (arr items).toText.IsPlain := by
  have hitems := isPlain_join_comma (List.forall_mem_map.2 h)
  rw [toText_arr]
  exact (Text.IsPlain.append (by decide) hitems).append (by decide)

theorem isPlain_toText_obj (h : ∀ member ∈ members, member.2.toText.IsPlain) :
    (obj members).toText.IsPlain := by
  have hmembers : ∀ member ∈ members, (memberText member).IsPlain := by
    intro member hmember
    exact ((isPlain_renderText member.1).append (by decide)).append (h member hmember)
  have hmembers := isPlain_join_comma (List.forall_mem_map.2 hmembers)
  rw [toText_obj]
  exact (Text.IsPlain.append (by decide) hmembers).append (by decide)

/-- A value is written within one line of printable ASCII characters. -/
theorem Portable.isPlain_toText {json : Json} (h : Portable json) : json.toText.IsPlain := by
  induction h with
  | null => exact isPlain_toText_null
  | bool value =>
    rw [toText_bool]
    cases value <;> decide
  | @int value => exact isPlain_toText_int value
  | @str text => exact isPlain_toText_str text
  | arr hportable ih => exact isPlain_toText_arr ih
  | obj hnames hportable hnodup ih => exact isPlain_toText_obj ih

end Json

end CounterLang
