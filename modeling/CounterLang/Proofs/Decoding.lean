import CounterLang.Text.Utf8

/-!
# Decoding

Bytes are read as UTF-8 exactly where they are what some text is written as, and then they are read
as that text. The encoding is that of the library; the table of first bytes and the least and
greatest values of second bytes, by which bytes are read, do not occur in it.

## Main definitions

* `Text.Utf8.encode`: the bytes that a text is written as.

## Main statements

* `Text.Utf8.scan?_eq_ok_iff`: a character is read off the bytes that it is written as.
* `Text.Utf8.decode_eq_ok_iff`: the same of whole texts.
-/

namespace CounterLang.Text.Utf8

/-- The bytes that a text is written as. -/
def encode (chars : List Char) : List UInt8 := chars.flatMap String.utf8EncodeChar

/-! ## Bytes -/

/-- The promises of first bytes, by the number of bytes that follow. -/
theorem Lead.ofByte?_eq_some_iff {b : UInt8} {lead : Lead} : ofByte? b = some lead ↔
    b.toNat < 0x80 ∧ lead = { bits := b.toNat, owed := 0 } ∨
    0xc2 ≤ b.toNat ∧ b.toNat < 0xe0 ∧ lead = { bits := b.toNat - 0xc0, owed := 1 } ∨
    0xe0 ≤ b.toNat ∧ b.toNat < 0xf0 ∧ lead = {
      bits := b.toNat - 0xe0
      owed := 2
      least := if b.toNat = 0xe0 then 0xa0 else 0x80
      greatest := if b.toNat = 0xed then 0x9f else 0xbf } ∨
    0xf0 ≤ b.toNat ∧ b.toNat < 0xf5 ∧ lead = {
      bits := b.toNat - 0xf0
      owed := 3
      least := if b.toNat = 0xf0 then 0x90 else 0x80
      greatest := if b.toNat = 0xf4 then 0x8f else 0xbf } := by
  simp only [ofByte?, UInt8.lt_iff_toNat_lt, ← UInt8.toNat_inj, UInt8.reduceToNat]
  have hb := b.toNat_lt
  grind

section Continue

variable {bits owed : Nat} {least greatest : UInt8} {bytes : List UInt8}
  {result : Nat × List UInt8}

theorem continue?_zero_eq_ok_iff :
    continue? bits least greatest 0 bytes = .ok result ↔ result = (bits, bytes) := by
  simp [continue?, eq_comm]

theorem continue?_succ_eq_ok_iff :
    continue? bits least greatest (owed + 1) bytes = .ok result ↔
      ∃ b more, bytes = b :: more ∧ (least.toNat ≤ b.toNat ∧ b.toNat ≤ greatest.toNat) ∧
        continue? (bits * 64 + (b.toNat - 0x80)) 0x80 0xbf owed more = .ok result := by
  cases bytes with
  | nil => simp [continue?]
  | cons b more =>
    simp only [continue?, Bool.and_eq_true, decide_eq_true_eq, UInt8.le_iff_toNat_le]
    constructor
    · intro h
      split at h
      · rename_i hb
        refine ⟨b, more, rfl, hb, ?_⟩
        split at h
        · rename_i hinner
          exact hinner.trans h
        · cases h
      · cases h
    · rintro ⟨first, behind, heq, hb, hinner⟩
      cases heq
      rw [if_pos hb, hinner]

end Continue

/-! ## Characters -/

variable {b : UInt8} {bytes rest left : List UInt8} {c : Char} {chars : List Char}

/-- The bytes that a character with the given number is written as, by their values. -/
inductive Spells (n : Nat) : List UInt8 → Prop where
  | one {b : UInt8} (hn : n < 0x80) (hb : b.toNat = n) : Spells n [b]
  | two {b b₁ : UInt8} (hn : 0x80 ≤ n) (hn' : n < 0x800) (hb : b.toNat = n / 64 + 0xc0)
      (hb₁ : b₁.toNat = n % 64 + 0x80) : Spells n [b, b₁]
  | three {b b₁ b₂ : UInt8} (hn : 0x800 ≤ n) (hn' : n < 0x10000)
      (hb : b.toNat = n / 4096 + 0xe0) (hb₁ : b₁.toNat = n / 64 % 64 + 0x80)
      (hb₂ : b₂.toNat = n % 64 + 0x80) : Spells n [b, b₁, b₂]
  | four {b b₁ b₂ b₃ : UInt8} (hn : 0x10000 ≤ n) (hb : b.toNat = n / 262144 + 0xf0)
      (hb₁ : b₁.toNat = n / 4096 % 64 + 0x80) (hb₂ : b₂.toNat = n / 64 % 64 + 0x80)
      (hb₃ : b₃.toNat = n % 64 + 0x80) : Spells n [b, b₁, b₂, b₃]

theorem toNat_lt (c : Char) : c.toNat < 0x110000 := by
  have h : c.toNat.isValidChar := c.valid
  simp only [Nat.isValidChar] at h
  omega

/-- A character is written as the library says. -/
theorem spells_iff : Spells c.toNat bytes ↔ bytes = String.utf8EncodeChar c := by
  have hlt := toNat_lt c
  have hval : c.val.toNat = c.toNat := rfl
  simp only [String.utf8EncodeChar, hval]
  constructor
  · intro h
    cases h with
    | one hn hb =>
      rw [if_pos (by omega), ← hb, UInt8.ofNat_toNat]
    | two hn hn' hb hb₁ =>
      rw [if_neg (by omega), if_pos (by omega)]
      simp only [List.cons.injEq, ← UInt8.toNat_inj, UInt8.toNat_ofNat', and_true]
      omega
    | three hn hn' hb hb₁ hb₂ =>
      rw [if_neg (by omega), if_neg (by omega), if_pos (by omega)]
      simp only [List.cons.injEq, ← UInt8.toNat_inj, UInt8.toNat_ofNat', and_true]
      omega
    | four hn hb hb₁ hb₂ hb₃ =>
      rw [if_neg (by omega), if_neg (by omega), if_neg (by omega)]
      simp only [List.cons.injEq, ← UInt8.toNat_inj, UInt8.toNat_ofNat', and_true]
      omega
  · rintro rfl
    split
    · exact .one (by omega) (by rw [UInt8.toNat_ofNat']; omega)
    · split
      · refine .two (by omega) (by omega) ?_ ?_
        all_goals rw [UInt8.toNat_ofNat']; omega
      · split
        · refine .three (by omega) (by omega) ?_ ?_ ?_
          all_goals rw [UInt8.toNat_ofNat']; omega
        · refine .four (by omega) ?_ ?_ ?_ ?_
          all_goals rw [UInt8.toNat_ofNat']; omega

theorem toNat_ofNat {n : Nat} (h : n.isValidChar) : (Char.ofNat n).toNat = n := by
  rw [Char.ofNat, dif_pos h]
  rfl

/-- What is read off as a character is what the character is written as. -/
theorem spells_of_scan? (h : scan? b bytes = .ok (c, rest)) :
    ∃ tail, bytes = tail ++ rest ∧ Spells c.toNat (b :: tail) := by
  simp only [scan?] at h
  split at h
  · cases h
  · rename_i lead hlead
    split at h
    · rename_i n rest' hcontinue
      cases h
      have hb := b.toNat_lt
      rcases Lead.ofByte?_eq_some_iff.1 hlead with ⟨hb, rfl⟩ | ⟨hb, hb', rfl⟩ | ⟨hb, hb', rfl⟩ |
        ⟨hb, hb', rfl⟩
      · obtain ⟨hn, hrest⟩ := Prod.mk.inj (continue?_zero_eq_ok_iff.1 hcontinue)
        simp only at hn
        refine ⟨[], hrest.symm, ?_⟩
        rw [toNat_ofNat (by simp only [Nat.isValidChar]; omega)]
        exact .one (by omega) hn.symm
      · obtain ⟨b₁, more, rfl, h₁, hcontinue⟩ := continue?_succ_eq_ok_iff.1 hcontinue
        obtain ⟨hn, hrest⟩ := Prod.mk.inj (continue?_zero_eq_ok_iff.1 hcontinue)
        simp only [UInt8.reduceToNat] at h₁ hn
        refine ⟨[b₁], by rw [hrest]; rfl, ?_⟩
        rw [toNat_ofNat (by simp only [Nat.isValidChar]; omega)]
        exact .two (by omega) (by omega) (by omega) (by omega)
      · obtain ⟨b₁, more, rfl, h₁, hcontinue⟩ := continue?_succ_eq_ok_iff.1 hcontinue
        obtain ⟨b₂, more, rfl, h₂, hcontinue⟩ := continue?_succ_eq_ok_iff.1 hcontinue
        obtain ⟨hn, hrest⟩ := Prod.mk.inj (continue?_zero_eq_ok_iff.1 hcontinue)
        simp only [UInt8.reduceToNat, apply_ite UInt8.toNat] at h₁ h₂ hn
        -- The bounds of the second byte rule out overlong forms and surrogates.
        have hbounds : 0x80 ≤ b₁.toNat ∧ b₁.toNat ≤ 0xbf ∧ (b.toNat = 0xe0 → 0xa0 ≤ b₁.toNat) ∧
            (b.toNat = 0xed → b₁.toNat ≤ 0x9f) := by
          grind
        refine ⟨[b₁, b₂], by rw [hrest]; rfl, ?_⟩
        rw [toNat_ofNat (by simp only [Nat.isValidChar]; omega)]
        exact .three (by omega) (by omega) (by omega) (by omega) (by omega)
      · obtain ⟨b₁, more, rfl, h₁, hcontinue⟩ := continue?_succ_eq_ok_iff.1 hcontinue
        obtain ⟨b₂, more, rfl, h₂, hcontinue⟩ := continue?_succ_eq_ok_iff.1 hcontinue
        obtain ⟨b₃, more, rfl, h₃, hcontinue⟩ := continue?_succ_eq_ok_iff.1 hcontinue
        obtain ⟨hn, hrest⟩ := Prod.mk.inj (continue?_zero_eq_ok_iff.1 hcontinue)
        simp only [UInt8.reduceToNat, apply_ite UInt8.toNat] at h₁ h₂ h₃ hn
        -- Here they rule out overlong forms and code points past the last.
        have hbounds : 0x80 ≤ b₁.toNat ∧ b₁.toNat ≤ 0xbf ∧ (b.toNat = 0xf0 → 0x90 ≤ b₁.toNat) ∧
            (b.toNat = 0xf4 → b₁.toNat ≤ 0x8f) := by
          grind
        refine ⟨[b₁, b₂, b₃], by rw [hrest]; rfl, ?_⟩
        rw [toNat_ofNat (by simp only [Nat.isValidChar]; omega)]
        exact .four (by omega) (by omega) (by omega) (by omega) (by omega)
    · cases h

/-- What a character is written as is read off as the character. -/
theorem scan?_of_spells {tail : List UInt8} (h : Spells c.toNat (b :: tail)) (rest : List UInt8) :
    scan? b (tail ++ rest) = .ok (c, rest) := by
  have hvalid : c.toNat.isValidChar := c.valid
  simp only [Nat.isValidChar] at hvalid
  have hscan : ∀ lead, Lead.ofByte? b = some lead →
      continue? lead.bits lead.least lead.greatest lead.owed (tail ++ rest) =
        .ok (c.toNat, rest) → scan? b (tail ++ rest) = .ok (c, rest) := by
    intro lead hlead hcontinue
    simp only [scan?, hlead, hcontinue, Char.ofNat_toNat]
  cases h with
  | one hn hb =>
    refine hscan _ (Lead.ofByte?_eq_some_iff.2 (.inl ⟨by omega, rfl⟩)) ?_
    rw [continue?_zero_eq_ok_iff, hb]
    rfl
  | @two _ b₁ hn hn' hb hb₁ =>
    refine hscan _ (Lead.ofByte?_eq_some_iff.2 (.inr (.inl ⟨by omega, by omega, rfl⟩))) ?_
    refine continue?_succ_eq_ok_iff.2 ⟨b₁, _, rfl, ?_, continue?_zero_eq_ok_iff.2 ?_⟩
    · simp only [UInt8.reduceToNat]
      omega
    · simp only [Prod.mk.injEq]
      exact ⟨by omega, rfl⟩
  | @three _ b₁ b₂ hn hn' hb hb₁ hb₂ =>
    refine hscan _ (Lead.ofByte?_eq_some_iff.2 (.inr (.inr (.inl ⟨by omega, by omega, rfl⟩)))) ?_
    refine continue?_succ_eq_ok_iff.2 ⟨b₁, _, rfl, ?_, continue?_succ_eq_ok_iff.2
      ⟨b₂, _, rfl, ?_, continue?_zero_eq_ok_iff.2 ?_⟩⟩
    · simp only [UInt8.reduceToNat, apply_ite UInt8.toNat]
      constructor <;> split <;> omega
    · simp only [UInt8.reduceToNat]
      omega
    · simp only [Prod.mk.injEq]
      exact ⟨by omega, rfl⟩
  | @four _ b₁ b₂ b₃ hn hb hb₁ hb₂ hb₃ =>
    refine hscan _ (Lead.ofByte?_eq_some_iff.2 (.inr (.inr (.inr ⟨by omega, by omega, rfl⟩)))) ?_
    refine continue?_succ_eq_ok_iff.2 ⟨b₁, _, rfl, ?_, continue?_succ_eq_ok_iff.2
      ⟨b₂, _, rfl, ?_, continue?_succ_eq_ok_iff.2
        ⟨b₃, _, rfl, ?_, continue?_zero_eq_ok_iff.2 ?_⟩⟩⟩
    · simp only [UInt8.reduceToNat, apply_ite UInt8.toNat]
      constructor <;> split <;> omega
    · simp only [UInt8.reduceToNat]
      omega
    · simp only [UInt8.reduceToNat]
      omega
    · simp only [Prod.mk.injEq]
      exact ⟨by omega, rfl⟩

/-- A character is read off the bytes that it is written as, and off no others. -/
theorem scan?_eq_ok_iff :
    scan? b bytes = .ok (c, rest) ↔ b :: bytes = String.utf8EncodeChar c ++ rest := by
  constructor
  · intro h
    obtain ⟨tail, rfl, hspells⟩ := spells_of_scan? h
    rw [← spells_iff.1 hspells]
    rfl
  · intro h
    have hspells : Spells c.toNat (String.utf8EncodeChar c) := spells_iff.2 rfl
    generalize String.utf8EncodeChar c = encoded at h hspells
    cases encoded with
    | nil => cases hspells
    | cons first tail =>
      cases h
      exact scan?_of_spells hspells rest

/-! ## Texts -/

theorem encode_cons (c : Char) (chars : List Char) :
    encode (c :: chars) = String.utf8EncodeChar c ++ encode chars := rfl

theorem encode_eq_nil_iff : encode chars = [] ↔ chars = [] := by
  cases chars with
  | nil => simp [encode]
  | cons c chars => simp [encode_cons]

/-- Behind the characters that have been read come those that the bytes left are written for. -/
theorem go_eq_ok_iff {read : List Char} : decode.go bytes left read = .ok chars ↔
    ∃ more, chars = read.reverse ++ more ∧ left = encode more := by
  fun_induction decode.go bytes left read with
  | case1 read =>
    simp only [Except.ok.injEq, eq_comm (a := []), encode_eq_nil_iff, exists_eq_right,
      List.append_nil]
    exact eq_comm
  | case2 read b rest c rest' hscan ih =>
    rw [ih]
    have hfirst := scan?_eq_ok_iff.1 hscan
    constructor
    · rintro ⟨more, rfl, rfl⟩
      exact ⟨c :: more, by simp, hfirst⟩
    · rintro ⟨more, rfl, hleft⟩
      cases more with
      | nil => cases hleft
      | cons other more =>
        rw [encode_cons, ← scan?_eq_ok_iff, hscan] at hleft
        cases hleft
        exact ⟨more, by simp, rfl⟩
  | case3 read b rest good reason hscan =>
    constructor
    · intro h
      cases h
    · rintro ⟨more, -, hleft⟩
      cases more with
      | nil => cases hleft
      | cons other more =>
        rw [encode_cons, ← scan?_eq_ok_iff, hscan] at hleft
        cases hleft

/-- Bytes are read as a text exactly if they are what the text is written as. -/
theorem decode_eq_ok_iff : decode bytes = .ok chars ↔ bytes = encode chars := by
  rw [decode, go_eq_ok_iff]
  simp

end CounterLang.Text.Utf8
