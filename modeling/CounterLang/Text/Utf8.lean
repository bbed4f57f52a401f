import CounterLang.Text.Basic

/-!
# UTF-8

`decode` reads a sequence of bytes as UTF-8, or says which bytes stand in the way and why.

## Main definitions

* `Lead`: what the first byte of a character promises, namely how many bytes follow it and where the
  first of them must lie. This one table rules out overlong forms, surrogates and code points past
  the last.
* `scan?`: one character off the front of a byte sequence.
* `decode`: the whole sequence.
* `encodedLength`: how many bytes a text takes.
* `surrogates?`: what stands in the way of writing a text as UTF-8.
-/

namespace CounterLang.Text.Utf8

/-- Why a byte sequence is not UTF-8. -/
inductive Reason where
  /-- No character starts with this byte. -/
  | invalidStart
  /-- A byte that should continue a character does not. -/
  | invalidContinuation
  /-- The sequence ends inside a character. -/
  | unexpectedEnd
deriving DecidableEq, Repr

/-- The first stretch of bytes that is not UTF-8. -/
structure Failure where
  /-- The bytes of the broken character that were accepted or, if there is none, its first. -/
  bytes : List UInt8
  /-- The offset of the first of them. -/
  position : Nat
  reason : Reason
deriving DecidableEq, Repr

/-- What the first byte of a character promises. -/
structure Lead where
  /-- The bits of the code point that the first byte itself carries. -/
  bits : Nat
  /-- How many bytes follow. -/
  owed : Nat
  /-- The least value of the byte after the first. -/
  least : UInt8 := 0x80
  /-- The greatest value of the byte after the first. -/
  greatest : UInt8 := 0xbf

/-- The promise of a first byte, or `none` if no character starts with it. -/
def Lead.ofByte? (b : UInt8) : Option Lead :=
  if b < 0x80 then some { bits := b.toNat, owed := 0 }
  else if b < 0xc2 then none
  else if b < 0xe0 then some { bits := b.toNat - 0xc0, owed := 1 }
  else if b = 0xe0 then some { bits := 0, owed := 2, least := 0xa0 }
  else if b = 0xed then some { bits := 0xd, owed := 2, greatest := 0x9f }
  else if b < 0xf0 then some { bits := b.toNat - 0xe0, owed := 2 }
  else if b = 0xf0 then some { bits := 0, owed := 3, least := 0x90 }
  else if b < 0xf4 then some { bits := b.toNat - 0xf0, owed := 3 }
  else if b = 0xf4 then some { bits := 4, owed := 3, greatest := 0x8f }
  else none

/-- Reads `owed` continuation bytes, the first of which must lie between `least` and `greatest`, and
adds their six bits each to `bits`. Fails with the number of bytes accepted. -/
def continue? (bits : Nat) (least greatest : UInt8) :
    Nat → List UInt8 → Except (Nat × Reason) (Nat × List UInt8)
  | 0, bytes => .ok (bits, bytes)
  | _ + 1, [] => .error (0, .unexpectedEnd)
  | owed + 1, b :: bytes =>
    if least ≤ b && b ≤ greatest then
      match continue? (bits * 64 + (b.toNat - 0x80)) 0x80 0xbf owed bytes with
      | .ok result => .ok result
      | .error (accepted, reason) => .error (accepted + 1, reason)
    else .error (0, .invalidContinuation)

/-- Reads the character that starts with `b`. Fails with the number of bytes that were good, at
least one. -/
def scan? (b : UInt8) (bytes : List UInt8) : Except (Nat × Reason) (Char × List UInt8) :=
  match Lead.ofByte? b with
  | none => .error (1, .invalidStart)
  | some lead =>
    match continue? lead.bits lead.least lead.greatest lead.owed bytes with
    | .ok (codePoint, rest) => .ok (Char.ofNat codePoint, rest)
    | .error (accepted, reason) => .error (accepted + 1, reason)

theorem continue?_length_le {bits : Nat} {least greatest : UInt8} {owed : Nat}
    {bytes rest : List UInt8} {codePoint : Nat}
    (h : continue? bits least greatest owed bytes = .ok (codePoint, rest)) :
    rest.length ≤ bytes.length := by
  fun_induction continue? bits least greatest owed bytes with
  | case1 => simp_all
  | case2 => simp at h
  | case3 bits least greatest owed b bytes _ result hr ih =>
    simp only [Except.ok.injEq] at h
    have := ih (hr.trans (by rw [h]))
    simp only [List.length_cons]
    omega
  | case4 => simp at h
  | case5 => simp at h

theorem scan?_length_le {b : UInt8} {c : Char} {bytes rest : List UInt8}
    (h : scan? b bytes = .ok (c, rest)) : rest.length ≤ bytes.length := by
  simp only [scan?] at h
  split at h
  · simp at h
  · split at h
    · rename_i hc
      simp only [Except.ok.injEq, Prod.mk.injEq] at h
      exact h.2 ▸ continue?_length_le hc
    · simp at h

/-- The text that the bytes encode, or the first stretch that is not UTF-8. -/
def decode (bytes : List UInt8) : Except Failure (List Char) :=
  go bytes []
where
  /-- Decodes the bytes `left` of all, after the characters `read`, newest first. -/
  go (left : List UInt8) (read : List Char) : Except Failure (List Char) :=
    match left with
    | [] => .ok read.reverse
    | b :: rest =>
      match _h : scan? b rest with
      | .ok (c, rest') => go rest' (c :: read)
      | .error (good, reason) =>
        .error ⟨(b :: rest).take good, bytes.length - (b :: rest).length, reason⟩
  termination_by left.length
  decreasing_by
    have := scan?_length_le _h
    simp only [List.length_cons]
    omega

/-- The number of bytes of a code point. A surrogate counts like its neighbours. -/
def encodedSize (point : CodePoint) : Nat :=
  let n := point.toNat
  if n < 0x80 then 1 else if n < 0x800 then 2 else if n < 0x10000 then 3 else 4

/-- The number of bytes of a text. -/
def encodedLength (text : Text) : Nat := text.foldr (fun point total => encodedSize point + total) 0

/-- A stretch of surrogates, which have no place in UTF-8. -/
structure Surrogates where
  /-- The first of them. -/
  first : CodePoint
  /-- How many code points stand before it. -/
  position : Nat
  /-- How many surrogates there are. -/
  count : Nat
deriving DecidableEq, Repr

/-- The first stretch of surrogates in a text. -/
def surrogates? (text : Text) : Option Surrogates :=
  let before := text.takeWhile fun point => !point.isSurrogate
  match text.drop before.length with
  | [] => none
  | first :: rest =>
    some {
      first
      position := before.length
      count := (rest.takeWhile CodePoint.isSurrogate).length + 1 }

end CounterLang.Text.Utf8
