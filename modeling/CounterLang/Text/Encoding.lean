import CounterLang.Text.Utf8

/-!
# Encodings

JSON that comes as bytes does not say how it is encoded. It starts with an ASCII character, so the
zeros among its first bytes tell: none in UTF-8, one beside each character in UTF-16, and three in
UTF-32.

## Main definitions

* `Encoding`: the encodings of Unicode, with the order of bytes.
* `Encoding.detect`: the encoding that the first bytes show.
* `Encoding.decode?`: the text that bytes write. Surrogates are let through in UTF-16 and UTF-32.
* `Text.ofJsonBytes?`: the text that the bytes of a JSON document write.
-/

namespace CounterLang

/-- Which byte of a number comes first. -/
inductive ByteOrder where
  /-- The most significant one. -/
  | bigEndian
  /-- The least significant one. -/
  | littleEndian
deriving DecidableEq, Repr

/-- The encodings of Unicode. -/
inductive Encoding where
  /-- One to four bytes for each code point. -/
  | utf8
  /-- Two bytes for each code point, or twice as many for those past U+FFFF. -/
  | utf16 (order : ByteOrder)
  /-- Four bytes for each code point. -/
  | utf32 (order : ByteOrder)
deriving DecidableEq, Repr

/-- The number that bytes write. -/
def ByteOrder.number : ByteOrder → List UInt8 → Nat
  | bigEndian, bytes => bytes.foldl (fun n byte => 256 * n + byte.toNat) 0
  | littleEndian, bytes => bytes.foldr (fun byte n => byte.toNat + 256 * n) 0

/-- Turning the bytes round changes their order. -/
theorem ByteOrder.number_bigEndian (bytes : List UInt8) :
    bigEndian.number bytes = littleEndian.number bytes.reverse := by
  simp [number, List.foldr_reverse, Nat.add_comm]

namespace Encoding

/-- The numbers of two bytes each that bytes write, after the numbers `read`, newest first. -/
def pairs? (order : ByteOrder) (read : List Nat) : List UInt8 → Option (List Nat)
  | [] => some read.reverse
  | a :: b :: rest => pairs? order (order.number [a, b] :: read) rest
  | [_] => none

/-- The numbers of four bytes each that bytes write, after the numbers `read`, newest first. -/
def quadruples? (order : ByteOrder) (read : List Nat) : List UInt8 → Option (List Nat)
  | [] => some read.reverse
  | a :: b :: c :: d :: rest => quadruples? order (order.number [a, b, c, d] :: read) rest
  | _ => none

/-- The code points in which each two that make a pair of surrogates are one, after the code points
`read`, newest first. -/
def joinPairs (read : Text) : Text → Text
  | [] => read.reverse
  | [point] => (point :: read).reverse
  | high :: low :: rest =>
    match high.pair? low with
    | some c => joinPairs (.scalar c :: read) rest
    | none => joinPairs (high :: read) (low :: rest)

/-- The text that bytes write in an encoding. -/
def decode? (encoding : Encoding) (bytes : List UInt8) : Option Text :=
  match encoding with
  | utf8 => (Text.Utf8.decode bytes).toOption.map Text.ofChars
  | utf16 order => do
    let units ← pairs? order [] bytes
    return joinPairs [] (← units.mapM CodePoint.ofNat?)
  | utf32 order => do
    let numbers ← quadruples? order [] bytes
    numbers.mapM CodePoint.ofNat?

/-- The encoding that the first bytes of a JSON document show. -/
def detect : List UInt8 → Encoding
  | a :: b :: c :: d :: _ =>
    if a = 0 then if b = 0 then utf32 .bigEndian else utf16 .bigEndian
    else if b = 0 then if c = 0 && d = 0 then utf32 .littleEndian else utf16 .littleEndian
    else utf8
  | [a, b] =>
    if a = 0 then utf16 .bigEndian else if b = 0 then utf16 .littleEndian else utf8
  | _ => utf8

end Encoding

namespace Text

/-- The text that the bytes of a JSON document write. A mark before UTF-8 is not part of it. -/
def ofJsonBytes? : List UInt8 → Option Text
  | 0xef :: 0xbb :: 0xbf :: bytes => Encoding.utf8.decode? bytes
  | bytes => (Encoding.detect bytes).decode? bytes

example : ofJsonBytes? [0x5b, 0, 0x5d, 0] = some "[]" := by decide

end Text

end CounterLang
