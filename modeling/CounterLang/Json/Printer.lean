import CounterLang.Json.Basic
import CounterLang.Numeral.Binary64.Printer
import CounterLang.Text.Quoted

/-!
# Writing JSON

The written form of a value is one line. What stands between the parts of lists and objects, and
which code points of a text are written as escapes, depends on the layout.

## Main definitions

* `Json.Layout`: how values are laid out.
* `Json.Layout.ascii`: in ASCII, with a blank after each comma and colon.
* `Json.Layout.compact`: without blanks, and with few escapes.
* `Json.render`: the written form of a value.
-/

namespace CounterLang.Json

/-- How values are laid out. -/
structure Layout where
  /-- What stands between two items or members. -/
  comma : Text
  /-- What stands between a name and its value. -/
  colon : Text
  /-- How a code point is written that no letter stands for, inside a text. -/
  point : CodePoint → Text

/-- One UTF-16 unit as an escape. -/
def escapeUnit (unit : Nat) : Text := .ofChars ('\\' :: 'u' :: Text.hexadecimal 4 unit)

/-- The two UTF-16 units of a code point past U+FFFF. -/
def surrogates (codePoint : Nat) : Nat × Nat :=
  let offset := codePoint - 0x10000
  (0xd800 + offset / 0x400, 0xdc00 + offset % 0x400)

/-- A code point as one escape or, past U+FFFF, as two. -/
def escapePoint (point : CodePoint) : Text :=
  if point.toNat < 0x10000 then escapeUnit point.toNat
  else
    let (high, low) := surrogates point.toNat
    escapeUnit high ++ escapeUnit low

namespace Layout

/-- In ASCII, with a blank after each comma and colon. What is no printable ASCII character is an
escape. -/
def ascii : Layout where
  comma := ", "
  colon := ": "
  point point :=
    if 0x20 ≤ point.toNat && point.toNat < 0x7f then [point] else escapePoint point

/-- Without blanks. Only the control characters are escapes. -/
def compact : Layout where
  comma := ","
  colon := ":"
  point point := if point.toNat < 0x20 then escapePoint point else [point]

end Layout

variable (layout : Layout)

/-- One code point inside a text. -/
def renderPoint (point : CodePoint) : Text :=
  if point = '"' then "\\\""
  else if point = '\\' then "\\\\"
  else if point = '\n' then "\\n"
  else if point = '\r' then "\\r"
  else if point = '\t' then "\\t"
  else if point = '\x08' then "\\b"
  else if point = '\x0c' then "\\f"
  else layout.point point

def renderText (text : Text) : Text :=
  (.scalar '"') :: (text.flatMap (renderPoint layout) ++ "\"")

/-- The written form of a number with a fraction or an exponent. -/
def renderReal : Binary64 → Text
  | .nan => "NaN"
  | .infinity negative => if negative then "-Infinity" else "Infinity"
  | .finite negative units => Binary64.render (.finite negative units)

def render : Json → Text
  | null => "null"
  | bool value => if value then "true" else "false"
  | int value => Text.decimal value
  | real value => renderReal value
  | str value => renderText layout value
  | arr items => "[" ++ Text.join layout.comma (items.map render) ++ "]"
  | obj members =>
    let entries := members.map fun entry =>
      renderText layout entry.1 ++ layout.colon ++ render entry.2
    "\x7b" ++ Text.join layout.comma entries ++ "\x7d"
termination_by json => sizeOf json
decreasing_by
  · have := List.sizeOf_lt_of_mem ‹_›
    simp only [arr.sizeOf_spec]
    omega
  · have := List.sizeOf_lt_of_mem ‹_›
    rcases entry with ⟨name, value⟩
    simp only [Prod.mk.sizeOf_spec, obj.sizeOf_spec] at this ⊢
    omega

/-- The written form of a value in ASCII. -/
def toText (json : Json) : Text := json.render .ascii

end CounterLang.Json
