import CounterLang.Text.Printable

/-!
# Quoted text

The written form of a text inside a diagnostic: between quotes, with everything that does not print
written as an escape.

## Main definitions

* `hexadecimal`: a number in lower-case hexadecimal digits, padded with zeros.
* `quote`: the quoted form.
-/

namespace CounterLang.Text

/-- The number in lower-case hexadecimal digits, with zeros in front up to `width` digits. -/
def hexadecimal (width n : Nat) : List Char :=
  let digits := Nat.toDigits 16 n
  List.replicate (width - digits.length) '0' ++ digits

/-- How a quoted text is delimited: by apostrophes, unless it holds an apostrophe and no quotation
mark. -/
def delimiter (text : Text) : CodePoint :=
  if text.contains ('\'' : CodePoint) && !text.contains ('"' : CodePoint) then '"' else '\''

/-- A code point as an escape, by its number in two, four or eight hexadecimal digits. -/
def escapePoint (p : CodePoint) : Text :=
  ofChars
    (if p.toNat < 0x100 then '\\' :: 'x' :: hexadecimal 2 p.toNat
    else if p.toNat < 0x10000 then '\\' :: 'u' :: hexadecimal 4 p.toNat
    else '\\' :: 'U' :: hexadecimal 8 p.toNat)

/-- One code point of a quoted text. The delimiter and the backslash take a backslash in front, tab,
line feed and carriage return have letters, and what else does not print is an escape. -/
def quotePoint (delimiter p : CodePoint) : Text :=
  if p = delimiter || p = '\\' then ['\\', p]
  else if p = '\t' then "\\t"
  else if p = '\n' then "\\n"
  else if p = '\r' then "\\r"
  else if p.isPrintable then [p]
  else escapePoint p

def quote (text : Text) : Text :=
  let mark := delimiter text
  mark :: (text.flatMap (quotePoint mark) ++ [mark])

example : quote "it's" = "\"it's\"" := by decide

example : quote "a\\b\n" = "'a\\\\b\\n'" := by decide

end CounterLang.Text
