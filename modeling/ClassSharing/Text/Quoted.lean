import ClassSharing.Text.Printable

/-!
# Quoted text

Messages show names between quotation marks. Printable characters stand for themselves; the
mark itself and the backslash are escaped; the seven control characters with a letter of their own
use it; every other character is written as a hexadecimal escape of two, four or eight digits; and a
stray byte as an escape of two digits.

## Main definitions

* `Text.quoted`: a text between double quotation marks
* `Text.quotedByte`: the character numbered like a byte, between single quotation marks
-/

namespace ClassSharing

namespace Quoted

/-- The letter of a control character that has one. -/
def controlLetter? (c : Char) : Option Text :=
  match c.toNat with
  | 7 => some "a"
  | 8 => some "b"
  | 9 => some "t"
  | 10 => some "n"
  | 11 => some "v"
  | 12 => some "f"
  | 13 => some "r"
  | _ => none

/-- The hexadecimal escape of a character that is not printed. -/
def numericEscape (c : Char) : Text :=
  let n := c.toNat
  if n < 0x20 || n = 0x7F then "\\x" ++ Text.paddedHexadecimal 2 n
  else if n < 0x10000 then "\\u" ++ Text.paddedHexadecimal 4 n
  else "\\U" ++ Text.paddedHexadecimal 8 n

/-- One character inside quotation marks `mark`. -/
def char (mark c : Char) : Text :=
  if c = mark || c = '\\' then "\\" ++ Text.ofChar c
  else if Printable.isPrintable c then Text.ofChar c
  else match controlLetter? c with
    | some letter => "\\" ++ letter
    | none => numericEscape c

/-- One glyph inside quotation marks `mark`. -/
def glyph (mark : Char) : Glyph → Text
  | .char c => char mark c
  | .stray b => "\\x" ++ Text.paddedHexadecimal 2 b.toNat

end Quoted

namespace Text

/-- A text between double quotation marks. -/
def quoted (t : Text) : Text :=
  "\"" ++ join empty (t.glyphs.map (Quoted.glyph '"')) ++ "\""

/-- The character whose number is the byte, between single quotation marks. -/
def quotedByte (b : UInt8) : Text :=
  "'" ++ Quoted.char '\'' (Char.ofNat b.toNat) ++ "'"

end Text

end ClassSharing
