import ClassSharing.Text.Utf8

/-!
# Case and blanks

Comparison of texts with ASCII words regardless of case, and removal of blanks at both ends. Outside
ASCII only a few characters matter: the dotted capital I and the Kelvin sign have ASCII letters as
their lower case, and the long s differs from the letter s in case only.

## Main definitions

* `Text.lowered`: the text in lower case, right for every text that becomes ASCII
* `Text.foldedEqual`: equality regardless of case, right if one side is ASCII
* `Text.trimStart`, `Text.trimEnd`, `Text.trimBoth`: the text without certain characters at its ends
* `Text.trimmed`: the text without blanks at its ends
-/

namespace ClassSharing

namespace Fold

/-- The lower case of a character that has an ASCII one. -/
def lower (c : Char) : Char :=
  if c = '\u0130' then 'i' else if c = '\u212A' then 'k' else c.toLower

/-- The representative of the characters that differ from each other in case only. -/
def fold (c : Char) : Char :=
  if c = '\u017F' then 's' else if c = '\u212A' then 'k' else c.toLower

/-- Whether a character is blank. -/
def isBlank (c : Char) : Bool :=
  let n := c.toNat
  (9 ≤ n && n ≤ 13) || n = 0x20 || n = 0x85 || n = 0xA0 || n = 0x1680
    || (0x2000 ≤ n && n ≤ 0x200A) || n = 0x2028 || n = 0x2029 || n = 0x202F || n = 0x205F
    || n = 0x3000

/-- Whether a glyph is a character of a class. A stray byte is in no class. -/
def isIn (p : Char → Bool) : Glyph → Bool
  | .char c => p c
  | .stray _ => false

/-- Bytes without the characters of a class at their beginning, after `skip` bytes that belong to a
character already read. -/
def dropLeading (p : Char → Bool) : (skip : Nat) → Bytes → Bytes
  | _, [] => []
  | skip + 1, _ :: rest => dropLeading p skip rest
  | 0, b :: rest =>
    match Utf8.firstChar? (b :: rest) with
    | some (c, width) => if p c then dropLeading p (width - 1) rest else b :: rest
    | none => b :: rest

end Fold

namespace Text

/-- The text in lower case. -/
def lowered (t : Text) : Text := ofChars (t.chars.map Fold.lower)

/-- Whether two texts are equal but for case. -/
def foldedEqual (a b : Text) : Bool := a.chars.map Fold.fold == b.chars.map Fold.fold

/-- The text without the characters of a class at its beginning. -/
def trimStart (p : Char → Bool) (t : Text) : Text := ⟨Fold.dropLeading p 0 t.bytes⟩

/-- The text without the characters of a class at its end. -/
def trimEnd (p : Char → Bool) (t : Text) : Text :=
  ofGlyphs (t.glyphs.reverse.dropWhile (Fold.isIn p)).reverse

/-- The text without the characters of a class at its beginning and its end. -/
def trimBoth (p : Char → Bool) (t : Text) : Text := (t.trimStart p).trimEnd p

/-- The text without the blanks at its beginning and its end. -/
def trimmed (t : Text) : Text := t.trimBoth Fold.isBlank

end Text

end ClassSharing
