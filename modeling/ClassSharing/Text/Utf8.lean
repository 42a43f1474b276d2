import ClassSharing.Text.Basic

/-!
# Reading bytes as UTF-8

A byte string is read left to right. Where the bytes at hand are the shortest encoding of a scalar
value, that character is read; any other byte is *stray* and is read alone. A text is valid when
no byte of it is stray.

## Main definitions

* `Utf8.firstChar?`: the character at the start of a byte string, with the bytes it takes
* `Utf8.glyphs`: the characters and stray bytes of a byte string
* `Text.isUtf8`: whether no byte is stray
* `Text.toString?`: the text as a `String`, if it is valid
-/

namespace ClassSharing

/-- One unit of a byte string read as UTF-8. -/
inductive Glyph where
  /-- A character. -/
  | char (c : Char)
  /-- A byte that belongs to no character. -/
  | stray (b : UInt8)
deriving DecidableEq, Inhabited

namespace Utf8

/-- Whether a byte continues a multi-byte character. -/
def isContinuation (b : UInt8) : Bool := 0x80 ≤ b && b < 0xC0

/-- The six payload bits of a continuation byte. -/
def payload (b : UInt8) : Nat := b.toNat % 64

/-- A scalar value of at least `least`, read from `width` bytes; shorter encodings exist below
`least`, and surrogates and values past the last plane are no scalar values. -/
def scalar? (least value width : Nat) : Option (Char × Nat) :=
  if least ≤ value then
    if h : value.isValidChar then some (Char.ofNatAux value h, width) else none
  else none

/-- The character at the start of a byte string and the number of bytes it takes. -/
def firstChar? : Bytes → Option (Char × Nat)
  | [] => none
  | a :: rest =>
    if a < 0x80 then scalar? 0 a.toNat 1
    else if a < 0xC0 then none
    else if a < 0xE0 then
      match rest with
      | b :: _ =>
        if isContinuation b then scalar? 0x80 (a.toNat % 32 * 64 + payload b) 2 else none
      | _ => none
    else if a < 0xF0 then
      match rest with
      | b :: c :: _ =>
        if isContinuation b && isContinuation c then
          scalar? 0x800 ((a.toNat % 16 * 64 + payload b) * 64 + payload c) 3
        else none
      | _ => none
    else if a < 0xF8 then
      match rest with
      | b :: c :: d :: _ =>
        if isContinuation b && isContinuation c && isContinuation d then
          scalar? 0x10000 (((a.toNat % 8 * 64 + payload b) * 64 + payload c) * 64 + payload d) 4
        else none
      | _ => none
    else none

/-- The glyphs of a byte string, after `skip` bytes that belong to a character already read. -/
def glyphsAfter : (skip : Nat) → Bytes → List Glyph
  | _, [] => []
  | skip + 1, _ :: rest => glyphsAfter skip rest
  | 0, b :: rest =>
    match firstChar? (b :: rest) with
    | some (c, width) => .char c :: glyphsAfter (width - 1) rest
    | none => .stray b :: glyphsAfter 0 rest

/-- The characters and stray bytes of a byte string, in order. -/
def glyphs (bs : Bytes) : List Glyph := glyphsAfter 0 bs

end Utf8

namespace Glyph

/-- The character, unless the byte is stray. -/
def char? : Glyph → Option Char
  | char c => some c
  | stray _ => none

/-- The character, or the replacement character for a stray byte. -/
def charOrReplacement : Glyph → Char
  | char c => c
  | stray _ => '\uFFFD'

/-- The bytes of a glyph. -/
def bytes : Glyph → Bytes
  | char c => String.utf8EncodeChar c
  | stray b => [b]

end Glyph

namespace Text

/-- The characters and stray bytes of a text. -/
def glyphs (t : Text) : List Glyph := Utf8.glyphs t.bytes

/-- Whether every byte of the text belongs to a character. -/
def isUtf8 (t : Text) : Bool := t.glyphs.all fun g => g.char?.isSome

/-- The text as a string of characters, if every byte belongs to one. -/
def toString? (t : Text) : Option String := (t.glyphs.mapM Glyph.char?).map String.ofList

/-- The characters of a text, with the replacement character for each stray byte. -/
def chars (t : Text) : List Char := t.glyphs.map Glyph.charOrReplacement

/-- The UTF-8 bytes of a list of characters. -/
def ofChars (cs : List Char) : Text := ⟨cs.flatMap String.utf8EncodeChar⟩

/-- The bytes of a list of glyphs. -/
def ofGlyphs (gs : List Glyph) : Text := ⟨gs.flatMap Glyph.bytes⟩

end Text

end ClassSharing
