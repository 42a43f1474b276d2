import ClassSharing.Table
import ClassSharing.Text.Fold

/-!
# Files of environment variables

A file of environment variables has statements `NAME=value` or `NAME: value`, of which a later one
for the same name counts. The word `export` may stand in front. A value in quotation marks ends at
the next mark that no backslash hides, on whichever line; any other value ends with its line or at
a comment behind a blank. Values without marks and values in double marks may refer to variables
defined above them.

Names are read byte by byte, each byte as the character of its number. A text without `=` and `:`
is a value of the nameless variable.

## Main definitions

* `EnvFile.expand`: the value with the variables it refers to
* `EnvFile.parse?`: the variables of a file
-/

namespace ClassSharing

namespace EnvFile

/-! ### Characters -/

/-- Whether a character is a blank, line feeds apart. -/
def isSpace (c : Char) : Bool :=
  c ∈ ['\t', '\x0b', '\x0c', '\r', ' ', '\u0085', '\u00A0']

/-- Whether the character numbered like a byte is a letter or a number. -/
def isNameByte (b : UInt8) : Bool :=
  (Char.ofNat b.toNat).isAlphanum || b ∈ [0xAA, 0xB2, 0xB3, 0xB5, 0xB9, 0xBA, 0xBC, 0xBD, 0xBE]
    || (0xC0 ≤ b && b ≠ 0xD7 && b ≠ 0xF7)

/-- Whether a byte may stand in front of the sign that ends a name. -/
def isBeforeSign (b : UInt8) : Bool :=
  isSpace (Char.ofNat b.toNat) || isNameByte b || b = 0x5F || b = 0x2E

/-- The line feed. -/
def lineFeed : UInt8 := 0x0A

/-- The carriage return. -/
def carriageReturn : UInt8 := 0x0D

/-- The backslash, which hides what follows it. -/
def backslash : UInt8 := 0x5C

/-- The sign in front of a reference to a variable. -/
def dollar : UInt8 := 0x24

/-- Bytes without the blanks at their beginning. -/
def dropSpaces (bs : Bytes) : Bytes := ((Text.mk bs).trimStart isSpace).bytes

/-! ### References to variables -/

/-- Whether a byte may stand in the name of a variable that is referred to. -/
def isReferenceByte (b : UInt8) : Bool :=
  (0x41 ≤ b && b ≤ 0x5A) || (0x30 ≤ b && b ≤ 0x39) || b = 0x5F

/-- A reference, taken apart. -/
structure Reference where
  /-- The brackets in front of the name. -/
  opening : Bytes
  name : Bytes
  /-- The bracket behind the name. -/
  closing : Bytes

/-- The first byte if it is a given one, and the rest. -/
def optional (b : UInt8) : Bytes → Bytes × Bytes
  | c :: rest => if c = b then ([c], rest) else ([], c :: rest)
  | [] => ([], [])

/-- The reference behind a dollar sign: a round and a curly bracket, a name and a closing curly
bracket, any of which may be missing. -/
def referenceAt (bs : Bytes) : Reference :=
  let (round, bs) := optional 0x28 bs
  let (curly, bs) := optional 0x7B bs
  let (closing, _) := optional 0x7D (bs.dropWhile isReferenceByte)
  ⟨round ++ curly, bs.takeWhile isReferenceByte, closing⟩

/-- The bytes of a reference, the dollar sign apart. -/
def Reference.written (r : Reference) : Bytes := r.opening ++ r.name ++ r.closing

/-- What stands in the place of a reference: the value of the variable, empty if it is not defined.
Without a name the dollar sign stands for itself. -/
def Reference.replacement (known : Table Text) (r : Reference) : Bytes :=
  if r.name.isEmpty then dollar :: r.written
  else ((known.get? ⟨r.name⟩).getD Text.empty).bytes

/-- The bytes with references replaced, after `skip` bytes of a reference that has been read. A
backslash in front of a dollar sign goes away and leaves the reference as it is. -/
def expandAfter (known : Table Text) : (skip : Nat) → Bytes → Bytes
  | _, [] => []
  | skip + 1, _ :: rest => expandAfter known skip rest
  | 0, b :: rest =>
    if b = backslash && rest.head? = some dollar then
      let r := referenceAt (rest.drop 1)
      dollar :: r.written ++ expandAfter known (r.written.length + 1) rest
    else if b = dollar then
      let r := referenceAt rest
      r.replacement known ++ expandAfter known r.written.length rest
    else b :: expandAfter known 0 rest

/-- A value with the variables that it refers to. -/
def expand (known : Table Text) (bs : Bytes) : Bytes := expandAfter known 0 bs

/-! ### Escapes -/

/-- The bytes with the escapes of line feed and carriage return replaced. Other escapes stay. -/
def unescapeBreaks : Bytes → Bytes
  | [] => []
  | [b] => [b]
  | b :: c :: rest =>
    if b = backslash && c ≠ lineFeed then
      if c = 0x6E then lineFeed :: unescapeBreaks rest
      else if c = 0x72 then carriageReturn :: unescapeBreaks rest
      else b :: c :: unescapeBreaks rest
    else b :: unescapeBreaks (c :: rest)

/-- The bytes without the backslashes that hide something other than a dollar sign. -/
def dropBackslashes : Bytes → Bytes
  | [] => []
  | [b] => [b]
  | b :: c :: rest =>
    if b = backslash && c ≠ dollar then c :: dropBackslashes rest
    else b :: dropBackslashes (c :: rest)

/-! ### Values -/

/-- The part of a line before its last comment, if there is a comment. A comment begins with a
number sign behind a blank. -/
def beforeComment? : List Char → Option (List Char)
  | [] => none
  | c :: rest =>
    match beforeComment? rest with
    | some kept => some (c :: kept)
    | none => if isSpace c && rest.head? = some '#' then some [c] else none

/-- A line without its last comment. Number signs further to the left belong to the value. -/
def dropComment (line : List Char) : List Char := (beforeComment? line).getD line

/-- Whether a byte ends a line. -/
def isLineEnd (b : UInt8) : Bool := b = lineFeed || b = carriageReturn

/-- The value of a line without quotation marks. -/
def plainValue (known : Table Text) (line : Bytes) : Text :=
  let kept := Text.ofChars (dropComment (Text.mk line).chars)
  ⟨expand known (kept.trimBoth isSpace).bytes⟩

/-- The bytes up to the next mark that no backslash hides, and those behind it. -/
def untilMark? (mark : UInt8) : (previous : UInt8) → Bytes → Option (Bytes × Bytes)
  | _, [] => none
  | previous, b :: rest =>
    if b = mark && previous ≠ backslash then some ([], rest)
    else (untilMark? mark b rest).map fun (inside, rest) => (b :: inside, rest)

/-- The value between quotation marks. Marks at its ends do not belong to it. -/
def markedValue (known : Table Text) (mark : UInt8) (inside : Bytes) : Text :=
  let kept := ((inside.reverse.dropWhile (· = mark)).reverse).dropWhile (· = mark)
  if mark = 0x22 then ⟨expand known (dropBackslashes (unescapeBreaks kept))⟩ else ⟨kept⟩

/-- The value at the beginning, and what follows it. -/
def value? (known : Table Text) : Bytes → Option (Text × Bytes)
  | [] => some (Text.empty, [])
  | b :: rest =>
    if b = 0x22 || b = 0x27 then
      (untilMark? b b rest).map fun (inside, rest) => (markedValue known b inside, rest)
    else
      let isInside := fun b => !isLineEnd b
      some (plainValue known ((b :: rest).takeWhile isInside), (b :: rest).dropWhile isInside)

/-! ### Statements -/

/-- Bytes without blanks and comments in front, after `skip` bytes that belong to a character
already read. `comment` says whether a comment is being read; it ends with its line. -/
def dropGaps : (skip : Nat) → (comment : Bool) → Bytes → Bytes
  | _, _, [] => []
  | skip + 1, comment, _ :: rest => dropGaps skip comment rest
  | 0, true, b :: rest => dropGaps 0 (b ≠ lineFeed) rest
  | 0, false, b :: rest =>
    match Utf8.firstChar? (b :: rest) with
    | none => b :: rest
    | some (c, width) =>
      if Fold.isBlank c then dropGaps (width - 1) false rest
      else if c = '#' then dropGaps 0 true rest
      else b :: rest

/-- A statement without the word `export`. -/
def dropExport (bs : Bytes) : Bytes :=
  match Text.dropPrefix? "export" ⟨bs⟩ with
  | none => bs
  | some rest =>
    let kept := dropSpaces rest.bytes
    if kept.length < rest.length then kept else bs

/-- The name of a statement, and what follows the sign behind it. -/
def name? (bs : Bytes) : Option (Text × Bytes) :=
  let bs := dropExport bs
  if bs.isEmpty then none
  else match bs.dropWhile isBeforeSign with
    | [] => some (Text.empty, bs)
    | sign :: rest =>
      if sign = 0x3D || sign = 0x3A then
        some ((Text.mk (bs.takeWhile isBeforeSign)).trimEnd Fold.isBlank, dropSpaces rest)
      else none

/-- The variables of statements, added to those above them. Every statement takes at least one byte,
so the length of the input is fuel enough. -/
def parseWithin? : (fuel : Nat) → Table Text → Bytes → Option (Table Text)
  | 0, known, _ => some known
  | fuel + 1, known, bs =>
    match dropGaps 0 false bs with
    | [] => some known
    | statement =>
      match name? statement with
      | none => none
      | some (name, rest) =>
        match value? known rest with
        | none => none
        | some (value, rest) => parseWithin? fuel (known.insert name value) rest

/-- The bytes with each carriage return in front of a line feed taken out. -/
def joinBreaks : Bytes → Bytes
  | [] => []
  | b :: rest =>
    if b = carriageReturn && rest.head? = some lineFeed then joinBreaks rest
    else b :: joinBreaks rest

/-- The variables of a file, if it is well formed. -/
def parse? (contents : Bytes) : Option (Table Text) :=
  parseWithin? (contents.length + 1) Table.empty (joinBreaks contents)

end EnvFile

end ClassSharing
