import ClassSharing.Text.Utf8
import ClassSharing.Toml.Scalar

/-!
# Texts of the settings format

A text stands between quotation marks. Between double marks a backslash begins an escape; between
single marks every character stands for itself. Three marks on each side make a text that may span
lines: a line break right after the opening marks does not count, and neither does, between double
marks, a backslash at the end of a line with all the blanks and line breaks that follow it.

## Main definitions

* `Toml.lineText?`: a text on one line
* `Toml.blockText?`: a text that may span lines
-/

namespace ClassSharing

namespace Toml

/-- What is read and what follows it. -/
abbrev Parsed (α : Type) := Option (α × List Char)

/-! ### Escapes -/

/-- The character with a given number, written in hexadecimal. -/
def numbered? (cs : List Char) : Option Char :=
  match cs.mapM (digit? 16) with
  | none => none
  | some ds =>
    let n := ofDigits 16 ds
    if h : n.isValidChar then some (Char.ofNatAux n h) else none

/-- The character of an escape with `width` hexadecimal digits. -/
def numericEscape? (width : Nat) (cs : List Char) : Option (Char × Nat) :=
  let ds := cs.take width
  if ds.length = width then (numbered? ds).map fun c => (c, width + 1) else none

/-- The character of the escape behind a backslash, and the number of characters it takes. -/
def escape? : List Char → Option (Char × Nat)
  | [] => none
  | c :: rest =>
    match c with
    | 'b' => some ('\x08', 1)
    | 't' => some ('\t', 1)
    | 'n' => some ('\n', 1)
    | 'f' => some ('\x0c', 1)
    | 'r' => some ('\r', 1)
    | 'e' => some ('\x1b', 1)
    | '"' => some ('"', 1)
    | '\\' => some ('\\', 1)
    | 'x' => numericEscape? 2 rest
    | 'u' => numericEscape? 4 rest
    | 'U' => numericEscape? 8 rest
    | _ => none

/-- The characters that a text with escapes denotes, after `skip` characters of an escape that has
been read. -/
def unescapeAfter : (skip : Nat) → List Char → Option (List Char)
  | _, [] => some []
  | skip + 1, _ :: rest => unescapeAfter skip rest
  | 0, c :: rest =>
    if c = '\\' then
      match escape? rest with
      | none => none
      | some (d, width) => (unescapeAfter width rest).map (d :: ·)
    else (unescapeAfter 0 rest).map (c :: ·)

/-- The characters that a text with escapes denotes. -/
def unescape? (cs : List Char) : Option (List Char) := unescapeAfter 0 cs

/-! ### Texts on one line -/

/-- The written form of a text up to its closing mark, and what follows the mark. A backslash hides
the character behind it if there are escapes. -/
def lineSpan? (mark : Char) (escapes : Bool) : List Char → Parsed (List Char)
  | [] => none
  | c :: rest =>
    if c = mark then some ([], rest)
    else if c = '\n' || c = '\r' then none
    else if escapes && c = '\\' then
      match rest with
      | [] => none
      | d :: rest => (lineSpan? mark escapes rest).map fun (cs, rest) => (c :: d :: cs, rest)
    else (lineSpan? mark escapes rest).map fun (cs, rest) => (c :: cs, rest)

/-- A text on one line, behind its opening mark. -/
def lineText? (mark : Char) (cs : List Char) : Parsed Text :=
  let escapes := mark = '"'
  match lineSpan? mark escapes cs with
  | none => none
  | some (written, rest) =>
    (if escapes then unescape? written else some written).map fun cs => (Text.ofChars cs, rest)

/-! ### Texts that may span lines -/

/-- Whether a written form, in reverse, ends in five marks of which no backslash hides the first. -/
def hasFiveMarks (mark : Char) (escapes : Bool) (written : List Char) : Bool :=
  written.take 5 = List.replicate 5 mark && !(escapes && (written.drop 5).head? = some '\\')

/-- The written form of a text up to its closing marks, and what follows them. Up to two marks may
stand before the closing ones. `seen` is what has been read, in reverse. -/
def blockSpan? (mark : Char) (escapes : Bool) : (seen : List Char) → List Char → Parsed (List Char)
  | _, [] => none
  | seen, c :: rest =>
    if c = mark && rest.take 2 = [mark, mark] then
      if (rest.drop 2).head? = some mark then
        if hasFiveMarks mark escapes (mark :: mark :: mark :: seen) then none
        else blockSpan? mark escapes (c :: seen) rest
      else some (seen.reverse, rest.drop 2)
    else if escapes && c = '\\' then
      match rest with
      | [] => none
      | d :: rest => blockSpan? mark escapes (d :: c :: seen) rest
    else blockSpan? mark escapes (c :: seen) rest

/-- A written form without a line break at its beginning. -/
def dropFirstBreak : List Char → List Char
  | '\n' :: cs => cs
  | '\r' :: '\n' :: cs => cs
  | cs => cs

/-- Whether a character is a blank or part of a line break. -/
def isGap (c : Char) : Bool := c = ' ' || c = '\t' || c = '\n' || c = '\r'

/-- A written form without the backslashes at the ends of lines and without the gaps behind them.
`dropping` says whether such a gap is being read. -/
def joinLines : (dropping : Bool) → List Char → List Char
  | _, [] => []
  | dropping, c :: rest =>
    if dropping && isGap c then joinLines true rest
    else if c = '\\' then
      match rest with
      | [] => [c]
      | d :: more =>
        if d = '\\' then c :: d :: joinLines false more
        else if ((d :: more).takeWhile isGap).contains '\n' then joinLines true (d :: more)
        else c :: joinLines false (d :: more)
    else c :: joinLines false rest

/-- A text that may span lines, behind its opening marks. -/
def blockText? (mark : Char) (cs : List Char) : Parsed Text :=
  let escapes := mark = '"'
  match blockSpan? mark escapes [] cs with
  | none => none
  | some (written, rest) =>
    let written := dropFirstBreak written
    (if escapes then unescape? (joinLines false written) else some written).map
      fun cs => (Text.ofChars cs, rest)

end Toml

end ClassSharing
