import ClassSharing.Toml.Quoted

/-!
# Statements of the settings format

A file is a list of statements, one a line: the header of a table, the header of a row in a list of
tables, or a key with its value. Keys are words or texts with dots between them. Arrays and inline
tables may span lines and may hold comments, and a comma may follow their last member.

## Main definitions

* `Toml.Key`, `Toml.Expr`, `Toml.Statement`
* `Toml.value?`, `Toml.statement?`
* `Toml.statements?`: the statements of a file
-/

namespace ClassSharing

namespace Toml

/-- The parts of a key, outermost first. -/
abbrev Key := List Text

/-- A value as it is written. -/
inductive Expr where
  | scalar (s : Scalar)
  | array (items : List Expr)
  /-- An inline table: keys with their values. -/
  | table (pairs : List (Key × Expr))
deriving Inhabited

/-- One statement. -/
inductive Statement where
  /-- The pairs that follow belong to a table. -/
  | table (key : Key)
  /-- The pairs that follow belong to a new row of a list of tables. -/
  | row (key : Key)
  | pair (key : Key) (value : Expr)
deriving Inhabited

/-! ### Gaps -/

/-- Whether a character is a blank inside a line. -/
def isBlank (c : Char) : Bool := c = ' ' || c = '\t'

/-- Whether a character belongs to a line break. -/
def isBreak (c : Char) : Bool := c = '\n' || c = '\r'

/-- What follows blanks, line breaks and comments. -/
def dropGaps : (comment : Bool) → List Char → List Char
  | _, [] => []
  | true, c :: rest => dropGaps (!isBreak c) rest
  | false, c :: rest =>
    if isGap c then dropGaps false rest
    else if c = '#' then dropGaps true rest
    else c :: rest

/-- What follows the rest of a line, on which only blanks and a comment may stand. -/
def lineEnd? (cs : List Char) : Option (List Char) :=
  match cs.dropWhile isBlank with
  | [] => some []
  | c :: rest =>
    if isBreak c then some rest
    else if c = '#' then some (rest.dropWhile fun d => !isBreak d)
    else none

/-! ### Keys -/

/-- Whether a character may stand in a key without quotation marks. -/
def isBare (c : Char) : Bool := c.isAlphanum || c = '_' || c = '-'

/-- One part of a key. -/
def keyPart? : List Char → Parsed Text
  | [] => none
  | c :: rest =>
    if c = '"' || c = '\'' then lineText? c rest
    else
      let bare := (c :: rest).takeWhile isBare
      if bare.isEmpty then none else some (Text.ofChars bare, (c :: rest).dropWhile isBare)

/-- A key and what follows it and the blanks behind it. Every part takes at least one character, so
the length of the input is fuel enough. -/
def keyWithin? : (fuel : Nat) → List Char → Parsed Key
  | 0, _ => none
  | fuel + 1, cs =>
    match keyPart? (cs.dropWhile isBlank) with
    | none => none
    | some (part, rest) =>
      match rest.dropWhile isBlank with
      | '.' :: rest => (keyWithin? fuel rest).map fun (parts, rest) => (part :: parts, rest)
      | rest => some ([part], rest)

/-- A key and what follows it and the blanks behind it. -/
def key? (cs : List Char) : Parsed Key := keyWithin? cs.length cs

/-! ### Values -/

/-- Whether a character may stand in a word. -/
def isWordChar (c : Char) : Bool :=
  c.isAlphanum || c = '_' || c = '+' || c = '-' || c = '.'

/-- Whether a character may stand in a date or a time. -/
def isMomentChar (c : Char) : Bool :=
  c.isDigit || c ∈ ['-', ':', 'T', 't', ' ', '.', 'Z', 'z', '+']

/-- Whether a date or a time begins here: digits with a dash or a colon right behind them. -/
def beginsMoment (cs : List Char) : Bool :=
  (cs.head?.map Char.isDigit).getD false
    && ((cs.dropWhile Char.isDigit).head?.map fun c => c = '-' || c = ':').getD false

/-- A date or a time. It may hold a blank, so the blanks behind it are read with it. -/
def moment? (cs : List Char) : Parsed Scalar :=
  let read := cs.takeWhile isMomentChar
  let literal := (read.reverse.dropWhile isBlank).reverse
  if isMoment literal then some (.moment literal, cs.dropWhile isMomentChar) else none

/-- A text that is a value. -/
def text? (mark : Char) (rest : List Char) : Parsed Scalar :=
  let read :=
    if rest.take 2 = [mark, mark] then blockText? mark (rest.drop 2) else lineText? mark rest
  read.map fun (t, rest) => (.text t, rest)

/-- A value that is no collection. -/
def scalar? : List Char → Parsed Scalar
  | [] => none
  | c :: rest =>
    if c = '"' || c = '\'' then text? c rest
    else if beginsMoment (c :: rest) then moment? (c :: rest)
    else (word? ((c :: rest).takeWhile isWordChar)).map
      fun s => (s, (c :: rest).dropWhile isWordChar)

/-- The members of a collection up to its closing bracket, behind the opening one. -/
def members? {α : Type} (read : List Char → Parsed α) (closing : Char) :
    (fuel : Nat) → List Char → Parsed (List α)
  | 0, _ => none
  | fuel + 1, cs =>
    let cs := dropGaps false cs
    if cs.head? = some closing then some ([], cs.drop 1)
    else match read cs with
      | none => none
      | some (member, rest) =>
        match dropGaps false rest with
        | [] => none
        | c :: rest =>
          if c = closing then some ([member], rest)
          else if c = ',' then
            (members? read closing fuel rest).map fun (more, rest) => (member :: more, rest)
          else none

/-- A key with its value. -/
def pair? (value : List Char → Parsed Expr) (cs : List Char) : Parsed (Key × Expr) :=
  match key? cs with
  | some (key, '=' :: rest) => (value rest).map fun (v, rest) => ((key, v), rest)
  | _ => none

/-- A value. The nesting of values is bounded by the number of opening brackets, so the length of
the input is fuel enough. -/
def valueWithin? : (fuel : Nat) → List Char → Parsed Expr
  | 0, _ => none
  | fuel + 1, cs =>
    match cs.dropWhile isBlank with
    | '[' :: rest =>
      (members? (valueWithin? fuel) ']' (rest.length + 1) rest).map
        fun (items, rest) => (.array items, rest)
    | '\x7b' :: rest =>
      (members? (pair? (valueWithin? fuel)) '\x7d' (rest.length + 1) rest).map
        fun (pairs, rest) => (.table pairs, rest)
    | rest => (scalar? rest).map fun (s, rest) => (.scalar s, rest)

/-- A value, behind blanks. -/
def value? (cs : List Char) : Parsed Expr := valueWithin? (cs.length + 1) cs

/-! ### Statements -/

/-- A statement. The brackets of a row header stand together. -/
def statement? : List Char → Parsed Statement
  | '[' :: '[' :: rest =>
    match key? rest with
    | some (key, ']' :: ']' :: rest) => some (.row key, rest)
    | _ => none
  | '[' :: rest =>
    match key? rest with
    | some (key, ']' :: rest) => some (.table key, rest)
    | _ => none
  | cs => (pair? value? cs).map fun ((key, v), rest) => (.pair key v, rest)

/-- The statements of a file. Every statement takes at least one character, so the length of the
input is fuel enough. -/
def statementsWithin? : (fuel : Nat) → List Char → Option (List Statement)
  | 0, _ => none
  | fuel + 1, cs =>
    match dropGaps false cs with
    | [] => some []
    | c :: rest =>
      match statement? (c :: rest) with
      | none => none
      | some (s, rest) =>
        match lineEnd? rest with
        | none => none
        | some rest => (statementsWithin? fuel rest).map (s :: ·)

/-- The statements of a file. -/
def statements? (cs : List Char) : Option (List Statement) := statementsWithin? (cs.length + 1) cs

end Toml

end ClassSharing
