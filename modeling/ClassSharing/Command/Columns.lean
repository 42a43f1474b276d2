import ClassSharing.Text.Utf8

/-!
# Text in columns

Text is laid out in columns: tabs end cells, line feeds and form feeds end lines. A column is a
run of neighbouring lines that have a cell in the same place with another one behind it. It is as
wide as its widest cell, counted in characters, and two blanks more. The last cell of a line
belongs to no column. A form feed ends all columns. Between two bytes `FF` tabs and line ends
count as plain text.

## Main definitions

* `Columns.Line`, `Columns.Sheet`: text taken apart
* `Columns.width`: the width of a column at a line
* `Columns.render`: the text laid out
* `Columns.settle`: the lines whose layout no later line can change
-/

namespace ClassSharing

namespace Columns

/-! ### Taking text apart -/

/-- A line of cells. -/
structure Line where
  /-- The cells, first to last. -/
  cells : List Bytes
  /-- Whether the columns end with the line. -/
  endsColumns : Bool
deriving DecidableEq, Inhabited

/-- The cells of the line under construction and whether plain text is being read. -/
structure Draft where
  /-- The finished cells, last first. -/
  cells : List Bytes
  /-- The bytes of the cell under construction, last first. -/
  cell : Bytes
  verbatim : Bool
deriving Inhabited

/-- Text taken apart. -/
structure Sheet where
  /-- The lines that have ended. -/
  lines : List Line
  /-- The cells behind the last line end. -/
  rest : List Bytes
deriving DecidableEq, Inhabited

namespace Draft

/-- A line without cells. -/
def empty : Draft := ⟨[], [], false⟩

/-- The draft with a byte added to its cell. -/
def push (d : Draft) (b : UInt8) : Draft := { d with cell := b :: d.cell }

/-- The draft with its cell finished. -/
def endCell (d : Draft) : Draft := { d with cells := d.cell.reverse :: d.cells, cell := [] }

/-- The line that a draft has become. -/
def toLine (d : Draft) (endsColumns : Bool) : Line := ⟨d.endCell.cells.reverse, endsColumns⟩

/-- The cells of a line that has not ended. An empty last cell does not count. -/
def remainder (d : Draft) : List Bytes :=
  (if d.cell.isEmpty then d.cells else d.endCell.cells).reverse

end Draft

/-- The byte around plain text. -/
def verbatimMark : UInt8 := 0xFF

/-- Takes text apart, behind the beginning of a line. -/
def split (d : Draft) : Bytes → Sheet
  | [] => ⟨[], d.remainder⟩
  | b :: rest =>
    if b = verbatimMark then split { d.push b with verbatim := !d.verbatim } rest
    else if d.verbatim then split (d.push b) rest
    else if b = 0x09 || b = 0x0B then split d.endCell rest
    else if b = 0x0A || b = 0x0C then
      let sheet := split Draft.empty rest
      ⟨d.toLine (b = 0x0C) :: sheet.lines, sheet.rest⟩
    else split (d.push b) rest

/-- Text taken apart. -/
def Sheet.ofText (t : Text) : Sheet := split Draft.empty t.bytes

/-! ### Widths -/

/-- The number of characters of a cell. The marks around plain text do not count. -/
def cellWidth (cell : Bytes) : Nat :=
  (Utf8.glyphs cell).countP fun g => g ≠ .stray verbatimMark

/-- The blanks between columns. -/
def padding : Nat := 2

/-- The width that a line needs in a column, if it has a cell in it. -/
def need? (column : Nat) (cells : List Bytes) : Option Nat :=
  if column + 1 < cells.length then cells[column]?.map fun cell => cellWidth cell + padding
  else none

/-- The needs of the lines up to the first one without a cell in a column. -/
def runNeeds (column : Nat) : List (List Bytes) → List Nat
  | [] => []
  | cells :: rest =>
    match need? column cells with
    | none => []
    | some n => n :: runNeeds column rest

/-- The width of a column at a line between other lines, the nearest first on either side. -/
def width (column : Nat) (above : List (List Bytes)) (cells : List Bytes)
    (below : List (List Bytes)) : Nat :=
  (runNeeds column above ++ runNeeds column (cells :: below)).foldl max 0

/-! ### Layout -/

/-- The cells of a line from a column on, each but the last filled with blanks. -/
def layoutCells (widthOf : Nat → Nat) : (column : Nat) → List Bytes → Bytes
  | _, [] => []
  | _, [cell] => cell
  | column, cell :: rest =>
    cell ++ List.replicate (widthOf column - cellWidth cell) 0x20
      ++ layoutCells widthOf (column + 1) rest

/-- The lines of one section, each behind those above it. -/
def layoutLines (above : List (List Bytes)) : List (List Bytes) → List Bytes
  | [] => []
  | cells :: below =>
    layoutCells (fun column => width column above cells below) 0 cells
      :: layoutLines (cells :: above) below

/-- The sections of a list of lines: each ends behind a line that ends all columns. -/
def sections : List Line → List (List (List Bytes))
  | [] => [[]]
  | line :: rest =>
    match line.endsColumns, sections rest with
    | true, more => [line.cells] :: more
    | false, first :: more => (line.cells :: first) :: more
    | false, [] => [[line.cells]]

/-- Lines laid out, each with a line feed behind it. -/
def renderLines (lines : List Line) : Bytes :=
  (sections lines).flatMap fun s => (layoutLines [] s).flatMap (· ++ [0x0A])

/-- The lines with cells behind the last line end taken as one more line, if there are any. -/
def Sheet.closed (s : Sheet) : List Line :=
  if s.rest.isEmpty then s.lines else s.lines ++ [⟨s.rest, false⟩]

/-- The text laid out. Cells behind the last line end get no line feed. -/
def render (t : Text) : Text :=
  let sheet := Sheet.ofText t
  let laidOut := renderLines sheet.closed
  ⟨if sheet.rest.isEmpty then laidOut else laidOut.dropLast⟩

/-- Whether the layout of a line and of the lines above it depends on no line below it. -/
def Line.isSettled (line : Line) : Bool := line.endsColumns || line.cells.length = 1

/-- The text laid out as far as no later line can change it: up to the last line of one cell and up
to the last form feed. -/
def settle (t : Text) : Text :=
  let sheet := Sheet.ofText t
  ⟨renderLines (sheet.lines.reverse.dropWhile fun line => !line.isSettled).reverse⟩

end Columns

end ClassSharing
