import ClassSharing.Table
import ClassSharing.Toml.Statement

/-!
# Documents of the settings format

Statements build up a tree of tables. A table that a longer key implies may be defined once later
on; a table or value that has been defined may not be defined again. A key that leads through an
array puts a table in its place. A list of tables grows by its row headers, and keys that lead
through it go to its last row.

## Main definitions

* `Toml.Node`, `Toml.Entries`: the tree
* `Toml.Draft`: a tree that is being built
* `Toml.Draft.openTable?`, `Toml.Draft.openRow?`, `Toml.Draft.assign?`
* `Toml.parse?`: the document of a file
-/

namespace ClassSharing

namespace Toml

/-- A value of a document. -/
inductive Node where
  | scalar (s : Scalar)
  | array (items : List Node)
  | table (entries : List (Text × Node))
  /-- A list of tables that row headers build. -/
  | rows (tables : List (List (Text × Node)))
deriving Inhabited

/-- The entries of a table. -/
abbrev Entries := List (Text × Node)

/-- A tree that is being built. -/
structure Draft where
  root : Entries
  /-- The keys of tables that have only been implied. -/
  implied : List Key
  /-- The keys of arrays. -/
  arrays : List Key

namespace Entries

/-- The node at a key; through a list of tables the last row counts. -/
def find? : Key → Entries → Option Node
  | [], _ => none
  | [k], es => Table.find? k es
  | k :: path, es =>
    match Table.find? k es with
    | some (.table inner) => find? path inner
    | some (.rows tables) => tables.getLast?.bind (find? path)
    | _ => none

/-- The entries with a node put into the table at a key, if there is one. -/
def insertAt? (name : Text) (node : Node) : Key → Entries → Option Entries
  | [], es => some (Table.place name node es)
  | k :: path, es =>
    match Table.find? k es with
    | some (.table inner) =>
      (insertAt? name node path inner).map fun inner => Table.place k (.table inner) es
    | some (.rows tables) =>
      match tables.getLast? with
      | none => none
      | some last =>
        (insertAt? name node path last).map
          fun last => Table.place k (.rows (tables.dropLast ++ [last])) es
    | _ => none

/-- The entries with a node put at a key, where missing tables are made on the way. -/
def graft? (name : Text) (node : Node) : Key → Entries → Option Entries
  | [], es => some (Table.place name node es)
  | k :: path, es =>
    match Table.find? k es with
    | none => (graft? name node path []).map fun inner => Table.place k (.table inner) es
    | some (.table inner) =>
      (graft? name node path inner).map fun inner => Table.place k (.table inner) es
    | some _ => none

end Entries

namespace Draft

/-- No tables. -/
def empty : Draft := ⟨[], [], []⟩

/-! ### Marks -/

/-- The draft with a key marked as implied. -/
def imply (d : Draft) (key : Key) : Draft := { d with implied := key :: d.implied }

/-- The draft with a key no longer marked as implied. -/
def define (d : Draft) (key : Key) : Draft :=
  { d with implied := d.implied.filter fun k => k ≠ key }

/-- The key that the mark of a value goes to. An empty last part names the table around it. -/
def markedKey (context : Key) (name : Text) : Key :=
  let key := if name.isEmpty then context else context ++ [name]
  if key.isEmpty then [Text.empty] else key

/-- The draft with a value marked as an array, or as none. -/
def markArray (d : Draft) (context : Key) (name : Text) (isArray : Bool) : Draft :=
  let key := markedKey context name
  let others := d.arrays.filter fun k => k ≠ key
  { d with arrays := if isArray then key :: others else others }

/-! ### Definitions -/

/-- Puts a node into the table at a key. -/
def insert? (d : Draft) (context : Key) (name : Text) (node : Node) : Option Draft :=
  (Entries.insertAt? name node context d.root).map fun root => { d with root := root }

/-- Gives a value to a name in the table at a key. What is there already must have been implied
only: an implied table stays and counts as defined, and in the place of an array the new value is
put. -/
def assign? (d : Draft) (context : Key) (name : Text) (node : Node) : Option Draft :=
  let key := context ++ [name]
  match Entries.find? key d.root with
  | none => d.insert? context name node
  | some _ =>
    if d.implied.contains key then
      if d.arrays.contains key then (d.define key).insert? context name node
      else some (d.define key)
    else none

/-- Makes the missing tables along a key, behind a key whose tables are there. -/
def establish? (d : Draft) (done : Key) : Key → Option Draft
  | [] => some d
  | k :: rest =>
    let here := done ++ [k]
    match Entries.find? here d.root with
    | none =>
      match (d.imply here).insert? done k (.table []) with
      | none => none
      | some d => d.establish? here rest
    | some (.table _) | some (.rows _) => d.establish? here rest
    | some _ => none

/-- Defines the table at a key. -/
def openTable? (d : Draft) (key : Key) : Option Draft :=
  match key.getLast? with
  | none => none
  | some name =>
    match d.establish? [] key.dropLast with
    | none => none
    | some d => d.assign? key.dropLast name (.table [])

/-- Adds a row to the list of tables at a key. -/
def openRow? (d : Draft) (key : Key) : Option Draft :=
  match key.getLast? with
  | none => none
  | some name =>
    match d.establish? [] key.dropLast with
    | none => none
    | some d =>
      match Entries.find? key d.root with
      | none => d.insert? key.dropLast name (.rows [[]])
      | some (.rows tables) => d.insert? key.dropLast name (.rows (tables ++ [[]]))
      | some _ => none

/-- Defines the tables that the outer parts of a key in a context name, one inside the other. -/
def openOuter? (d : Draft) (context : Key) : Key → Option Draft
  | [] => some d
  | k :: rest =>
    let here := context ++ [k]
    match (d.imply here).openTable? here with
    | none => none
    | some d => d.openOuter? here rest

/-! ### Values -/

/-- Whether a node is an array. -/
def isArray : Node → Bool
  | .array _ => true
  | _ => false

mutual

/-- The node of a value that belongs to a name in a context. Inline tables are entered into the
draft as they are read, as rows if they stand in an array. -/
def evaluate? (d : Draft) (context : Key) (name : Text) (inArray : Bool) :
    Expr → Option (Node × Draft)
  | .scalar s => some (.scalar s, d)
  | .array items =>
    (evaluateItems? (d.markArray context name true) context name items).map
      fun (nodes, d) => (.array nodes, d)
  | .table pairs =>
    let here := context ++ [name]
    let implied := d.imply here
    match (if inArray then implied.openRow? here else implied.openTable? here) with
    | none => none
    | some d => (evaluatePairs? d here [] pairs).map fun (entries, d) => (.table entries, d)

/-- The nodes of the values of an array. -/
def evaluateItems? (d : Draft) (context : Key) (name : Text) :
    List Expr → Option (List Node × Draft)
  | [] => some ([], d)
  | item :: rest =>
    match evaluate? d context name true item with
    | none => none
    | some (node, d) =>
      (evaluateItems? d context name rest).map fun (nodes, d) => (node :: nodes, d)

/-- The entries of an inline table, added to those before them. -/
def evaluatePairs? (d : Draft) (context : Key) (entries : Entries) :
    List (Key × Expr) → Option (Entries × Draft)
  | [] => some (entries, d)
  | pair :: rest =>
    match evaluatePair? d context pair with
    | none => none
    | some (node, d) =>
      match Entries.graft? (pair.1.getLast?.getD Text.empty) node pair.1.dropLast entries with
      | none => none
      | some entries => evaluatePairs? d context entries rest

/-- Defines a key in a context, and answers the node of its value. -/
def evaluatePair? (d : Draft) (context : Key) : Key × Expr → Option (Node × Draft)
  | (key, value) =>
    let inner := context ++ key.dropLast
    let name := key.getLast?.getD Text.empty
    match d.openOuter? context key.dropLast with
    | none => none
    | some d =>
      match evaluate? d inner name false value with
      | none => none
      | some (node, d) =>
        (d.assign? inner name node).map fun d => (node, d.markArray inner name (isArray node))

end

/-- Takes in statements, beginning in a context. -/
def takeIn? (d : Draft) (context : Key) : List Statement → Option Draft
  | [] => some d
  | .table key :: rest =>
    match d.openTable? key with
    | none => none
    | some d => (d.markArray key Text.empty false).takeIn? key rest
  | .row key :: rest =>
    match d.openRow? key with
    | none => none
    | some d => (d.markArray key Text.empty false).takeIn? key rest
  | .pair key value :: rest =>
    match d.evaluatePair? context (key, value) with
    | none => none
    | some (_, d) => d.takeIn? context rest

end Draft

/-! ### Files -/

/-- The contents of a file without a mark of the byte order in front. -/
def dropMark : Bytes → Bytes
  | 0xFF :: 0xFE :: rest => rest
  | 0xFE :: 0xFF :: rest => rest
  | 0xEF :: 0xBB :: 0xBF :: rest => rest
  | bs => bs

/-- Whether no control characters stand in a text but tabs and line breaks. -/
def isPlain : List Char → Bool
  | [] => true
  | c :: rest =>
    (if c = '\r' then rest.head? = some '\n'
      else c = '\t' || c = '\n' || (' ' ≤ c && c ≠ '\x7f')) && isPlain rest

/-- The document of a file, if the file is well formed. -/
def parse? (contents : Bytes) : Option Entries :=
  match (Text.glyphs ⟨dropMark contents⟩).mapM Glyph.char? with
  | none => none
  | some cs =>
    if isPlain cs then
      match statements? cs with
      | none => none
      | some statements => (Draft.empty.takeIn? [] statements).map Draft.root
    else none

end Toml

end ClassSharing
