import ClassSharing.Text.Basic

/-!
# Tables sorted by name

A finite map from names to values, kept as a list of entries in strictly ascending byte-wise order
of the names. Since the order is part of the representation, a table does not remember in which
order its entries were made, and every listing of it is sorted.

## Main definitions

* `Table`: the type, with `Table.empty`
* `Table.get?`, `Table.insert`: look up a name, bind a name
* `Table.keys`, `Table.values`: the names and the values in ascending order of the names

## Main results

* `Table.get?_insert`: what a look-up finds after an insertion
-/

namespace ClassSharing

/-- A finite map from names to values. -/
structure Table (α : Type) where
  /-- The entries in ascending order of their names. -/
  entries : List (Text × α)
deriving DecidableEq

namespace Table

variable {α : Type}

/-- The table without entries. -/
def empty : Table α := ⟨[]⟩

instance : Inhabited (Table α) := ⟨empty⟩

/-- The value bound to a name in a list of entries. -/
def find? (name : Text) : List (Text × α) → Option α
  | [] => none
  | (k, v) :: rest => if k = name then some v else find? name rest

/-- The value bound to a name. -/
def get? (t : Table α) (name : Text) : Option α := find? name t.entries

/-- Whether a name is bound. -/
def contains (t : Table α) (name : Text) : Bool := (t.get? name).isSome

/-- Binds a name in a list of entries: replaces its value, or puts a new entry at its place. -/
def place (name : Text) (value : α) : List (Text × α) → List (Text × α)
  | [] => [(name, value)]
  | (k, v) :: rest =>
    if k = name then (k, value) :: rest
    else if name.precedes k then (name, value) :: (k, v) :: rest
    else (k, v) :: place name value rest

/-- Binds a name to a value, replacing the value it had. -/
def insert (t : Table α) (name : Text) (value : α) : Table α := ⟨place name value t.entries⟩

/-- The bound names, ascending. -/
def keys (t : Table α) : List Text := t.entries.map Prod.fst

/-- The values in ascending order of their names. -/
def values (t : Table α) : List α := t.entries.map Prod.snd

/-- The number of entries. -/
def size (t : Table α) : Nat := t.entries.length

/-- The table of a list of bindings; of several bindings of one name the last counts. -/
def ofList (bindings : List (Text × α)) : Table α :=
  bindings.foldl (fun t b => t.insert b.1 b.2) empty

@[simp] theorem get?_empty (name : Text) : (empty : Table α).get? name = none := rfl

theorem find?_place (name other : Text) (value : α) (entries : List (Text × α)) :
    find? other (place name value entries)
      = if other = name then some value else find? other entries := by
  induction entries with
  | nil =>
    by_cases h : other = name
    · simp [place, find?, h]
    · simp [place, find?, h, Ne.symm h]
  | cons e rest ih =>
    obtain ⟨k, v⟩ := e
    by_cases hk : k = name
    · subst hk
      by_cases h : other = k
      · simp [place, find?, h]
      · simp [place, find?, h, Ne.symm h]
    · by_cases hp : name.precedes k = true
      · by_cases h : other = name
        · simp [place, find?, hk, hp, h]
        · simp [place, find?, hk, hp, h, Ne.symm h]
      · by_cases h : other = name
        · subst h
          simp [place, find?, hk, hp, ih]
        · simp [place, find?, hk, hp, ih, h]

/-- A look-up after an insertion finds the new value under its name and the old ones elsewhere. -/
theorem get?_insert (t : Table α) (name other : Text) (value : α) :
    (t.insert name value).get? other = if other = name then some value else t.get? other :=
  find?_place name other value t.entries

end Table

end ClassSharing
