import ClassSharing.Value

/-!
# Static fields

The static fields of a class, in the order of their declaration, each with its value. A field that
was never declared can be read, as nil, but not written.

## Main definitions

* `Statics`: the fields with their values
* `Statics.declare`, `Statics.get`, `Statics.set?`, `Statics.setAll?`

## Main results

* `Statics.get_write`: what is read after a write
* `Statics.names_write`: writing declares nothing
-/

namespace ClassSharing

/-- The static fields of a class. -/
structure Statics where
  /-- The fields in declaration order. -/
  fields : List (Text × Value)
deriving DecidableEq, Inhabited

namespace Statics

/-- A class without static fields. -/
def none : Statics := ⟨[]⟩

/-- The declared names, in declaration order. -/
def names (s : Statics) : List Text := s.fields.map Prod.fst

/-- Whether a name is declared. -/
def has (s : Statics) (name : Text) : Bool := s.names.contains name

/-- The value of the first field of a name. -/
def valueIn (name : Text) : List (Text × Value) → Value
  | [] => .nil
  | (k, v) :: rest => if k = name then v else valueIn name rest

/-- The value of a field, nil if it is not declared. -/
def get (s : Statics) (name : Text) : Value := valueIn name s.fields

/-- Declares a name with the value nil, unless it is declared already. -/
def declareOne (s : Statics) (name : Text) : Statics :=
  if s.has name then s else ⟨s.fields ++ [(name, .nil)]⟩

/-- Declares names in order. -/
def declare (s : Statics) (names : List Text) : Statics := names.foldl declareOne s

/-- Replaces the value of a declared field; without the field, nothing changes. -/
def write (s : Statics) (name : Text) (value : Value) : Statics :=
  ⟨s.fields.map fun (k, v) => if k = name then (k, value) else (k, v)⟩

/-- Writes fields in order. -/
def writeAll (s : Statics) (values : List (Text × Value)) : Statics :=
  values.foldl (fun s kv => s.write kv.1 kv.2) s

/-- The first name of a list of bindings that is not declared. -/
def undeclared? (s : Statics) (values : List (Text × Value)) : Option Text :=
  (values.find? fun kv => !s.has kv.1).map Prod.fst

/-- Assigns a declared field. -/
def set? (s : Statics) (name : Text) (value : Value) : Option Statics :=
  if s.has name then some (s.write name value) else Option.none

/-- Assigns several fields together: all of them, or, if one is not declared, none. -/
def setAll? (s : Statics) (values : List (Text × Value)) : Except Text Statics :=
  match s.undeclared? values with
  | some name => .error name
  | Option.none => .ok (s.writeAll values)

@[simp] theorem names_write (s : Statics) (name : Text) (value : Value) :
    (s.write name value).names = s.names := by
  simp only [names, write, List.map_map]
  apply List.map_congr_left
  rintro ⟨k, v⟩ -
  simp only [Function.comp_apply]
  split <;> rfl

theorem valueIn_write (name other : Text) (value : Value) (fields : List (Text × Value)) :
    valueIn other (fields.map fun (k, v) => if k = name then (k, value) else (k, v))
      = if other = name ∧ other ∈ fields.map Prod.fst then value else valueIn other fields := by
  induction fields with
  | nil => simp [valueIn]
  | cons e rest ih =>
    obtain ⟨k, v⟩ := e
    by_cases hk : k = name
    · by_cases ho : k = other
      · subst hk; subst ho; simp [valueIn]
      · subst hk
        simp [valueIn, ih, ho, Ne.symm ho]
    · by_cases ho : k = other
      · subst ho; simp [valueIn, hk]
      · have hm : other ∈ ((k, v) :: rest).map Prod.fst ↔ other ∈ rest.map Prod.fst := by
          simp [Ne.symm ho]
        simp only [hm]
        simp [valueIn, hk, ho, ih]

/-- Reading a field after writing one. -/
theorem get_write (s : Statics) (name other : Text) (value : Value) :
    (s.write name value).get other
      = if other = name ∧ other ∈ s.names then value else s.get other :=
  valueIn_write name other value s.fields

end Statics

end ClassSharing
