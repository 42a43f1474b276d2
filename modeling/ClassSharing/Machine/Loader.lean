import ClassSharing.Machine.Class
import ClassSharing.Table

/-!
# Modules and loaders

A module is a named group of packages. A loader has a table of its modules by name and a table of
the modules that own packages. Defining a module enters it in both tables; a package that a module
of another name owns is a conflict, and then nothing is entered.

## Main definitions

* `Module`, `Module.ofSpec`
* `Loader`: the two tables of a loader
* `Loader.conflict?`: the first package of a module that another module owns
* `Loader.enter`: the tables with a module entered
-/

namespace ClassSharing

/-- The position of a module in the list of all modules ever made. -/
abbrev ModuleId := Nat

/-- A named group of packages. -/
structure Module where
  name : Text
  /-- The packages in byte-wise order, repetitions kept. -/
  packages : List Text
  /-- The loader that the module is linked to. -/
  loader : Option LoaderKind
deriving DecidableEq, Inhabited

/-- A module that is not linked yet. -/
def Module.unlinked (name : Text) (packages : List Text) : Module :=
  ⟨name, Text.sorted packages, none⟩

/-- The tables of a loader. -/
structure Loader where
  /-- The modules by name. -/
  modules : Table ModuleId
  /-- The owners of the packages. -/
  packages : Table ModuleId
deriving DecidableEq

namespace Loader

/-- A loader without modules. -/
def empty : Loader := ⟨Table.empty, Table.empty⟩

instance : Inhabited Loader := ⟨empty⟩

/-- The first of some packages that is owned by a module of another name, with that name. -/
def conflict? (l : Loader) (nameOf : ModuleId → Text) (name : Text) :
    List Text → Option (Text × Text)
  | [] => none
  | p :: rest =>
    match l.packages.get? p with
    | some owner =>
      if nameOf owner = name then l.conflict? nameOf name rest else some (p, nameOf owner)
    | none => l.conflict? nameOf name rest

/-- The loader with a module entered under its name and as the owner of its packages. -/
def enter (l : Loader) (id : ModuleId) (name : Text) (packages : List Text) : Loader :=
  { modules := l.modules.insert name id
    packages := packages.foldl (fun t p => t.insert p id) l.packages }

end Loader

end ClassSharing
