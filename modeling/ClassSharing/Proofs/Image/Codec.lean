import ClassSharing.Proofs.Cbor.Fields

/-!
# Reading records back

Decoding undoes encoding for every record whose texts are valid and whose lists are within the
limit, except that an empty list that is left out comes back absent. `trimmed` is the record in
which such lists are absent already.

Each record is a list of optional items (`toItem_eq_ofFields`), so its round trip is one line for
each of its fields.

## Main definitions

* `Text.Storable`, `Image.Subgraph.Storable`, `Image.Directory.Storable`: what can be stored
* `Image.Subgraph.trimmed`, `Image.Directory.trimmed`: empty lists that are left out as absent ones

## Main results

* `Image.Subgraph.decode?_encode`, `Image.Directory.decode?_encode`: the round trips
-/

namespace ClassSharing

/-- A text that a record can hold. A length is a number of 64 bits in every process. -/
structure Text.Storable (t : Text) : Prop where
  valid : t.isUtf8 = true
  sized : t.length < 2 ^ 64

instance (t : Text) : Decidable t.Storable :=
  decidable_of_iff (t.isUtf8 = true ∧ t.length < 2 ^ 64)
    ⟨fun h => ⟨h.1, h.2⟩, fun h => ⟨h.valid, h.sized⟩⟩

namespace Image

open Cbor (Item Record fieldsFrom maxLength)

/-! ### Optional fields -/

/-- The item of a field that is left out when its value is zero. -/
def optional (isZero : Bool) (item : Item) : Option Item := if isZero then none else some item

/-- The item of a list that is left out when it is absent or empty. -/
def optionalList {α : Type} (toItem : α → Item) (xs : Option (List α)) : Option Item :=
  optional (xs.getD []).isEmpty (arrayOf toItem (xs.getD []))

@[simp] theorem fieldsFrom_nil (start : Nat) : fieldsFrom start [] = [] := rfl

@[simp] theorem fieldsFrom_some (start : Nat) (item : Item) (rest : List (Option Item)) :
    fieldsFrom start (some item :: rest) = always start item ++ fieldsFrom (start + 1) rest := rfl

@[simp] theorem fieldsFrom_optional (start : Nat) (isZero : Bool) (item : Item)
    (rest : List (Option Item)) :
    fieldsFrom start (optional isZero item :: rest)
      = omitting isZero start item ++ fieldsFrom (start + 1) rest := by
  cases isZero <;> rfl

@[simp] theorem fieldsFrom_optionalList {α : Type} (start : Nat) (toItem : α → Item)
    (xs : Option (List α)) (rest : List (Option Item)) :
    fieldsFrom start (optionalList toItem xs :: rest)
      = unlessEmpty start toItem xs ++ fieldsFrom (start + 1) rest :=
  fieldsFrom_optional ..

section Reading

variable {α : Type} {fields : List (Option Item)} {n : Nat} {item : Item} {default x : α}
  {read : Item → Option α}

/-- A field that is always written is read back. -/
theorem read_some (hfields : fields.length ≤ 5) (hn : n ≤ 5)
    (hfield : fields[n]? = some (some item)) (hread : read item = some x) :
    (Record.ofFields fields).read (n + 1) default read = some x := by
  rw [Cbor.Record.read_ofFields n default read (by omega) (by omega), hfield]
  exact hread

/-- A field that is always written is what is read. -/
theorem of_read_some (hfields : fields.length ≤ 5) (hn : n ≤ 5)
    (hfield : fields[n]? = some (some item))
    (hread : (Record.ofFields fields).read (n + 1) default read = some x) : read item = some x := by
  rw [Cbor.Record.read_ofFields n default read (by omega) (by omega), hfield] at hread
  exact hread

/-- A field that is left out when it is zero is read back, if zero is its default. -/
theorem read_optional {isZero : Bool} (hfields : fields.length ≤ 5) (hn : n ≤ 5)
    (hfield : fields[n]? = some (optional isZero item)) (hzero : isZero = true → default = x)
    (hread : read item = some x) : (Record.ofFields fields).read (n + 1) default read = some x := by
  rw [Cbor.Record.read_ofFields n default read (by omega) (by omega), hfield]
  cases isZero with
  | true => exact congrArg some (hzero rfl)
  | false => exact hread

/-- A list that is left out when it is empty is read back, absent if it is empty. -/
theorem read_optionalList {β : Type} {toItem : β → Item} {xs : Option (List β)} {f : β → α}
    (hfields : fields.length ≤ 5) (hn : n ≤ 5) (hfield : fields[n]? = some (optionalList toItem xs))
    (hread : ∀ y ∈ xs.getD [], read (toItem y) = some (f y)) :
    (Record.ofFields fields).read (n + 1) none (Item.toList? read)
      = some (presentList ((xs.getD []).map f)) := by
  rw [Cbor.Record.read_ofFields n none _ (by omega) (by omega), hfield, optionalList]
  cases hlist : xs.getD [] with
  | nil => rfl
  | cons y ys =>
    rw [hlist] at hread
    exact Cbor.Item.toList?_arrayOf hread

end Reading

/-! ### Lists -/

/-- A list that can be stored: an absent one, or one within the limit whose members can be. -/
structure ListStorable {α : Type} (storable : α → Prop) (xs : Option (List α)) : Prop where
  limited : (xs.getD []).length ≤ maxLength
  members : ∀ x ∈ xs.getD [], storable x

theorem listStorable_iff {α : Type} {storable : α → Prop} {xs : Option (List α)} :
    ListStorable storable xs ↔ (xs.getD []).length ≤ maxLength ∧ ∀ x ∈ xs.getD [], storable x :=
  ⟨fun h => ⟨h.limited, h.members⟩, fun h => ⟨h.1, h.2⟩⟩

instance {α : Type} (storable : α → Prop) [DecidablePred storable] (xs : Option (List α)) :
    Decidable (ListStorable storable xs) :=
  decidable_of_iff _ listStorable_iff.symm

/-- A list with its members changed, absent if it is empty. -/
def trimList {α : Type} (trim : α → α) (xs : Option (List α)) : Option (List α) :=
  presentList ((xs.getD []).map trim)

@[simp] theorem getD_presentList {α : Type} (xs : List α) : (presentList xs).getD [] = xs := by
  cases xs <;> rfl

theorem trimList_presentList {α : Type} {trim : α → α} {xs : List α} (h : ∀ x ∈ xs, trim x = x) :
    trimList trim (presentList xs) = presentList xs := by
  rw [trimList, getD_presentList, List.map_congr_left h, List.map_id']

@[simp] theorem trimList_id_presentList {α : Type} (xs : List α) :
    trimList id (presentList xs) = presentList xs :=
  trimList_presentList fun _ _ => rfl

theorem fits_optionalList {α : Type} {room : Nat} {toItem : α → Item} {storable : α → Prop}
    {xs : Option (List α)} {item : Item} (h : ListStorable storable xs)
    (hfits : ∀ x, storable x → (toItem x).Fits room) (hitem : some item = optionalList toItem xs) :
    item.Fits (room + 1) := by
  rw [optionalList, optional] at hitem
  split at hitem
  · cases hitem
  · obtain rfl := Option.some.inj hitem
    exact Item.fits_arrayOf h.limited fun x hx => hfits x (h.members x hx)

theorem fits_optional {room : Nat} {isZero : Bool} {item inner : Item} (hfits : inner.Fits room)
    (hitem : some item = optional isZero inner) : item.Fits room := by
  rw [optional] at hitem
  split at hitem
  · cases hitem
  · obtain rfl := Option.some.inj hitem
    exact hfits

/-! ### Values and fields -/

/-- A value that can be stored. -/
def ValueRecord.Storable (v : ValueRecord) : Prop := v.str.Storable

instance : DecidablePred ValueRecord.Storable := fun v =>
  inferInstanceAs (Decidable v.str.Storable)

/-- The optional items of a value. -/
def ValueRecord.items (v : ValueRecord) : List (Option Item) :=
  [some (.uint v.tag.toUInt64), optional (v.int = 0) (Item.ofInt64 v.int),
    optional v.str.isEmpty (Item.ofText v.str), optional (v.ref = 0) (Item.ofInt64 v.ref)]

theorem ValueRecord.toItem_eq_ofFields (v : ValueRecord) : v.toItem = Item.ofFields v.items := by
  simp [toItem, Item.ofFields, items]

theorem ValueRecord.ofItem?_toItem {v : ValueRecord} (h : v.Storable) :
    ofItem? v.toItem = some v := by
  have hlength : v.items.length ≤ 5 := by simp [items]
  have htag : (Record.ofFields v.items).read 1 0 Item.toUInt8? = some v.tag :=
    read_some hlength (by decide) rfl (Item.toUInt8?_uint v.tag)
  have hint : (Record.ofFields v.items).read 2 0 Item.toInt64? = some v.int :=
    read_optional hlength (by decide) rfl (fun hzero => (of_decide_eq_true hzero).symm)
      (Item.toInt64?_ofInt64 v.int)
  have hstr : (Record.ofFields v.items).read 3 Text.empty Item.toText? = some v.str :=
    read_optional hlength (by decide) rfl (fun hempty => (Text.isEmpty_iff.1 hempty).symm)
      (Item.toText?_ofText h.valid)
  have href : (Record.ofFields v.items).read 4 0 Item.toInt64? = some v.ref :=
    read_optional hlength (by decide) rfl (fun hzero => (of_decide_eq_true hzero).symm)
      (Item.toInt64?_ofInt64 v.ref)
  rw [ofItem?, toItem_eq_ofFields, Item.toRecord?_ofFields (by omega)]
  simp only [Option.bind_eq_bind, Option.bind_some, htag, hint, hstr, href]
  rfl

theorem ValueRecord.fits_toItem {v : ValueRecord} (h : v.Storable) : v.toItem.Fits 1 := by
  rw [toItem_eq_ofFields]
  refine Item.fits_ofFields (by simp [items, maxLength]) fun item hitem => ?_
  simp only [items, List.mem_cons, List.not_mem_nil, or_false, Option.some.injEq] at hitem
  rcases hitem with rfl | hitem | hitem | hitem
  · exact .uint 0 _
  · exact fits_optional (Item.fits_ofInt64 0 v.int) hitem
  · exact fits_optional (Item.fits_ofText 0 h.sized) hitem
  · exact fits_optional (Item.fits_ofInt64 0 v.ref) hitem

/-- A field that can be stored. -/
structure FieldRecord.Storable (f : FieldRecord) : Prop where
  name : f.name.Storable
  value : f.value.Storable

instance : DecidablePred FieldRecord.Storable := fun f =>
  decidable_of_iff (f.name.Storable ∧ f.value.Storable)
    ⟨fun h => ⟨h.1, h.2⟩, fun h => ⟨h.name, h.value⟩⟩

/-- The items of a field. -/
def FieldRecord.items (f : FieldRecord) : List (Option Item) :=
  [some (Item.ofText f.name), some f.value.toItem]

theorem FieldRecord.toItem_eq_ofFields (f : FieldRecord) : f.toItem = Item.ofFields f.items := by
  simp [toItem, Item.ofFields, items]

theorem FieldRecord.ofItem?_toItem {f : FieldRecord} (h : f.Storable) :
    ofItem? f.toItem = some f := by
  have hlength : f.items.length ≤ 5 := by simp [items]
  have hname : (Record.ofFields f.items).read 1 Text.empty Item.toText? = some f.name :=
    read_some hlength (by decide) rfl (Item.toText?_ofText h.name.valid)
  have hvalue : (Record.ofFields f.items).read 2 ValueRecord.nil ValueRecord.ofItem?
      = some f.value :=
    read_some hlength (by decide) rfl (ValueRecord.ofItem?_toItem h.value)
  rw [ofItem?, toItem_eq_ofFields, Item.toRecord?_ofFields (by omega)]
  simp only [Option.bind_eq_bind, Option.bind_some, hname, hvalue]
  rfl

theorem FieldRecord.fits_toItem {f : FieldRecord} (h : f.Storable) : f.toItem.Fits 2 := by
  rw [toItem_eq_ofFields]
  refine Item.fits_ofFields (by simp [items, maxLength]) fun item hitem => ?_
  simp only [items, List.mem_cons, List.not_mem_nil, or_false, Option.some.injEq] at hitem
  rcases hitem with rfl | rfl
  · exact Item.fits_ofText 1 h.name.sized
  · exact ValueRecord.fits_toItem h.value

/-! ### Objects -/

/-- An object that can be stored. -/
structure ObjectRecord.Storable (o : ObjectRecord) : Prop where
  className : o.className.Storable
  slots : ListStorable ValueRecord.Storable o.slots
  elements : ListStorable ValueRecord.Storable o.elements

instance : DecidablePred ObjectRecord.Storable := fun o =>
  decidable_of_iff (o.className.Storable ∧ ListStorable ValueRecord.Storable o.slots ∧
      ListStorable ValueRecord.Storable o.elements)
    ⟨fun h => ⟨h.1, h.2.1, h.2.2⟩, fun h => ⟨h.className, h.slots, h.elements⟩⟩

/-- The object with its empty lists absent. -/
def ObjectRecord.trimmed (o : ObjectRecord) : ObjectRecord :=
  { o with slots := trimList id o.slots, elements := trimList id o.elements }

/-- The optional items of an object. -/
def ObjectRecord.items (o : ObjectRecord) : List (Option Item) :=
  [some (Item.ofText o.className), optionalList ValueRecord.toItem o.slots,
    optional (!o.indexed) (Item.ofBool o.indexed), optionalList ValueRecord.toItem o.elements]

theorem ObjectRecord.toItem_eq_ofFields (o : ObjectRecord) : o.toItem = Item.ofFields o.items := by
  simp [toItem, Item.ofFields, items]

theorem ObjectRecord.ofItem?_toItem {o : ObjectRecord} (h : o.Storable) :
    ofItem? o.toItem = some o.trimmed := by
  have hlength : o.items.length ≤ 5 := by simp [items]
  have hname : (Record.ofFields o.items).read 1 Text.empty Item.toText? = some o.className :=
    read_some hlength (by decide) rfl (Item.toText?_ofText h.className.valid)
  have hslots : (Record.ofFields o.items).read 2 none (Item.toList? ValueRecord.ofItem?)
      = some (trimList id o.slots) :=
    read_optionalList hlength (by decide) rfl fun v hv =>
      ValueRecord.ofItem?_toItem (h.slots.members v hv)
  have hindexed : (Record.ofFields o.items).read 3 false Item.toBool? = some o.indexed :=
    read_optional hlength (by decide) rfl (fun hplain => (Bool.not_inj hplain).symm)
      (Item.toBool?_ofBool o.indexed)
  have helements : (Record.ofFields o.items).read 4 none (Item.toList? ValueRecord.ofItem?)
      = some (trimList id o.elements) :=
    read_optionalList hlength (by decide) rfl fun v hv =>
      ValueRecord.ofItem?_toItem (h.elements.members v hv)
  rw [ofItem?, toItem_eq_ofFields, Item.toRecord?_ofFields (by omega)]
  simp only [Option.bind_eq_bind, Option.bind_some, hname, hslots, hindexed, helements]
  rfl

theorem ObjectRecord.fits_toItem {o : ObjectRecord} (h : o.Storable) : o.toItem.Fits 3 := by
  rw [toItem_eq_ofFields]
  refine Item.fits_ofFields (by simp [items, maxLength]) fun item hitem => ?_
  simp only [items, List.mem_cons, List.not_mem_nil, or_false, Option.some.injEq] at hitem
  rcases hitem with rfl | hitem | hitem | hitem
  · exact Item.fits_ofText 2 h.className.sized
  · exact fits_optionalList h.slots (fun _ => ValueRecord.fits_toItem) hitem
  · exact fits_optional (Item.fits_ofBool 2 o.indexed) hitem
  · exact fits_optionalList h.elements (fun _ => ValueRecord.fits_toItem) hitem

/-! ### Subgraphs -/

/-- A subgraph that can be stored. -/
structure Subgraph.Storable (s : Subgraph) : Prop where
  className : s.className.Storable
  fields : ListStorable FieldRecord.Storable s.fields
  classes : ListStorable Text.Storable s.classes
  objects : ListStorable ObjectRecord.Storable s.objects

instance : DecidablePred Subgraph.Storable := fun s =>
  decidable_of_iff (s.className.Storable ∧ ListStorable FieldRecord.Storable s.fields ∧
      ListStorable Text.Storable s.classes ∧ ListStorable ObjectRecord.Storable s.objects)
    ⟨fun h => ⟨h.1, h.2.1, h.2.2.1, h.2.2.2⟩,
      fun h => ⟨h.className, h.fields, h.classes, h.objects⟩⟩

/-- The subgraph with the empty lists absent that are left out. The list of fields never is. -/
def Subgraph.trimmed (s : Subgraph) : Subgraph :=
  { s with classes := trimList id s.classes, objects := trimList ObjectRecord.trimmed s.objects }

/-- The item of the list of fields, which is null if the list is absent. -/
def Subgraph.fieldsItem (s : Subgraph) : Item :=
  match s.fields with
  | some fields => arrayOf FieldRecord.toItem fields
  | none => Item.null

/-- The optional items of a subgraph. -/
def Subgraph.items (s : Subgraph) : List (Option Item) :=
  [some (Item.ofText s.className), some s.fieldsItem, optionalList Item.ofText s.classes,
    optionalList ObjectRecord.toItem s.objects]

theorem Subgraph.toItem_eq_ofFields (s : Subgraph) : s.toItem = Item.ofFields s.items := by
  cases hfields : s.fields <;> simp [toItem, Item.ofFields, items, fieldsItem, hfields]

theorem Subgraph.toList?_fieldsItem {s : Subgraph} (h : s.Storable) :
    Item.toList? FieldRecord.ofItem? s.fieldsItem = some s.fields := by
  have hfields := h.fields.members
  rw [fieldsItem]
  cases hs : s.fields with
  | none => rfl
  | some fields =>
    rw [hs] at hfields
    have hlist := Item.toList?_arrayOf fun f hf => FieldRecord.ofItem?_toItem (hfields f hf)
    rw [List.map_id'] at hlist
    exact hlist

theorem Subgraph.ofItem?_toItem {s : Subgraph} (h : s.Storable) :
    ofItem? s.toItem = some s.trimmed := by
  have hlength : s.items.length ≤ 5 := by simp [items]
  have hname : (Record.ofFields s.items).read 1 Text.empty Item.toText? = some s.className :=
    read_some hlength (by decide) rfl (Item.toText?_ofText h.className.valid)
  have hfields : (Record.ofFields s.items).read 2 none (Item.toList? FieldRecord.ofItem?)
      = some s.fields :=
    read_some hlength (by decide) rfl (toList?_fieldsItem h)
  have hclasses : (Record.ofFields s.items).read 3 none toTexts? = some (trimList id s.classes) :=
    read_optionalList hlength (by decide) rfl fun t ht =>
      Item.toText?_ofText (h.classes.members t ht).valid
  have hobjects : (Record.ofFields s.items).read 4 none (Item.toList? ObjectRecord.ofItem?)
      = some (trimList ObjectRecord.trimmed s.objects) :=
    read_optionalList hlength (by decide) rfl fun o ho =>
      ObjectRecord.ofItem?_toItem (h.objects.members o ho)
  rw [ofItem?, toItem_eq_ofFields, Item.toRecord?_ofFields (by omega)]
  simp only [Option.bind_eq_bind, Option.bind_some, hname, hfields, hclasses, hobjects]
  rfl

theorem Subgraph.fits_fieldsItem {s : Subgraph} (h : s.Storable) : s.fieldsItem.Fits 4 := by
  have hlimited := h.fields.limited
  have hmembers := h.fields.members
  rw [fieldsItem]
  cases hs : s.fields with
  | none => exact .simple 4 (by decide)
  | some fields =>
    rw [hs] at hlimited hmembers
    exact Item.fits_arrayOf hlimited fun f hf =>
      (FieldRecord.fits_toItem (hmembers f hf)).mono (by decide)

theorem Subgraph.fits_toItem {s : Subgraph} (h : s.Storable) : s.toItem.Fits 5 := by
  rw [toItem_eq_ofFields]
  refine Item.fits_ofFields (by simp [items, maxLength]) fun item hitem => ?_
  simp only [items, List.mem_cons, List.not_mem_nil, or_false, Option.some.injEq] at hitem
  rcases hitem with rfl | rfl | hitem | hitem
  · exact Item.fits_ofText 4 h.className.sized
  · exact fits_fieldsItem h
  · exact fits_optionalList h.classes (fun _ ht => Item.fits_ofText 3 ht.sized) hitem
  · exact fits_optionalList h.objects (fun _ => ObjectRecord.fits_toItem) hitem

/-- **Decoding undoes encoding**, but for empty lists that are left out. -/
theorem Subgraph.decode?_encode {s : Subgraph} (h : s.Storable) :
    decode? s.encode = some s.trimmed := by
  rw [decode?, encode, Cbor.parse_encode ((fits_toItem h).mono (by decide)), Option.bind_some,
    ofItem?_toItem h]

/-! ### Parts of directories -/

/-- A build that can be stored. -/
structure BuildStorable (b : Build) : Prop where
  release : b.release.Storable
  debugLevel : b.debugLevel.Storable
  vmInfo : b.vmInfo.Storable

instance (b : Build) : Decidable (BuildStorable b) :=
  decidable_of_iff (b.release.Storable ∧ b.debugLevel.Storable ∧ b.vmInfo.Storable)
    ⟨fun h => ⟨h.1, h.2.1, h.2.2⟩, fun h => ⟨h.release, h.debugLevel, h.vmInfo⟩⟩

/-- The items of a build. -/
def buildItems (b : Build) : List (Option Item) :=
  [some (Item.ofText b.release), some (Item.ofText b.debugLevel), some (Item.ofText b.vmInfo),
    some (Item.ofInt64 b.major)]

theorem buildToItem_eq_ofFields (b : Build) : buildToItem b = Item.ofFields (buildItems b) := by
  simp [buildToItem, Item.ofFields, buildItems]

theorem buildOfItem?_buildToItem {b : Build} (h : BuildStorable b) :
    buildOfItem? (buildToItem b) = some b := by
  have hlength : (buildItems b).length ≤ 5 := by simp [buildItems]
  have hrelease : (Record.ofFields (buildItems b)).read 1 Text.empty Item.toText?
      = some b.release :=
    read_some hlength (by decide) rfl (Item.toText?_ofText h.release.valid)
  have hdebug : (Record.ofFields (buildItems b)).read 2 Text.empty Item.toText?
      = some b.debugLevel :=
    read_some hlength (by decide) rfl (Item.toText?_ofText h.debugLevel.valid)
  have hinfo : (Record.ofFields (buildItems b)).read 3 Text.empty Item.toText? = some b.vmInfo :=
    read_some hlength (by decide) rfl (Item.toText?_ofText h.vmInfo.valid)
  have hmajor : (Record.ofFields (buildItems b)).read 4 0 Item.toInt64? = some b.major :=
    read_some hlength (by decide) rfl (Item.toInt64?_ofInt64 b.major)
  rw [buildOfItem?, buildToItem_eq_ofFields, Item.toRecord?_ofFields (by omega)]
  simp only [Option.bind_eq_bind, Option.bind_some, hrelease, hdebug, hinfo, hmajor]
  rfl

theorem fits_buildToItem {b : Build} (h : BuildStorable b) : (buildToItem b).Fits 1 := by
  rw [buildToItem_eq_ofFields]
  refine Item.fits_ofFields (by simp [buildItems, maxLength]) fun item hitem => ?_
  simp only [buildItems, List.mem_cons, List.not_mem_nil, or_false, Option.some.injEq] at hitem
  rcases hitem with rfl | rfl | rfl | rfl
  · exact Item.fits_ofText 0 h.release.sized
  · exact Item.fits_ofText 0 h.debugLevel.sized
  · exact Item.fits_ofText 0 h.vmInfo.sized
  · exact Item.fits_ofInt64 0 b.major

/-- A module that can be stored. -/
structure ModuleRecord.Storable (m : ModuleRecord) : Prop where
  name : m.name.Storable
  loader : m.loader.Storable
  packages : ListStorable Text.Storable m.packages

instance : DecidablePred ModuleRecord.Storable := fun m =>
  decidable_of_iff (m.name.Storable ∧ m.loader.Storable ∧ ListStorable Text.Storable m.packages)
    ⟨fun h => ⟨h.1, h.2.1, h.2.2⟩, fun h => ⟨h.name, h.loader, h.packages⟩⟩

/-- The module with an empty list of packages absent. -/
def ModuleRecord.trimmed (m : ModuleRecord) : ModuleRecord :=
  { m with packages := trimList id m.packages }

/-- The optional items of a module. -/
def ModuleRecord.items (m : ModuleRecord) : List (Option Item) :=
  [some (Item.ofText m.name), some (Item.ofText m.loader), optionalList Item.ofText m.packages]

theorem ModuleRecord.toItem_eq_ofFields (m : ModuleRecord) : m.toItem = Item.ofFields m.items := by
  simp [toItem, Item.ofFields, items]

theorem ModuleRecord.ofItem?_toItem {m : ModuleRecord} (h : m.Storable) :
    ofItem? m.toItem = some m.trimmed := by
  have hlength : m.items.length ≤ 5 := by simp [items]
  have hname : (Record.ofFields m.items).read 1 Text.empty Item.toText? = some m.name :=
    read_some hlength (by decide) rfl (Item.toText?_ofText h.name.valid)
  have hloader : (Record.ofFields m.items).read 2 Text.empty Item.toText? = some m.loader :=
    read_some hlength (by decide) rfl (Item.toText?_ofText h.loader.valid)
  have hpackages : (Record.ofFields m.items).read 3 none toTexts?
      = some (trimList id m.packages) :=
    read_optionalList hlength (by decide) rfl fun t ht =>
      Item.toText?_ofText (h.packages.members t ht).valid
  rw [ofItem?, toItem_eq_ofFields, Item.toRecord?_ofFields (by omega)]
  simp only [Option.bind_eq_bind, Option.bind_some, hname, hloader, hpackages]
  rfl

theorem ModuleRecord.fits_toItem {m : ModuleRecord} (h : m.Storable) : m.toItem.Fits 2 := by
  rw [toItem_eq_ofFields]
  refine Item.fits_ofFields (by simp [items, maxLength]) fun item hitem => ?_
  simp only [items, List.mem_cons, List.not_mem_nil, or_false, Option.some.injEq] at hitem
  rcases hitem with rfl | rfl | hitem
  · exact Item.fits_ofText 1 h.name.sized
  · exact Item.fits_ofText 1 h.loader.sized
  · exact fits_optionalList h.packages (fun _ ht => Item.fits_ofText 0 ht.sized) hitem

/-- A directory entry that can be stored. -/
def SubgraphEntry.Storable (e : SubgraphEntry) : Prop := e.className.Storable

instance : DecidablePred SubgraphEntry.Storable := fun e =>
  inferInstanceAs (Decidable e.className.Storable)

/-- The items of a directory entry. -/
def SubgraphEntry.items (e : SubgraphEntry) : List (Option Item) :=
  [some (Item.ofText e.className), some (.uint e.offset), some (.uint e.length),
    some (.uint e.checksum), some (Item.ofInt64 e.objects)]

theorem SubgraphEntry.toItem_eq_ofFields (e : SubgraphEntry) :
    e.toItem = Item.ofFields e.items := by
  simp [toItem, Item.ofFields, items]

theorem SubgraphEntry.ofItem?_toItem {e : SubgraphEntry} (h : e.Storable) :
    ofItem? e.toItem = some e := by
  have hlength : e.items.length ≤ 5 := by simp [items]
  have hname : (Record.ofFields e.items).read 1 Text.empty Item.toText? = some e.className :=
    read_some hlength (by decide) rfl (Item.toText?_ofText h.valid)
  have hoffset : (Record.ofFields e.items).read 2 0 Item.toUInt64? = some e.offset :=
    read_some hlength (by decide) rfl (Item.toUInt64?_uint e.offset)
  have hbytes : (Record.ofFields e.items).read 3 0 Item.toUInt64? = some e.length :=
    read_some hlength (by decide) rfl (Item.toUInt64?_uint e.length)
  have hsum : (Record.ofFields e.items).read 4 0 Item.toUInt64? = some e.checksum :=
    read_some hlength (by decide) rfl (Item.toUInt64?_uint e.checksum)
  have hobjects : (Record.ofFields e.items).read 5 0 Item.toInt64? = some e.objects :=
    read_some hlength (by decide) rfl (Item.toInt64?_ofInt64 e.objects)
  rw [ofItem?, toItem_eq_ofFields, Item.toRecord?_ofFields (by omega)]
  simp only [Option.bind_eq_bind, Option.bind_some, hname, hoffset, hbytes, hsum, hobjects]
  rfl

theorem SubgraphEntry.fits_toItem {e : SubgraphEntry} (h : e.Storable) : e.toItem.Fits 2 := by
  rw [toItem_eq_ofFields]
  refine Item.fits_ofFields (by simp [items, maxLength]) fun item hitem => ?_
  simp only [items, List.mem_cons, List.not_mem_nil, or_false, Option.some.injEq] at hitem
  rcases hitem with rfl | rfl | rfl | rfl | rfl
  · exact Item.fits_ofText 1 h.sized
  · exact .uint 1 _
  · exact .uint 1 _
  · exact .uint 1 _
  · exact Item.fits_ofInt64 1 e.objects

/-! ### Directories -/

/-- A directory that can be stored. -/
structure Directory.Storable (d : Directory) : Prop where
  build : BuildStorable d.build
  modules : ListStorable ModuleRecord.Storable d.modules
  classes : ListStorable Text.Storable d.classes
  subgraphs : ListStorable SubgraphEntry.Storable d.subgraphs

instance : DecidablePred Directory.Storable := fun d =>
  decidable_of_iff (BuildStorable d.build ∧ ListStorable ModuleRecord.Storable d.modules ∧
      ListStorable Text.Storable d.classes ∧ ListStorable SubgraphEntry.Storable d.subgraphs)
    ⟨fun h => ⟨h.1, h.2.1, h.2.2.1, h.2.2.2⟩,
      fun h => ⟨h.build, h.modules, h.classes, h.subgraphs⟩⟩

/-- The directory with its empty lists absent. -/
def Directory.trimmed (d : Directory) : Directory :=
  { d with
    modules := trimList ModuleRecord.trimmed d.modules
    classes := trimList id d.classes
    subgraphs := trimList id d.subgraphs }

/-- The optional items of a directory. -/
def Directory.items (d : Directory) : List (Option Item) :=
  [some (buildToItem d.build), some (Item.ofInt64 d.seed),
    optionalList ModuleRecord.toItem d.modules, optionalList Item.ofText d.classes,
    optionalList SubgraphEntry.toItem d.subgraphs]

theorem Directory.toItem_eq_ofFields (d : Directory) : d.toItem = Item.ofFields d.items := by
  simp [toItem, Item.ofFields, items]

theorem Directory.ofItem?_toItem {d : Directory} (h : d.Storable) :
    ofItem? d.toItem = some d.trimmed := by
  have hlength : d.items.length ≤ 5 := by simp [items]
  have hbuild : (Record.ofFields d.items).read 1 ⟨Text.empty, Text.empty, Text.empty, 0⟩
      buildOfItem? = some d.build :=
    read_some hlength (by decide) rfl (buildOfItem?_buildToItem h.build)
  have hseed : (Record.ofFields d.items).read 2 0 Item.toInt64? = some d.seed :=
    read_some hlength (by decide) rfl (Item.toInt64?_ofInt64 d.seed)
  have hmodules : (Record.ofFields d.items).read 3 none (Item.toList? ModuleRecord.ofItem?)
      = some (trimList ModuleRecord.trimmed d.modules) :=
    read_optionalList hlength (by decide) rfl fun m hm =>
      ModuleRecord.ofItem?_toItem (h.modules.members m hm)
  have hclasses : (Record.ofFields d.items).read 4 none toTexts? = some (trimList id d.classes) :=
    read_optionalList hlength (by decide) rfl fun t ht =>
      Item.toText?_ofText (h.classes.members t ht).valid
  have hsubgraphs : (Record.ofFields d.items).read 5 none (Item.toList? SubgraphEntry.ofItem?)
      = some (trimList id d.subgraphs) :=
    read_optionalList hlength (by decide) rfl fun e he =>
      SubgraphEntry.ofItem?_toItem (h.subgraphs.members e he)
  rw [ofItem?, toItem_eq_ofFields, Item.toRecord?_ofFields (by omega)]
  simp only [Option.bind_eq_bind, Option.bind_some, hbuild, hseed, hmodules, hclasses, hsubgraphs]
  rfl

theorem Directory.fits_toItem {d : Directory} (h : d.Storable) : d.toItem.Fits 4 := by
  rw [toItem_eq_ofFields]
  refine Item.fits_ofFields (by simp [items, maxLength]) fun item hitem => ?_
  simp only [items, List.mem_cons, List.not_mem_nil, or_false, Option.some.injEq] at hitem
  rcases hitem with rfl | rfl | hitem | hitem | hitem
  · exact (fits_buildToItem h.build).mono (by decide)
  · exact Item.fits_ofInt64 3 d.seed
  · exact fits_optionalList h.modules (fun _ => ModuleRecord.fits_toItem) hitem
  · exact fits_optionalList h.classes (fun _ ht => Item.fits_ofText 2 ht.sized) hitem
  · exact fits_optionalList h.subgraphs (fun _ => SubgraphEntry.fits_toItem) hitem

/-- **Decoding undoes encoding**, but for empty lists that are left out. -/
theorem Directory.decode?_encode {d : Directory} (h : d.Storable) :
    decode? d.encode = some d.trimmed := by
  rw [decode?, encode, Cbor.parse_encode ((fits_toItem h).mono (by decide)), Option.bind_some,
    ofItem?_toItem h]

end Image

end ClassSharing
