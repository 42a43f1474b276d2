import ClassSharing.Proofs.Cbor.Exactness
import ClassSharing.Proofs.Image.Codec

/-!
# Which records are read back

Encoding does not ask whether a record can be stored: a text that is not valid and a list that is
too long are written like any other. Decoding does ask. So the records that are read back are
exactly those that can be stored, and every other record is refused by the decoder after it was
written without a complaint.

What the decoder asks of a record is spread over two places. The limits on lists and lengths are
those of the reader of items (`Cbor.Item.Fits`), and the texts are checked when the items are
understood as the fields of a record. A field of a record that was read satisfies both.

## Main results

* `Image.Subgraph.decode?_encode_eq_some_iff`, `Image.Directory.decode?_encode_eq_some_iff`: which
  records are read back, and as what
* `Image.storable_records_read_back`: decoding undoes encoding, and which empty lists become absent
-/

namespace ClassSharing

namespace Cbor

open Image

/-! ### Items of records -/

theorem Item.plain_ofInt64 (n : Int64) : (Item.ofInt64 n).Plain := by
  rw [Item.ofInt64]
  split
  · exact .nint _
  · exact .uint _

theorem Item.plain_ofText (t : Text) : (Item.ofText t).Plain := .text t.bytes

theorem Item.plain_ofBool (b : Bool) : (Item.ofBool b).Plain := by
  cases b
  · exact .simple (by decide)
  · exact .simple (by decide)

theorem Item.plain_arrayOf {α : Type} {toItem : α → Item} {xs : List α}
    (h : ∀ x ∈ xs, (toItem x).Plain) : (arrayOf toItem xs).Plain := by
  refine .array fun item hitem => ?_
  obtain ⟨x, hx, rfl⟩ := List.mem_map.1 hitem
  exact h x hx

theorem Item.plain_ofFields {fields : List (Option Item)}
    (h : ∀ item, some item ∈ fields → item.Plain) : (Item.ofFields fields).Plain := by
  refine .map (by rw [length_fieldsFrom]; omega) fun item hitem => ?_
  rcases mem_fieldsFrom hitem with ⟨n, rfl⟩ | hmem
  · exact .uint n
  · exact h item hmem

theorem mem_fieldsFrom_of_mem {start : Nat} {fields : List (Option Item)} {item : Item}
    (h : some item ∈ fields) : item ∈ fieldsFrom start fields := by
  induction fields generalizing start with
  | nil => cases h
  | cons field rest ih =>
    cases field with
    | none =>
      rcases List.mem_cons.1 h with h | h
      · cases h
      · exact ih h
    | some first =>
      rcases List.mem_cons.1 h with h | h
      · rw [Option.some.inj h]
        exact List.mem_cons_of_mem _ List.mem_cons_self
      · exact List.mem_cons_of_mem _ (List.mem_cons_of_mem _ (ih h))

/-! ### What fits -/

section Fits

variable {room : Nat}

theorem Item.Fits.of_ofFields {fields : List (Option Item)} {item : Item}
    (h : (Item.ofFields fields).Fits room) (hitem : some item ∈ fields) : item.Fits room := by
  cases h with
  | map _ _ members => exact (members item (mem_fieldsFrom_of_mem hitem)).mono (Nat.le_succ _)

theorem Item.Fits.of_arrayOf {α : Type} {toItem : α → Item} {xs : List α}
    (h : (arrayOf toItem xs).Fits room) :
    xs.length ≤ maxLength ∧ ∀ x ∈ xs, (toItem x).Fits room := by
  cases h with
  | array limited members =>
    refine ⟨by rwa [List.length_map] at limited, fun x hx => ?_⟩
    exact (members _ (List.mem_map_of_mem hx)).mono (Nat.le_succ _)

theorem Item.Fits.of_ofText {t : Text} (h : (Item.ofText t).Fits room) : t.length < 2 ^ 64 := by
  cases h with
  | text _ sized => exact sized

end Fits

theorem exists_of_mapM_map_eq_some {α β : Type} {toItem : α → Item} {read : Item → Option β}
    {xs : List α} {ys : List β} (h : (xs.map toItem).mapM read = some ys) :
    ∀ x ∈ xs, ∃ y, read (toItem x) = some y := by
  induction xs generalizing ys with
  | nil => simp
  | cons x xs ih =>
    rw [List.map_cons, List.mapM_cons] at h
    obtain ⟨y, hy, hrest⟩ := Option.bind_eq_some_iff.1 h
    obtain ⟨ys', hys', -⟩ := Option.bind_eq_some_iff.1 hrest
    exact List.forall_mem_cons.2 ⟨⟨y, hy⟩, ih hys'⟩

/-- Members of a list that is read are read one by one. -/
theorem Item.exists_of_toList?_arrayOf {α β : Type} {toItem : α → Item} {read : Item → Option β}
    {xs : List α} {ys : Option (List β)} (h : Item.toList? read (arrayOf toItem xs) = some ys) :
    ∀ x ∈ xs, ∃ y, read (toItem x) = some y := by
  rw [Item.toList?, arrayOf, Item.toItems?] at h
  obtain ⟨members, hmembers, -⟩ := Option.map_eq_some_iff.1 h
  exact exists_of_mapM_map_eq_some hmembers

end Cbor

namespace Image

open Cbor (Item Record maxLength)

/-! ### Fields that were read

A record that fits and is understood has fields that can be stored, since each of them fits and was
understood as well. -/

theorem plain_optional {isZero : Bool} {item inner : Item} (h : inner.Plain)
    (hitem : some item = optional isZero inner) : item.Plain := by
  rw [optional] at hitem
  split at hitem
  · cases hitem
  · rwa [Option.some.inj hitem]

theorem plain_optionalList {α : Type} {toItem : α → Item} {xs : Option (List α)} {item : Item}
    (h : ∀ x, (toItem x).Plain) (hitem : some item = optionalList toItem xs) : item.Plain :=
  plain_optional (Item.plain_arrayOf fun x _ => h x) hitem

section Reading

variable {fields : List (Option Item)} {n room : Nat}

theorem text_storable {t t' : Text} (hfits : (Item.ofText t).Fits room)
    (hread : (Item.ofText t).toText? = some t') : t.Storable :=
  ⟨Item.isUtf8_of_toText?_ofText hread, hfits.of_ofText⟩

/-- A text that is always written. -/
theorem text_storable_of_read {t t' default : Text} (hfields : fields.length ≤ 5) (hn : n ≤ 5)
    (hfits : (Item.ofFields fields).Fits room) (hfield : fields[n]? = some (some (Item.ofText t)))
    (hread : (Record.ofFields fields).read (n + 1) default Item.toText? = some t') : t.Storable :=
  text_storable (hfits.of_ofFields (List.mem_of_getElem? hfield))
    (of_read_some hfields hn hfield hread)

/-- A text that is left out when it is empty. -/
theorem optionalText_storable_of_read {t t' default : Text} (hfields : fields.length ≤ 5)
    (hn : n ≤ 5) (hfits : (Item.ofFields fields).Fits room)
    (hfield : fields[n]? = some (optional t.isEmpty (Item.ofText t)))
    (hread : (Record.ofFields fields).read (n + 1) default Item.toText? = some t') :
    t.Storable := by
  cases hempty : t.isEmpty with
  | true =>
    rw [Text.isEmpty_iff.1 hempty]
    decide
  | false =>
    rw [hempty] at hfield
    exact text_storable_of_read hfields hn hfits hfield hread

theorem listStorable_arrayOf {α β : Type} {toItem : α → Item} {read : Item → Option β}
    {storable : α → Prop} {xs : List α} {ys : Option (List β)}
    (hmember : ∀ x y, (toItem x).Fits room → read (toItem x) = some y → storable x)
    (hfits : (arrayOf toItem xs).Fits room)
    (hread : Item.toList? read (arrayOf toItem xs) = some ys) :
    ListStorable storable (some xs) := by
  obtain ⟨hlimit, hmembers⟩ := hfits.of_arrayOf
  refine ⟨hlimit, fun x hx => ?_⟩
  obtain ⟨y, hy⟩ := Item.exists_of_toList?_arrayOf hread x hx
  exact hmember x y (hmembers x hx) hy

/-- A list that is left out when it is empty. -/
theorem listStorable_of_read {α β : Type} {toItem : α → Item} {read : Item → Option β}
    {storable : α → Prop} {xs : Option (List α)} {default ys : Option (List β)}
    (hmember : ∀ x y, (toItem x).Fits room → read (toItem x) = some y → storable x)
    (hfields : fields.length ≤ 5) (hn : n ≤ 5) (hfits : (Item.ofFields fields).Fits room)
    (hfield : fields[n]? = some (optionalList toItem xs))
    (hread : (Record.ofFields fields).read (n + 1) default (Item.toList? read) = some ys) :
    ListStorable storable xs := by
  have hlist : ListStorable storable (some (xs.getD [])) := by
    rw [optionalList] at hfield
    cases hxs : xs.getD [] with
    | nil => exact ⟨Nat.zero_le _, by simp⟩
    | cons x rest =>
      rw [hxs] at hfield
      exact listStorable_arrayOf hmember (hfits.of_ofFields (List.mem_of_getElem? hfield))
        (of_read_some hfields hn hfield hread)
  exact ⟨hlist.limited, hlist.members⟩

end Reading

section Records

variable {room : Nat}

/-! ### Values, fields and objects -/

theorem ValueRecord.plain_toItem (v : ValueRecord) : v.toItem.Plain := by
  rw [toItem_eq_ofFields]
  refine Item.plain_ofFields fun item hitem => ?_
  simp only [items, List.mem_cons, List.not_mem_nil, or_false, Option.some.injEq] at hitem
  rcases hitem with rfl | hitem | hitem | hitem
  · exact .uint _
  · exact plain_optional (Item.plain_ofInt64 v.int) hitem
  · exact plain_optional (Item.plain_ofText v.str) hitem
  · exact plain_optional (Item.plain_ofInt64 v.ref) hitem

theorem ValueRecord.storable_of_read (v v' : ValueRecord) (hfits : v.toItem.Fits room)
    (hread : ofItem? v.toItem = some v') : v.Storable := by
  have hlength : v.items.length ≤ 5 := by simp [items]
  rw [toItem_eq_ofFields] at hfits
  rw [ofItem?, toItem_eq_ofFields, Item.toRecord?_ofFields (by omega)] at hread
  simp only [Option.bind_eq_bind, Option.bind_some, Option.bind_eq_some_iff] at hread
  obtain ⟨tag, -, int, -, str, hstr, -⟩ := hread
  exact optionalText_storable_of_read hlength (by decide) hfits rfl hstr

theorem FieldRecord.plain_toItem (f : FieldRecord) : f.toItem.Plain := by
  rw [toItem_eq_ofFields]
  refine Item.plain_ofFields fun item hitem => ?_
  simp only [items, List.mem_cons, List.not_mem_nil, or_false, Option.some.injEq] at hitem
  rcases hitem with rfl | rfl
  · exact Item.plain_ofText f.name
  · exact f.value.plain_toItem

theorem FieldRecord.storable_of_read (f f' : FieldRecord) (hfits : f.toItem.Fits room)
    (hread : ofItem? f.toItem = some f') : f.Storable := by
  have hlength : f.items.length ≤ 5 := by simp [items]
  rw [toItem_eq_ofFields] at hfits
  rw [ofItem?, toItem_eq_ofFields, Item.toRecord?_ofFields (by omega)] at hread
  simp only [Option.bind_eq_bind, Option.bind_some, Option.bind_eq_some_iff] at hread
  obtain ⟨name, hname, value, hvalue, -⟩ := hread
  have hinner : f.value.toItem.Fits room := hfits.of_ofFields (by simp [items])
  exact ⟨text_storable_of_read hlength (by decide) hfits rfl hname,
    f.value.storable_of_read value hinner (of_read_some hlength (by decide) rfl hvalue)⟩

theorem ObjectRecord.plain_toItem (o : ObjectRecord) : o.toItem.Plain := by
  rw [toItem_eq_ofFields]
  refine Item.plain_ofFields fun item hitem => ?_
  simp only [items, List.mem_cons, List.not_mem_nil, or_false, Option.some.injEq] at hitem
  rcases hitem with rfl | hitem | hitem | hitem
  · exact Item.plain_ofText o.className
  · exact plain_optionalList ValueRecord.plain_toItem hitem
  · exact plain_optional (Item.plain_ofBool o.indexed) hitem
  · exact plain_optionalList ValueRecord.plain_toItem hitem

theorem ObjectRecord.storable_of_read (o o' : ObjectRecord) (hfits : o.toItem.Fits room)
    (hread : ofItem? o.toItem = some o') : o.Storable := by
  have hlength : o.items.length ≤ 5 := by simp [items]
  rw [toItem_eq_ofFields] at hfits
  rw [ofItem?, toItem_eq_ofFields, Item.toRecord?_ofFields (by omega)] at hread
  simp only [Option.bind_eq_bind, Option.bind_some, Option.bind_eq_some_iff] at hread
  obtain ⟨className, hname, slots, hslots, indexed, -, elements, helements, -⟩ := hread
  exact ⟨text_storable_of_read hlength (by decide) hfits rfl hname,
    listStorable_of_read ValueRecord.storable_of_read hlength (by decide) hfits rfl hslots,
    listStorable_of_read ValueRecord.storable_of_read hlength (by decide) hfits rfl helements⟩

/-! ### Subgraphs -/

theorem Subgraph.plain_toItem (s : Subgraph) : s.toItem.Plain := by
  rw [toItem_eq_ofFields]
  refine Item.plain_ofFields fun item hitem => ?_
  simp only [items, List.mem_cons, List.not_mem_nil, or_false, Option.some.injEq] at hitem
  rcases hitem with rfl | rfl | hitem | hitem
  · exact Item.plain_ofText s.className
  · rw [fieldsItem]
    cases s.fields with
    | none => exact .simple (by decide)
    | some fields => exact Item.plain_arrayOf fun f _ => f.plain_toItem
  · exact plain_optionalList Item.plain_ofText hitem
  · exact plain_optionalList ObjectRecord.plain_toItem hitem

theorem Subgraph.storable_of_read (s s' : Subgraph) (hfits : s.toItem.Fits room)
    (hread : ofItem? s.toItem = some s') : s.Storable := by
  have hlength : s.items.length ≤ 5 := by simp [items]
  rw [toItem_eq_ofFields] at hfits
  rw [ofItem?, toItem_eq_ofFields, Item.toRecord?_ofFields (by omega)] at hread
  simp only [Option.bind_eq_bind, Option.bind_some, Option.bind_eq_some_iff] at hread
  obtain ⟨className, hname, fields, hfields, classes, hclasses, objects, hobjects, -⟩ := hread
  have hlist : ListStorable FieldRecord.Storable s.fields := by
    have hinner : s.fieldsItem.Fits room := hfits.of_ofFields (by simp [items])
    have hunderstood := of_read_some hlength (by decide) rfl hfields
    rw [fieldsItem] at hinner hunderstood
    cases hs : s.fields with
    | none => exact ⟨Nat.zero_le _, by simp⟩
    | some fields =>
      rw [hs] at hinner hunderstood
      exact listStorable_arrayOf FieldRecord.storable_of_read hinner hunderstood
  exact ⟨text_storable_of_read hlength (by decide) hfits rfl hname, hlist,
    listStorable_of_read (fun _ _ => text_storable) hlength (by decide) hfits rfl hclasses,
    listStorable_of_read ObjectRecord.storable_of_read hlength (by decide) hfits rfl hobjects⟩

/-- **Which subgraphs are read back, and as what.** -/
theorem Subgraph.decode?_encode_eq_some_iff {s s' : Subgraph} (hsize : s.encode.length < 2 ^ 64) :
    decode? s.encode = some s' ↔ s.Storable ∧ s' = s.trimmed := by
  constructor
  · intro h
    obtain ⟨item, hitem, hread⟩ := Option.bind_eq_some_iff.1 h
    obtain ⟨hfits, rfl⟩ := (Cbor.parse_encode_eq_some_iff s.plain_toItem hsize).1 hitem
    have hs := s.storable_of_read s' hfits hread
    rw [decode?_encode hs] at h
    exact ⟨hs, (Option.some.inj h).symm⟩
  · rintro ⟨hs, rfl⟩
    exact decode?_encode hs

/-! ### Directories -/

theorem plain_buildToItem (b : Build) : (buildToItem b).Plain := by
  rw [buildToItem_eq_ofFields]
  refine Item.plain_ofFields fun item hitem => ?_
  simp only [buildItems, List.mem_cons, List.not_mem_nil, or_false, Option.some.injEq] at hitem
  rcases hitem with rfl | rfl | rfl | rfl
  · exact Item.plain_ofText b.release
  · exact Item.plain_ofText b.debugLevel
  · exact Item.plain_ofText b.vmInfo
  · exact Item.plain_ofInt64 b.major

theorem buildStorable_of_read (b b' : Build) (hfits : (buildToItem b).Fits room)
    (hread : buildOfItem? (buildToItem b) = some b') : BuildStorable b := by
  have hlength : (buildItems b).length ≤ 5 := by simp [buildItems]
  rw [buildToItem_eq_ofFields] at hfits
  rw [buildOfItem?, buildToItem_eq_ofFields, Item.toRecord?_ofFields (by omega)] at hread
  simp only [Option.bind_eq_bind, Option.bind_some, Option.bind_eq_some_iff] at hread
  obtain ⟨release, hrelease, debugLevel, hdebug, vmInfo, hinfo, -⟩ := hread
  exact ⟨text_storable_of_read hlength (by decide) hfits rfl hrelease,
    text_storable_of_read hlength (by decide) hfits rfl hdebug,
    text_storable_of_read hlength (by decide) hfits rfl hinfo⟩

theorem ModuleRecord.plain_toItem (m : ModuleRecord) : m.toItem.Plain := by
  rw [toItem_eq_ofFields]
  refine Item.plain_ofFields fun item hitem => ?_
  simp only [items, List.mem_cons, List.not_mem_nil, or_false, Option.some.injEq] at hitem
  rcases hitem with rfl | rfl | hitem
  · exact Item.plain_ofText m.name
  · exact Item.plain_ofText m.loader
  · exact plain_optionalList Item.plain_ofText hitem

theorem ModuleRecord.storable_of_read (m m' : ModuleRecord) (hfits : m.toItem.Fits room)
    (hread : ofItem? m.toItem = some m') : m.Storable := by
  have hlength : m.items.length ≤ 5 := by simp [items]
  rw [toItem_eq_ofFields] at hfits
  rw [ofItem?, toItem_eq_ofFields, Item.toRecord?_ofFields (by omega)] at hread
  simp only [Option.bind_eq_bind, Option.bind_some, Option.bind_eq_some_iff] at hread
  obtain ⟨name, hname, loader, hloader, packages, hpackages, -⟩ := hread
  exact ⟨text_storable_of_read hlength (by decide) hfits rfl hname,
    text_storable_of_read hlength (by decide) hfits rfl hloader,
    listStorable_of_read (fun _ _ => text_storable) hlength (by decide) hfits rfl hpackages⟩

theorem SubgraphEntry.plain_toItem (e : SubgraphEntry) : e.toItem.Plain := by
  rw [toItem_eq_ofFields]
  refine Item.plain_ofFields fun item hitem => ?_
  simp only [items, List.mem_cons, List.not_mem_nil, or_false, Option.some.injEq] at hitem
  rcases hitem with rfl | rfl | rfl | rfl | rfl
  · exact Item.plain_ofText e.className
  · exact .uint _
  · exact .uint _
  · exact .uint _
  · exact Item.plain_ofInt64 e.objects

theorem SubgraphEntry.storable_of_read (e e' : SubgraphEntry) (hfits : e.toItem.Fits room)
    (hread : ofItem? e.toItem = some e') : e.Storable := by
  have hlength : e.items.length ≤ 5 := by simp [items]
  rw [toItem_eq_ofFields] at hfits
  rw [ofItem?, toItem_eq_ofFields, Item.toRecord?_ofFields (by omega)] at hread
  simp only [Option.bind_eq_bind, Option.bind_some, Option.bind_eq_some_iff] at hread
  obtain ⟨className, hname, -⟩ := hread
  exact text_storable_of_read hlength (by decide) hfits rfl hname

theorem Directory.plain_toItem (d : Directory) : d.toItem.Plain := by
  rw [toItem_eq_ofFields]
  refine Item.plain_ofFields fun item hitem => ?_
  simp only [items, List.mem_cons, List.not_mem_nil, or_false, Option.some.injEq] at hitem
  rcases hitem with rfl | rfl | hitem | hitem | hitem
  · exact plain_buildToItem d.build
  · exact Item.plain_ofInt64 d.seed
  · exact plain_optionalList ModuleRecord.plain_toItem hitem
  · exact plain_optionalList Item.plain_ofText hitem
  · exact plain_optionalList SubgraphEntry.plain_toItem hitem

theorem Directory.storable_of_read (d d' : Directory) (hfits : d.toItem.Fits room)
    (hread : ofItem? d.toItem = some d') : d.Storable := by
  have hlength : d.items.length ≤ 5 := by simp [items]
  rw [toItem_eq_ofFields] at hfits
  rw [ofItem?, toItem_eq_ofFields, Item.toRecord?_ofFields (by omega)] at hread
  simp only [Option.bind_eq_bind, Option.bind_some, Option.bind_eq_some_iff] at hread
  obtain ⟨build, hbuild, seed, -, modules, hmodules, classes, hclasses, entries, hentries, -⟩ :=
    hread
  have hinner : (buildToItem d.build).Fits room := hfits.of_ofFields (by simp [items])
  exact ⟨buildStorable_of_read d.build build hinner (of_read_some hlength (by decide) rfl hbuild),
    listStorable_of_read ModuleRecord.storable_of_read hlength (by decide) hfits rfl hmodules,
    listStorable_of_read (fun _ _ => text_storable) hlength (by decide) hfits rfl hclasses,
    listStorable_of_read SubgraphEntry.storable_of_read hlength (by decide) hfits rfl hentries⟩

/-- **Which directories are read back, and as what.** -/
theorem Directory.decode?_encode_eq_some_iff {d d' : Directory}
    (hsize : d.encode.length < 2 ^ 64) :
    decode? d.encode = some d' ↔ d.Storable ∧ d' = d.trimmed := by
  constructor
  · intro h
    obtain ⟨item, hitem, hread⟩ := Option.bind_eq_some_iff.1 h
    obtain ⟨hfits, rfl⟩ := (Cbor.parse_encode_eq_some_iff d.plain_toItem hsize).1 hitem
    have hd := d.storable_of_read d' hfits hread
    rw [decode?_encode hd] at h
    exact ⟨hd, (Option.some.inj h).symm⟩
  · rintro ⟨hd, rfl⟩
    exact decode?_encode hd

end Records

/-! ### Lists that become absent -/

/-- A list comes back as it was if it is not empty and its members come back as they were. -/
theorem trimList_eq_self_iff {α : Type} {trim : α → α} {xs : Option (List α)} :
    trimList trim xs = xs ↔ xs ≠ some [] ∧ ∀ x ∈ xs.getD [], trim x = x := by
  cases xs with
  | none => simp [trimList, presentList]
  | some xs =>
    cases xs with
    | nil => simp [trimList, presentList]
    | cons x rest =>
      have hmap := List.map_inj_left (f := trim) (g := id) (l := x :: rest)
      rw [List.map_id] at hmap
      simpa [trimList, presentList] using hmap

theorem trimList_id_eq_self_iff {α : Type} {xs : Option (List α)} :
    trimList id xs = xs ↔ xs ≠ some [] := by
  rw [trimList_eq_self_iff]
  exact and_iff_left fun _ _ => rfl

theorem ObjectRecord.trimmed_eq_self_iff (o : ObjectRecord) :
    o.trimmed = o ↔ o.slots ≠ some [] ∧ o.elements ≠ some [] := by
  rw [← trimList_id_eq_self_iff, ← trimList_id_eq_self_iff]
  constructor
  · intro h
    exact ⟨congrArg slots h, congrArg elements h⟩
  · rintro ⟨hslots, helements⟩
    rw [trimmed, hslots, helements]

theorem Subgraph.trimmed_eq_self_iff (s : Subgraph) :
    s.trimmed = s ↔ s.classes ≠ some [] ∧ s.objects ≠ some [] ∧
      ∀ o ∈ s.objects.getD [], o.slots ≠ some [] ∧ o.elements ≠ some [] := by
  simp only [← ObjectRecord.trimmed_eq_self_iff]
  rw [← trimList_eq_self_iff, ← trimList_id_eq_self_iff]
  constructor
  · intro h
    exact ⟨congrArg classes h, congrArg objects h⟩
  · rintro ⟨hclasses, hobjects⟩
    rw [trimmed, hclasses, hobjects]

theorem ModuleRecord.trimmed_eq_self_iff (m : ModuleRecord) :
    m.trimmed = m ↔ m.packages ≠ some [] := by
  rw [← trimList_id_eq_self_iff]
  constructor
  · intro h
    exact congrArg packages h
  · intro hpackages
    rw [trimmed, hpackages]

theorem Directory.trimmed_eq_self_iff (d : Directory) :
    d.trimmed = d ↔ (d.modules ≠ some [] ∧ ∀ m ∈ d.modules.getD [], m.packages ≠ some []) ∧
      d.classes ≠ some [] ∧ d.subgraphs ≠ some [] := by
  simp only [← ModuleRecord.trimmed_eq_self_iff]
  rw [← trimList_eq_self_iff, ← trimList_id_eq_self_iff, ← trimList_id_eq_self_iff]
  constructor
  · intro h
    exact ⟨congrArg modules h, congrArg classes h, congrArg subgraphs h⟩
  · rintro ⟨hmodules, hclasses, hsubgraphs⟩
    rw [trimmed, hmodules, hclasses, hsubgraphs]

/-- **Decoding undoes encoding** for all records whose texts are valid and whose lists are within
the limit, whatever numbers and tags they hold. Only a list that is empty, and left out for that
reason, comes back absent; the list of fields is never left out and comes back as it was. -/
theorem storable_records_read_back {s : Subgraph} {d : Directory} (hs : s.Storable)
    (hd : d.Storable) :
    (Subgraph.decode? s.encode = some s.trimmed ∧ s.trimmed.fields = s.fields ∧
      (s.trimmed = s ↔ s.classes ≠ some [] ∧ s.objects ≠ some [] ∧
        ∀ o ∈ s.objects.getD [], o.slots ≠ some [] ∧ o.elements ≠ some [])) ∧
      Directory.decode? d.encode = some d.trimmed ∧
      (d.trimmed = d ↔ (d.modules ≠ some [] ∧ ∀ m ∈ d.modules.getD [], m.packages ≠ some []) ∧
        d.classes ≠ some [] ∧ d.subgraphs ≠ some []) :=
  ⟨⟨Subgraph.decode?_encode hs, rfl, s.trimmed_eq_self_iff⟩, Directory.decode?_encode hd,
    d.trimmed_eq_self_iff⟩

/-- A subgraph with the extreme numbers, an unknown tag, and lists that are empty. -/
def extremeSubgraph : Subgraph :=
  { className := "Größe"
    fields := some []
    classes := some []
    objects := some [⟨"A", some [⟨255, Int64.minValue, "ß", Int64.maxValue⟩, ⟨24, -256, "", -1⟩],
      true, some []⟩] }

/-- A directory with the extreme numbers, and a list that is empty. -/
def extremeDirectory : Directory :=
  { build := ⟨"", "", "", Int64.minValue⟩
    seed := Int64.maxValue
    modules := some [⟨"m", "boot", some []⟩]
    classes := none
    subgraphs := some [⟨"A", 0xFFFFFFFFFFFFFFFF, 0x100000000, 0xFFFF, -1⟩] }

theorem extreme_records_read_back :
    extremeSubgraph.Storable ∧ extremeDirectory.Storable ∧
      Subgraph.decode? extremeSubgraph.encode
        = some { className := "Größe", fields := some [], classes := none
                 objects := some [⟨"A", some [⟨255, Int64.minValue, "ß", Int64.maxValue⟩,
                   ⟨24, -256, "", -1⟩], true, none⟩] } ∧
      Directory.decode? extremeDirectory.encode
        = some { extremeDirectory with modules := some [⟨"m", "boot", none⟩] } := by
  have hs : extremeSubgraph.Storable := by decide
  have hd : extremeDirectory.Storable := by decide
  obtain ⟨⟨hsubgraph, -, -⟩, hdirectory, -⟩ := storable_records_read_back hs hd
  exact ⟨hs, hd, hsubgraph, hdirectory⟩

end Image

end ClassSharing
