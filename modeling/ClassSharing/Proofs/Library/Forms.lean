import ClassSharing.Library.Invokers
import ClassSharing.Proofs.Library.Objects
import ClassSharing.Proofs.Session.Logging
import ClassSharing.Proofs.Table

/-!
# Invoker forms

Forms are found by a key: the holder, the kind and the method type joined by blanks. A holder that
forms can be asked for has no blank in its name, and neither has a method type, so of two requests
for such holders the key tells everything.

A request for a known holder with a new key makes a form. It defines the class of the holder and the
class of forms unless they are there, puts the form on the heap, and gives the class of the holder a
new array, which is the one it held with the form behind it. What was on the heap stays as it was.

## Main definitions

* `Invokers.Request`: requests for forms
* `Invokers.IsForm`: an object is the form of a request
* `Invokers.held`: the elements of the array of a holder
* `Invokers.Sound`: what is true of the generated classes and forms between requests
* `Invokers.Making`: what making a form does to the machine

## Main results

* `Invokers.Request.key_inj`: the key of a request for a known holder tells the request
* `Invokers.exists_making`: a request that makes a form
* `Invokers.Making.sound`, `Invokers.Making.held`: what is true afterwards
-/

namespace ClassSharing

/-! ### Keys -/

/-- A mark that is in neither beginning separates both lists at the same place. -/
theorem append_cons_inj {α : Type} {x : α} {as bs cs ds : List α} (ha : x ∉ as) (hc : x ∉ cs)
    (h : as ++ x :: bs = cs ++ x :: ds) : as = cs ∧ bs = ds := by
  induction as generalizing cs with
  | nil =>
    cases cs with
    | nil => exact ⟨rfl, (List.cons.inj h).2⟩
    | cons c cs => exact absurd ((List.cons.inj h).1 ▸ List.mem_cons_self) hc
  | cons a as ih =>
    cases cs with
    | nil => exact absurd ((List.cons.inj h).1 ▸ List.mem_cons_self) ha
    | cons c cs =>
      obtain ⟨hac, hrest⟩ := List.cons.inj h
      obtain ⟨has, hbs⟩ := ih (List.not_mem_of_not_mem_cons ha) (List.not_mem_of_not_mem_cons hc)
        hrest
      exact ⟨by rw [hac, has], hbs⟩

/-- The same with a mark that is in neither end. -/
theorem append_cons_inj' {α : Type} {x : α} {as bs cs ds : List α} (hb : x ∉ bs) (hd : x ∉ ds)
    (h : as ++ x :: bs = cs ++ x :: ds) : as = cs ∧ bs = ds := by
  have hreverse : bs.reverse ++ x :: as.reverse = ds.reverse ++ x :: cs.reverse := by
    simpa using congrArg List.reverse h
  obtain ⟨hbs, has⟩ := append_cons_inj (by simpa using hb) (by simpa using hd) hreverse
  exact ⟨List.reverse_injective has, List.reverse_injective hbs⟩

/-- The mark between the parts of a key. -/
def Invokers.blank : UInt8 := 0x20

namespace MethodType

theorem letter_injective : Function.Injective BasicType.letter := by
  intro a b h
  cases a <;> cases b <;> first | rfl | exact absurd h (by decide)

/-- **A method type is known by its text**, -/
theorem text_injective : Function.Injective text := by
  rintro ⟨ps, r⟩ ⟨qs, t⟩ h
  obtain ⟨hparameters, hresult⟩ :=
    List.append_inj' (List.cons.inj (congrArg Text.bytes h)).2 rfl
  obtain rfl : ps = qs := List.map_injective_iff.2 letter_injective hparameters
  obtain rfl : r = t := letter_injective (List.cons.inj (List.cons.inj hresult).2).1
  rfl

/-- which has no blanks. -/
theorem blank_not_mem (mt : MethodType) : Invokers.blank ∉ mt.text.bytes := by
  have hletter : ∀ t : BasicType, Invokers.blank ≠ t.letter := by
    intro t
    cases t <;> decide
  intro h
  rcases List.mem_cons.1 h with hmark | h
  · exact absurd hmark (by decide)
  · rcases List.mem_append.1 h with h | h
    · obtain ⟨t, -, ht⟩ := List.mem_map.1 h
      exact hletter t ht.symm
    · rcases List.mem_cons.1 h with hmark | h
      · exact absurd hmark (by decide)
      · exact hletter _ (List.mem_singleton.1 h)

end MethodType

namespace Invokers

/-- A request for a form. -/
structure Request where
  holder : Text
  kind : Text
  type : MethodType
deriving DecidableEq

namespace Request

/-- What the form of a request is found by. -/
def key (r : Request) : Text := formKey r.holder r.kind r.type

/-- The holder of a request is one that forms can be asked for. -/
def Known (r : Request) : Prop := r.holder ∈ knownHolders.map Prod.fst

instance (r : Request) : Decidable r.Known := inferInstanceAs (Decidable (_ ∈ _))

/-- What a form keeps of its request. -/
def slots (r : Request) : List Value := [.str r.holder, .str r.kind, .str r.type.text]

theorem bytes_key (r : Request) :
    r.key.bytes = r.holder.bytes ++ blank :: (r.kind.bytes ++ blank :: r.type.text.bytes) := by
  show ((r.holder.bytes ++ [blank]) ++ r.kind.bytes ++ [blank]) ++ r.type.text.bytes = _
  simp

/-- **The key of a request for a known holder tells the request.** -/
theorem key_inj {r r' : Request} (h : r.Known) (h' : r'.Known) (hkey : r.key = r'.key) :
    r = r' := by
  have hblank : ∀ holder ∈ knownHolders.map Prod.fst, blank ∉ holder.bytes := by decide
  have hbytes := congrArg Text.bytes hkey
  rw [bytes_key, bytes_key] at hbytes
  obtain ⟨hholder, hrest⟩ := append_cons_inj (hblank _ h) (hblank _ h') hbytes
  obtain ⟨hkind, htype⟩ :=
    append_cons_inj' r.type.blank_not_mem r'.type.blank_not_mem hrest
  obtain ⟨⟨holder⟩, ⟨kind⟩, type⟩ := r
  obtain ⟨⟨holder'⟩, ⟨kind'⟩, type'⟩ := r'
  obtain rfl : holder = holder' := hholder
  obtain rfl : kind = kind' := hkind
  rw [MethodType.text_injective (show type.text = type'.text from congrArg Text.mk htype)]

end Request

/-! ### Generated classes -/

/-- The class of forms. -/
def formSpec : ClassSpec :=
  { name := "LambdaForm", space := Library.invokeSpace, superclass := some Machine.objectClass
    instanceVariables := ["holder", "name", "type"] }

/-- The class of a holder. -/
def holderSpec (name : Text) : ClassSpec :=
  { name := name, space := Library.invokeSpace, superclass := some Machine.objectClass
    statics := ["forms"] }

/-- The classes that requests for forms generate. -/
def generatedSpecs : List ClassSpec := formSpec :: knownHolders.map fun known => holderSpec known.2

/-- The class of a holder is registered under the name of the holder. -/
theorem names_knownHolders : ∀ known ∈ knownHolders,
    known.1 ≠ formClassName ∧ known.1 = (holderSpec known.2).fullName := by
  decide +kernel

theorem holderSpec_mem {holder name : Text} (h : (holder, name) ∈ knownHolders) :
    holderSpec name ∈ generatedSpecs :=
  List.mem_cons_of_mem _ (List.mem_map.2 ⟨_, h, rfl⟩)

/-- A class is the generated one. -/
structure Generated (m : Machine) (spec : ClassSpec) (c : ClassId) : Prop where
  pos : Machine.objectClass < c
  lt_size : c < m.classes.size
  shape : (m.classAt c).shape = (Machine.new.makeClass spec (some .boot)).shape

/-- The classes that the factory knows are the generated ones that the machine has. -/
structure Classes (known : Text → Option ClassId) (m : Machine) : Prop where
  rooted : m.Rooted
  lookup : ∀ spec ∈ generatedSpecs, m.lookup spec.fullName = known spec.fullName
  generated : ∀ spec ∈ generatedSpecs, ∀ c, known spec.fullName = some c → Generated m spec c

/-- A machine after more classes have been defined, objects made and statics assigned. -/
structure Extends (m m' : Machine) : Prop where
  size_le : m.classes.size ≤ m'.classes.size
  shapes : ∀ c < m.classes.size, (m'.classAt c).shape = (m.classAt c).shape
  objects : ∃ made : List Object, m'.objects = m.objects ++ made.toArray

section Growth

variable {m m' m'' : Machine} {known : Text → Option ClassId} {spec : ClassSpec} {c : ClassId}

theorem Extends.refl (m : Machine) : Extends m m :=
  ⟨Nat.le_refl _, fun _ _ => rfl, [], Array.append_empty.symm⟩

theorem Extends.trans (h : Extends m m') (h' : Extends m' m'') : Extends m m'' where
  size_le := h.size_le.trans h'.size_le
  shapes c hc := (h'.shapes c (Nat.lt_of_lt_of_le hc h.size_le)).trans (h.shapes c hc)
  objects := by
    obtain ⟨first, hfirst⟩ := h.objects
    obtain ⟨second, hsecond⟩ := h'.objects
    exact ⟨first ++ second, by rw [hsecond, hfirst]; simp⟩

theorem Extends.objectAt (h : Extends m m') {o : ObjectId} (ho : o < m.objects.size) :
    m'.objectAt o = m.objectAt o := by
  obtain ⟨made, hmade⟩ := h.objects
  exact Machine.objectAt_append_of_lt hmade ho

theorem extends_withClass (m : Machine) (spec : ClassSpec) :
    Extends m (Library.withClass m spec) where
  size_le := by
    have hsize : (Library.withClass m spec).classes.size = m.classes.size + 1 := Array.size_push _
    omega
  shapes c hc := by rw [Library.withClass, Machine.classAt_addClass, if_neg (Nat.ne_of_lt hc)]
  objects := ⟨[], Array.append_empty.symm⟩

theorem Extends.of_evolves (h : m.Evolves m')
    (hobjects : ∃ made : List Object, m'.objects = m.objects ++ made.toArray) : Extends m m' :=
  ⟨h.size.ge, fun c _ => h.shapes c, hobjects⟩

theorem Generated.extends (h : Generated m spec c) (hm : Extends m m') : Generated m' spec c :=
  ⟨h.pos, Nat.lt_of_lt_of_le h.lt_size hm.size_le, (hm.shapes c h.lt_size).trans h.shape⟩

theorem Classes.evolves (h : Classes known m) (hm : m.Evolves m') : Classes known m' where
  rooted := hm.rooted h.rooted
  lookup spec hspec := (hm.lookup _).trans (h.lookup spec hspec)
  generated spec hspec c hc := by
    have hgenerated := h.generated spec hspec c hc
    exact ⟨hgenerated.pos, hm.size ▸ hgenerated.lt_size, (hm.shapes c).trans hgenerated.shape⟩

theorem makeClass_eq (h : m.Rooted) (hspec : spec ∈ generatedSpecs) :
    m.makeClass spec (some .boot) = Machine.new.makeClass spec (some .boot) := by
  have hsuper : ∀ spec ∈ generatedSpecs, spec.superclass = some Machine.objectClass := by decide
  have hinherited : m.inheritedSlots (some Machine.objectClass)
      = Machine.new.inheritedSlots (some Machine.objectClass) :=
    Class.eq_of_shape Class.slotCount (fun _ => rfl) h.shape
  rw [Machine.makeClass, Machine.makeClass, hsuper spec hspec, hinherited]

theorem generated_withClass (h : m.Rooted) (hspec : spec ∈ generatedSpecs) :
    Generated (Library.withClass m spec) spec m.classes.size where
  pos := h.lt_size
  lt_size := by
    have hsize : (Library.withClass m spec).classes.size = m.classes.size + 1 := Array.size_push _
    rw [hsize]
    exact Nat.lt_succ_self _
  shape := by
    rw [Library.withClass, Machine.classAt_addClass, if_pos rfl, makeClass_eq h hspec]

/-- **Generating a class** makes it known. -/
theorem Classes.generate (h : Classes known m) (hspec : spec ∈ generatedSpecs) :
    Classes (Function.update known spec.fullName (some m.classes.size))
      (Library.withClass m spec) where
  rooted := h.rooted.addClass _
  lookup other hother := by
    rw [Library.withClass, Machine.lookup_addClass, Function.update_apply, h.lookup other hother]
    rfl
  generated other hother c hc := by
    rw [Function.update_apply] at hc
    split at hc
    · rename_i hname
      obtain rfl := Option.some.inj hc
      have hdistinct : (generatedSpecs.map ClassSpec.fullName).Nodup := by decide
      rw [List.inj_on_of_nodup_map hdistinct hother hspec hname]
      exact generated_withClass h.rooted hspec
    · exact (h.generated other hother c hc).extends (extends_withClass m spec)

/-- **A generated class is there**, or there is room for it, and then it can be generated. -/
theorem Classes.exists_class (h : Classes known m) (hspec : spec ∈ generatedSpecs) :
    ∃ c m', (known spec.fullName = some c ∧ m' = m ∨
        known spec.fullName = none ∧ m.lookup spec.fullName = none ∧ c = m.classes.size ∧
          m' = Library.withClass m spec) ∧
      Classes (Function.update known spec.fullName (some c)) m' ∧ Generated m' spec c ∧
      Extends m m' := by
  cases hknown : known spec.fullName with
  | some c =>
    refine ⟨c, m, .inl ⟨rfl, rfl⟩, ?_, h.generated spec hspec c hknown, .refl m⟩
    rwa [Function.update_eq_self_iff.2 hknown.symm]
  | none =>
    exact ⟨m.classes.size, Library.withClass m spec,
      .inr ⟨rfl, (h.lookup spec hspec).trans hknown, rfl, rfl⟩, h.generate hspec,
      generated_withClass h.rooted hspec, extends_withClass m spec⟩

/-- A class has been defined, unless it was there. -/
def Supplied (spec : ClassSpec) (m m' : Machine) : Prop := m' = m ∨ m' = Library.withClass m spec

theorem Supplied.extends (h : Supplied spec m m') : Extends m m' := by
  rcases h with rfl | rfl
  · exact .refl _
  · exact extends_withClass m spec

theorem Supplied.objects (h : Supplied spec m m') : m'.objects = m.objects := by
  rcases h with rfl | rfl <;> rfl

theorem Supplied.static (h : Supplied spec m m') (hc : c < m.classes.size) (name : Text) :
    m'.static c name = m.static c name := by
  rcases h with rfl | rfl
  · rfl
  · rw [Machine.static, Machine.static, Library.withClass, Machine.classAt_addClass,
      if_neg (Nat.ne_of_lt hc)]

theorem Supplied.lookup (h : Supplied spec m m') {name : Text} (hname : name ≠ spec.fullName) :
    m'.lookup name = m.lookup name := by
  rcases h with rfl | rfl
  · rfl
  · rw [Library.withClass, Machine.lookup_addClass]
    exact if_neg hname

end Growth

/-! ### Held arrays -/

/-- The elements of the array of forms that a class holds. -/
def storedForms (m : Machine) (c : ClassId) : List Value :=
  match m.static c "forms" with
  | .obj o => (m.objectAt o).elementList
  | _ => []

/-- The elements of the array of forms of a holder. -/
def held (iv : Invokers) (m : Machine) (holder : Text) : List Value :=
  match iv.holders.get? holder with
  | some c => storedForms m c
  | none => []

theorem getD_formsOf (iv : Invokers) (m : Machine) (holder : Text) :
    (iv.formsOf m holder).getD [] = (iv.held m holder).map Value.object? := by
  rw [formsOf, held]
  cases iv.holders.get? holder with
  | none => rfl
  | some c =>
    simp only [storedForms]
    cases m.static c "forms" <;> rfl

/-- An array on the heap keeps its elements. -/
theorem storedForms_of_extends {m m' : Machine} (h : Extends m m') {c : ClassId}
    (hstatic : m'.static c "forms" = m.static c "forms")
    (hstored : ∀ array, m.static c "forms" = .obj array → array < m.objects.size) :
    storedForms m' c = storedForms m c := by
  rw [storedForms, storedForms, hstatic]
  split
  · rename_i array harray
    rw [h.objectAt (hstored array harray)]
  · rfl

/-- An object without elements at the end of the heap is no array. -/
theorem storedForms_withObjects (m : Machine) (c k : ClassId) (slots : List Value) :
    storedForms (m.withObjects [Library.instanceOf k slots]) c = storedForms m c := by
  have helements : ∀ o, ((m.withObjects [Library.instanceOf k slots]).objectAt o).elementList
      = (m.objectAt o).elementList := by
    intro o
    rcases Nat.lt_or_ge o m.objects.size with hlt | hge
    · rw [Machine.objectAt_append_of_lt rfl hlt]
    · obtain ⟨i, rfl⟩ := Nat.exists_eq_add_of_le hge
      rw [@Machine.objectAt_append m _ [Library.instanceOf k slots] rfl i,
        Machine.objectAt_of_size_le hge]
      cases i <;> rfl
  show (match m.static c "forms" with
    | .obj o => ((m.withObjects [Library.instanceOf k slots]).objectAt o).elementList
    | _ => []) = storedForms m c
  simp only [helements]
  rfl

theorem storedForms_eq_nil {m : Machine} {c : ClassId} (h : m.static c "forms" = .nil) :
    storedForms m c = [] := by
  rw [storedForms, h]

/-- The class that the factory knows under a name. -/
def classOf? (iv : Invokers) (name : Text) : Option ClassId :=
  if name = formClassName then iv.formClass else iv.holders.get? name

theorem classOf?_holder (iv : Invokers) {holder name : Text}
    (h : (holder, name) ∈ knownHolders) :
    iv.classOf? (holderSpec name).fullName = iv.holders.get? holder := by
  obtain ⟨hne, hfull⟩ := names_knownHolders _ h
  rw [← hfull, classOf?, if_neg hne]

theorem classOf?_insert_holder (iv : Invokers) {holder : Text} (hne : holder ≠ formClassName)
    (c : ClassId) :
    ({ iv with holders := iv.holders.insert holder c }).classOf?
      = Function.update iv.classOf? holder (some c) := by
  funext name
  rw [classOf?, Function.update_apply, classOf?, Table.get?_insert]
  by_cases hname : name = formClassName
  · rw [if_pos hname, if_pos hname, if_neg fun h => hne (h.symm.trans hname)]
  · rw [if_neg hname, if_neg hname]

theorem classOf?_set_formClass (iv : Invokers) (c : ClassId) :
    ({ iv with formClass := some c }).classOf?
      = Function.update iv.classOf? formClassName (some c) := by
  funext name
  rw [classOf?, Function.update_apply, classOf?]
  by_cases hname : name = formClassName
  · rw [if_pos hname, if_pos hname]
  · rw [if_neg hname, if_neg hname, if_neg hname]

section Generating

open Session

variable {iv : Invokers} {s : Session}

theorem generateClass_eq {name : Text} {instanceVariables statics : List Text} {spec : ClassSpec}
    (hspec : spec = { name := name, space := Library.invokeSpace
                      superclass := some Machine.objectClass
                      instanceVariables := instanceVariables, statics := statics })
    (hfree : s.machine.lookup spec.fullName = none) :
    generateClass name instanceVariables statics s
      = (.ok s.machine.classes.size, s.withMachine (Library.withClass s.machine spec)) := by
  have hdefine : s.machine.defineClass spec .boot
      = .ok (s.machine.classes.size, Library.withClass s.machine spec) := by
    rw [Machine.defineClass, hfree]
    rfl
  rw [generateClass, exceptBind_apply (machine_apply s), ← hspec, hdefine,
    exceptBind_apply (ofFault_apply _ s)]
  rfl

/-- **The class of a known holder** is there after it has been asked for. -/
theorem exists_holderClass (h : Classes iv.classOf? s.machine) {holder name : Text}
    (hknown : (holder, name) ∈ knownHolders) :
    ∃ c m', iv.holderClass holder s = (.ok c, s.withMachine m') ∧
      Classes ({ iv with holders := iv.holders.insert holder c }).classOf? m' ∧
      Generated m' (holderSpec name) c ∧ Supplied (holderSpec name) s.machine m' ∧
      storedForms m' c = iv.held s.machine holder := by
  have hfinds : ∀ known ∈ knownHolders,
      knownHolders.find? (fun other => other.1 = known.1) = some known := by decide
  have hfind := hfinds _ hknown
  obtain ⟨hne, hfull⟩ := names_knownHolders _ hknown
  simp only at hfind hne hfull
  obtain ⟨c, m', hcases, hclasses, hgenerated, -⟩ := h.exists_class (holderSpec_mem hknown)
  rw [classOf?_holder iv hknown] at hcases
  have hclasses' : Classes ({ iv with holders := iv.holders.insert holder c }).classOf? m' := by
    rw [classOf?_insert_holder iv hne, hfull]
    exact hclasses
  refine ⟨c, m', ?_, hclasses', hgenerated, hcases.imp And.right fun h => h.2.2.2, ?_⟩
  · rw [holderClass]
    rcases hcases with ⟨hheld, rfl⟩ | ⟨hheld, hfree, rfl, rfl⟩
    · rw [hheld]
      rfl
    · simp only [hheld, hfind]
      rw [exceptBind_apply (machine_apply s), hfull, hfree]
      exact generateClass_eq rfl hfree
  · rw [held]
    rcases hcases with ⟨hheld, rfl⟩ | ⟨hheld, -, rfl, rfl⟩
    · rw [hheld]
    · rw [hheld]
      refine storedForms_eq_nil ?_
      rw [Machine.static, Library.withClass, Machine.classAt_addClass, if_pos rfl]
      rfl

/-- **The class of forms** is there as well. -/
theorem exists_lambdaFormClass (h : Classes iv.classOf? s.machine) :
    ∃ c m', iv.lambdaFormClass s = (.ok c, s.withMachine m') ∧
      Classes ({ iv with formClass := some c }).classOf? m' ∧
      Generated m' formSpec c ∧ Supplied formSpec s.machine m' := by
  have hfull : formClassName = formSpec.fullName := by decide
  have hclass : iv.classOf? formSpec.fullName = iv.formClass := by
    rw [← hfull, classOf?, if_pos rfl]
  obtain ⟨c, m', hcases, hclasses, hgenerated, -⟩ :=
    h.exists_class (show formSpec ∈ generatedSpecs from List.mem_cons_self)
  refine ⟨c, m', ?_, ?_, hgenerated, hcases.imp And.right fun h => h.2.2.2⟩
  · rw [hclass] at hcases
    rw [lambdaFormClass]
    rcases hcases with ⟨hheld, rfl⟩ | ⟨hheld, hfree, rfl, rfl⟩
    · rw [hheld]
      rfl
    · simp only [hheld]
      rw [exceptBind_apply (machine_apply s), hfull, hfree]
      exact generateClass_eq rfl hfree
  · rw [classOf?_set_formClass iv, hfull]
    exact hclasses

/-! ### Forms -/

/-- An object is the form of a request: it is of the class of forms, and its slots are exactly the
holder, the kind and the method type. -/
def IsForm (m : Machine) (form : ObjectId) (r : Request) : Prop :=
  form < m.objects.size ∧ ∃ c, Generated m formSpec c ∧
    m.objectAt form = Library.instanceOf c r.slots

theorem IsForm.extends {m m' : Machine} {form : ObjectId} {r : Request} (h : IsForm m form r)
    (hm : Extends m m') : IsForm m' form r := by
  obtain ⟨hlt, c, hc, hobject⟩ := h
  obtain ⟨made, hmade⟩ := hm.objects
  refine ⟨?_, c, hc.extends hm, (Machine.objectAt_append_of_lt hmade hlt).trans hobject⟩
  rw [hmade, Array.size_append]
  exact Nat.lt_of_lt_of_le hlt (Nat.le_add_right _ _)

/-- A new array of forms is one more object, and the holder is assigned it. -/
theorem exists_replaceForms {c : ClassId} (hlt : c < s.machine.classes.size)
    (h : (s.machine.classAt c).statics.has "forms" = true) (values : List Value)
    (form : ObjectId) :
    ∃ m' array,
      (do
        let array ← Library.makeArray values
        Library.assign c "forms" (.obj array)
        return form : Run ObjectId) s = (.ok form, s.withMachine m') ∧
      Machine.Fills c [array] s.machine m' ∧
      m'.static c "forms" = .obj s.machine.objects.size ∧ array.elementList = values := by
  have harray : ∃ array, Library.makeArray values s
      = (.ok s.machine.objects.size, s.withMachine (s.machine.withObjects [array])) ∧
        array.elementList = values := by
    refine ⟨{ s.machine.freshObject Machine.arrayClass with elements := some values }, ?_, rfl⟩
    rw [Library.makeArray, onMachine_apply, Machine.newArray, Machine.instantiateWith]
    simp [Machine.allocate, Machine.withObjects]
  obtain ⟨array, harray, helements⟩ := harray
  have hstatic := @Machine.static_assigned (s.machine.withObjects [array]) c
    [("forms", .obj s.machine.objects.size)] hlt "forms"
  refine ⟨(s.machine.withObjects [array]).assigned c [("forms", .obj s.machine.objects.size)],
    array, ?_, (Machine.fills_withObjects _ c [array]).trans (Machine.fills_assigned _ c _), ?_,
    helements⟩
  rotate_left
  · have hdeclared : ("forms" : Text) ∈ (s.machine.classAt c).statics.names :=
      List.contains_iff_mem.1 h
    rw [hstatic]
    exact (Statics.get_write ..).trans (if_pos ⟨rfl, hdeclared⟩)
  have hassign : Library.assign c "forms" (.obj s.machine.objects.size)
      (s.withMachine (s.machine.withObjects [array])) = (.ok (),
        s.withMachine ((s.machine.withObjects [array]).assigned c
          [("forms", .obj s.machine.objects.size)])) := by
    have hset := @Machine.setStatic_eq_ok (s.machine.withObjects [array]) c "forms"
      (.obj s.machine.objects.size) h
    rw [Library.assign, exceptBind_apply (machine_apply _), machine_withMachine, hset]
    rfl
  rw [exceptBind_apply harray, exceptBind_apply hassign]
  rfl

/-- **A form is made** at the end of the heap, with an array behind it that ends with the form. -/
theorem exists_makeForm (hrooted : s.machine.Rooted) {hc fc : ClassId} {name : Text}
    (hholder : Generated s.machine (holderSpec name) hc) (hform : Generated s.machine formSpec fc)
    (r : Request) :
    ∃ m' made, makeForm hc fc r.holder r.kind r.type s
        = (.ok s.machine.objects.size, s.withMachine m') ∧
      Machine.Fills hc made s.machine m' ∧
      (∃ array, m'.static hc "forms" = .obj array ∧ array < m'.objects.size) ∧
      storedForms m' hc = storedForms s.machine hc ++ [.obj s.machine.objects.size] ∧
      IsForm m' s.machine.objects.size r := by
  have hsuper : (s.machine.classAt fc).superclass = some Machine.objectClass :=
    Class.eq_of_shape Class.superclass (fun _ => rfl) hform.shape
  have hvariables : (s.machine.classAt fc).instanceVariables = formSpec.instanceVariables :=
    Class.eq_of_shape Class.instanceVariables (fun _ => rfl) hform.shape
  have hcount : (s.machine.classAt fc).slotCount = 3 :=
    Class.eq_of_shape Class.slotCount (fun _ => rfl) hform.shape
  have hmake : Library.make fc [("holder", .str r.holder), ("name", .str r.kind),
      ("type", .str r.type.text)] s = (.ok s.machine.objects.size,
        s.withMachine (s.machine.withObjects [Library.instanceOf fc r.slots])) := by
    refine Library.make_of_idxOf? hcount (fun name => ?_)
      (show (formSpec.instanceVariables).Nodup by decide)
    rw [hrooted.slotIndex? hform.pos hsuper, hvariables]
    rfl
  have hforms : (s.machine.classAt hc).statics.has "forms" = true := by
    rw [Statics.has, Class.names_eq_of_shape hholder.shape]
    rfl
  rw [makeForm, exceptBind_apply hmake, exceptBind_apply (machine_apply _)]
  obtain ⟨m', array, hrun, hfills, hstatic, helements⟩ := exists_replaceForms
    (s := s.withMachine (s.machine.withObjects [Library.instanceOf fc r.slots])) hholder.lt_size
    hforms (storedForms (s.machine.withObjects [Library.instanceOf fc r.slots]) hc
      ++ [.obj s.machine.objects.size]) s.machine.objects.size
  have hall : Machine.Fills hc [Library.instanceOf fc r.slots, array] s.machine m' :=
    (Machine.fills_withObjects _ hc _).trans hfills
  have hsize : m'.objects.size = s.machine.objects.size + 2 := hall.size
  rw [machine_withMachine, Machine.size_withObjects] at hstatic
  have hextends := Extends.of_evolves hall.evolves ⟨_, hall.objects⟩
  refine ⟨m', _, hrun, hall, ⟨_, hstatic, ?_⟩, ?_, ?_, fc, hform.extends hextends, ?_⟩
  · simp [hsize]
  · have harray : m'.objectAt (s.machine.objects.size + 1) = array :=
      Machine.objectAt_append hall.objects 1
    rw [← storedForms_withObjects s.machine hc fc r.slots, ← helements, storedForms, hstatic]
    exact congrArg Object.elementList harray
  · rw [hsize]
    exact Nat.lt_add_of_pos_right (by decide)
  · exact Machine.objectAt_append hall.objects 0

end Generating

/-! ### One request -/

/-- What is true between requests: the factory knows the generated classes, and it has a form under
the key of a request for a known holder, and no form under two keys. The arrays of forms are on the
heap. -/
structure Sound (iv : Invokers) (m : Machine) : Prop where
  classes : Classes iv.classOf? m
  holders : ∀ holder c, iv.holders.get? holder = some c → holder ∈ knownHolders.map Prod.fst
  forms : ∀ key form, iv.forms.get? key = some form →
    ∃ r : Request, r.Known ∧ r.key = key ∧ IsForm m form r
  distinct : ∀ key key' form, iv.forms.get? key = some form → iv.forms.get? key' = some form →
    key = key'
  stored : ∀ holder c array, iv.holders.get? holder = some c →
    m.static c "forms" = .obj array → array < m.objects.size

/-- The factory before any request, on a machine without classes of the namespace. -/
theorem sound_new (log : Option GateId) {m : Machine} (hrooted : m.Rooted)
    (hfree : ∀ name, m.lookup (Class.qualify Library.invokeSpace name) = none) :
    (new log).Sound m where
  classes := by
    have hnone : ∀ name, (new log).classOf? name = none := by
      intro name
      rw [classOf?]
      split <;> rfl
    have hspace : ∀ spec ∈ generatedSpecs, spec.space = Library.invokeSpace := by decide
    refine ⟨hrooted, fun spec hspec => ?_, fun spec _ c hc => ?_⟩
    · rw [hnone, ClassSpec.fullName, hspace spec hspec, hfree]
    · rw [hnone] at hc
      cases hc
  holders _ _ h := by cases h
  forms _ _ h := by cases h
  distinct _ _ _ h := by cases h
  stored _ _ _ h := by cases h

/-- A session on a new machine. -/
def freshSession : Session := Session.new (FileTree.new "/") [] 0

theorem lookup_freshSession (name : Text) :
    freshSession.machine.lookup (Class.qualify Library.invokeSpace name) = none := by
  have hnames : ∀ entry ∈ freshSession.machine.names.entries, entry.1.bytes.head? ≠ some 0x63 := by
    decide
  have hfirst : (Class.qualify Library.invokeSpace name).bytes.head? = some 0x63 := rfl
  refine Table.get?_eq_none_iff.2 fun entry hentry heq => hnames entry hentry ?_
  rw [heq, hfirst]

/-- No form is at the end of the heap, where the next one will be. -/
theorem Sound.get?_ne {iv : Invokers} {m : Machine} (h : iv.Sound m) (key : Text) :
    iv.forms.get? key ≠ some m.objects.size := by
  intro hkey
  obtain ⟨-, -, -, hlt, -⟩ := h.forms key _ hkey
  exact Nat.lt_irrefl _ hlt

/-- A held class is the generated one of its holder. -/
theorem Sound.exists_generated {iv : Invokers} {m : Machine} (h : iv.Sound m) {holder : Text}
    {c : ClassId} (hheld : iv.holders.get? holder = some c) :
    ∃ name, (holder, name) ∈ knownHolders ∧ Generated m (holderSpec name) c := by
  obtain ⟨⟨holder', name⟩, hmem, hholder⟩ := List.mem_map.1 (h.holders holder c hheld)
  rw [show holder' = holder from hholder] at hmem
  exact ⟨name, hmem, h.classes.generated _ (holderSpec_mem hmem) c
    ((classOf?_holder iv hmem).trans hheld)⟩

section Requests

open Session

variable {iv : Invokers} {s : Session} {r : Request}

/-- A request whose key is known gets the form that is there. -/
theorem invoker_of_some {form : ObjectId} (hform : iv.forms.get? r.key = some form) :
    iv.invoker r.holder r.kind r.type s = ((.ok form, iv), s) := by
  rw [Request.key] at hform
  rw [invoker, hform]
  rfl

/-- A request for an unknown holder is refused, if its key is new. -/
theorem Sound.invoker_of_unknown (h : iv.Sound s.machine) (hnew : iv.forms.get? r.key = none)
    (hunknown : ¬ r.Known) :
    iv.invoker r.holder r.kind r.type s
      = ((.error (.fault (.of (.unknownHolder r.holder))), iv), s) := by
  have hheld : iv.holders.get? r.holder = none :=
    Option.eq_none_iff_forall_ne_some.2 fun c hc => hunknown (h.holders _ c hc)
  have hfind : knownHolders.find? (fun known => known.1 = r.holder) = none := by
    rw [List.find?_eq_none]
    intro known hmem
    simp only [decide_eq_true_eq]
    exact fun heq => hunknown (List.mem_map.2 ⟨known, hmem, heq⟩)
  have hrefused : (iv.holderClass r.holder).run s
      = (.error (.fault (.of (.unknownHolder r.holder))), s) := by
    rw [holderClass, hheld]
    simp only [hfind]
    rfl
  rw [Request.key] at hnew
  rw [invoker, hnew]
  simp only
  rw [bind_apply, hrefused]
  rfl

/-- The line of a request for a form. -/
def Request.line (r : Request) : Text :=
  Session.formLine formLabel r.holder r.kind (.text r.type.text)

/-- The factory with a form for a request, and with the classes that it took. -/
def withForm (iv : Invokers) (r : Request) (hc fc : ClassId) (form : ObjectId) : Invokers :=
  { iv with
    holders := iv.holders.insert r.holder hc
    formClass := some fc
    forms := iv.forms.insert r.key form }

/-- A request that gets its two classes and makes its form. -/
theorem invoker_of_parts (hnew : iv.forms.get? r.key = none) {hc fc : ClassId}
    {form : ObjectId} {m₁ m₂ m₃ : Machine}
    (hholder : iv.holderClass r.holder s = (.ok hc, s.withMachine m₁))
    (hclass : ({ iv with holders := iv.holders.insert r.holder hc } : Invokers).lambdaFormClass
      (s.withMachine m₁) = (.ok fc, s.withMachine m₂))
    (hform : makeForm hc fc r.holder r.kind r.type (s.withMachine m₂)
      = (.ok form, s.withMachine m₃)) :
    iv.invoker r.holder r.kind r.type s
      = ((.ok form, iv.withForm r hc fc form), logged iv.log r.line (s.withMachine m₃)) := by
  rw [Request.key] at hnew
  rw [invoker, hnew]
  simp only
  rw [bind_apply, ExceptT.run, hholder]
  simp only
  rw [bind_apply, ExceptT.run, hclass]
  simp only
  rw [bind_apply, ExceptT.run, hform]
  simp only
  rw [withForm, Request.key]
  cases iv.log with
  | none => rfl
  | some g => rfl

/-- What making a form for a request does to the machine. Both classes are there afterwards, the
form is a new object, and the class of the holder gets a new array that ends with it. -/
structure Making (iv : Invokers) (m : Machine) (r : Request) (hc fc : ClassId) (m' : Machine) :
    Prop where
  classes : Classes (iv.withForm r hc fc m.objects.size).classOf? m'
  holder : ∃ name, (r.holder, name) ∈ knownHolders ∧ Generated m' (holderSpec name) hc
  growth : Extends m m'
  lookup : ∀ name, name ∉ generatedSpecs.map ClassSpec.fullName → m'.lookup name = m.lookup name
  form : IsForm m' m.objects.size r
  forms : storedForms m' hc = iv.held m r.holder ++ [.obj m.objects.size]
  array : ∃ array, m'.static hc "forms" = .obj array ∧ array < m'.objects.size
  statics : ∀ c < m.classes.size, c ≠ hc → m'.static c "forms" = m.static c "forms"

/-- **A request for a known holder with a new key** makes a form. -/
theorem exists_making (h : Classes iv.classOf? s.machine) (hnew : iv.forms.get? r.key = none)
    (hknown : r.Known) :
    ∃ hc fc m', iv.invoker r.holder r.kind r.type s
        = ((.ok s.machine.objects.size, iv.withForm r hc fc s.machine.objects.size),
          logged iv.log r.line (s.withMachine m')) ∧
      Making iv s.machine r hc fc m' := by
  obtain ⟨⟨holder, name⟩, hmem, hholder⟩ := List.mem_map.1 hknown
  rw [show holder = r.holder from hholder] at hmem
  obtain ⟨hc, m₁, hrun₁, hclasses₁, hgenerated, hsupplied₁, hforms₁⟩ := exists_holderClass h hmem
  obtain ⟨fc, m₂, hrun₂, hclasses₂, hform, hsupplied₂⟩ :=
    @exists_lambdaFormClass { iv with holders := iv.holders.insert r.holder hc } (s.withMachine m₁)
      hclasses₁
  rw [machine_withMachine] at hsupplied₂
  obtain ⟨m₃, made, hrun₃, hfills, harray, hforms₃, hisForm⟩ :=
    exists_makeForm (s := s.withMachine m₂) hclasses₂.rooted
      (hgenerated.extends hsupplied₂.extends) hform r
  rw [machine_withMachine] at hfills hforms₃ hisForm
  have hobjects : m₂.objects = s.machine.objects := hsupplied₂.objects.trans hsupplied₁.objects
  have hextends : Extends m₂ m₃ := .of_evolves hfills.evolves ⟨_, hfills.objects⟩
  -- Defining the class of forms does not touch the array of the holder.
  have hstored : storedForms m₂ hc = storedForms m₁ hc := by
    have hstatic := hsupplied₂.static hgenerated.lt_size "forms"
    rw [storedForms, storedForms, hstatic]
    simp only [Machine.objectAt, hsupplied₂.objects]
  have hnames : ∀ spec ∈ [holderSpec name, formSpec],
      spec.fullName ∈ generatedSpecs.map ClassSpec.fullName := by
    intro spec hspec
    refine List.mem_map_of_mem ?_
    rcases List.mem_pair.1 hspec with rfl | rfl
    · exact holderSpec_mem hmem
    · exact List.mem_cons_self
  rw [hobjects] at hforms₃ hisForm
  refine ⟨hc, fc, m₃, ?_, ?_, ⟨name, hmem, ?_⟩, ?_, fun other hother => ?_, hisForm, ?_, harray,
    fun c hc' hne => ?_⟩
  · rw [← hobjects]
    exact invoker_of_parts hnew hrun₁ hrun₂ hrun₃
  · exact hclasses₂.evolves hfills.evolves
  · exact (hgenerated.extends hsupplied₂.extends).extends hextends
  · exact (hsupplied₁.extends.trans hsupplied₂.extends).trans hextends
  · have hne : ∀ spec ∈ [holderSpec name, formSpec], other ≠ spec.fullName := fun spec hspec heq =>
      hother (heq ▸ hnames spec hspec)
    rw [hfills.evolves.lookup, hsupplied₂.lookup (hne _ (by simp)), hsupplied₁.lookup
      (hne _ (by simp))]
  · rw [hforms₃, hstored, hforms₁]
  · have hlt : c < m₁.classes.size := Nat.lt_of_lt_of_le hc' hsupplied₁.extends.size_le
    rw [hfills.static hne, hsupplied₂.static hlt, hsupplied₁.static hc']

namespace Making

variable {m m' : Machine} {hc fc : ClassId}

/-- The class of another holder is another class. -/
theorem other_class (h : Making iv m r hc fc m') (hiv : iv.Sound m) {holder : Text} {c : ClassId}
    (hne : holder ≠ r.holder) (hheld : iv.holders.get? holder = some c) :
    c < m.classes.size ∧ c ≠ hc := by
  have hdistinct : (knownHolders.map Prod.snd).Nodup := by decide
  obtain ⟨name, hmem, hgenerated⟩ := h.holder
  obtain ⟨name', hmem', hother⟩ := hiv.exists_generated hheld
  refine ⟨hother.lt_size, ?_⟩
  rintro rfl
  -- One class would have the names of two holders.
  have hname : name' = name :=
    (Class.eq_of_shape Class.name (fun _ => rfl) (hother.extends h.growth).shape).symm.trans
      (Class.eq_of_shape Class.name (fun _ => rfl) hgenerated.shape)
  exact hne (congrArg Prod.fst (List.inj_on_of_nodup_map hdistinct hmem' hmem hname))

/-- **What is true between requests** is true with the new form. -/
theorem sound (h : Making iv m r hc fc m') (hiv : iv.Sound m) (hknown : r.Known) :
    (iv.withForm r hc fc m.objects.size).Sound m' where
  classes := h.classes
  holders holder c hheld := by
    rw [withForm, Table.get?_insert] at hheld
    split at hheld
    · rename_i heq
      exact heq ▸ hknown
    · exact hiv.holders holder c hheld
  forms key form hget := by
    rw [withForm, Table.get?_insert] at hget
    split at hget
    · rename_i heq
      obtain rfl := Option.some.inj hget
      exact ⟨r, hknown, heq.symm, h.form⟩
    · obtain ⟨r', hr', hkey, hisForm⟩ := hiv.forms key form hget
      exact ⟨r', hr', hkey, hisForm.extends h.growth⟩
  distinct key key' form hget hget' := by
    rw [withForm, Table.get?_insert] at hget hget'
    split at hget
    · split at hget'
      · simp_all
      · exact absurd (hget'.trans hget.symm) (hiv.get?_ne key')
    · split at hget'
      · exact absurd (hget.trans hget'.symm) (hiv.get?_ne key)
      · exact hiv.distinct key key' form hget hget'
  stored holder c array hheld hstatic := by
    rw [withForm, Table.get?_insert] at hheld
    split at hheld
    · obtain rfl := Option.some.inj hheld
      obtain ⟨array', harray, hlt⟩ := h.array
      obtain rfl : array' = array := by simpa [harray] using hstatic
      exact hlt
    · rename_i hne
      obtain ⟨hlt, hother⟩ := h.other_class hiv hne hheld
      obtain ⟨made, hmade⟩ := h.growth.objects
      rw [h.statics c hlt hother] at hstatic
      rw [hmade, Array.size_append]
      exact Nat.lt_of_lt_of_le (hiv.stored holder c array hheld hstatic) (Nat.le_add_right _ _)

/-- **The forms of a holder** with the new one. -/
theorem held (h : Making iv m r hc fc m') (hiv : iv.Sound m) (holder : Text) :
    (iv.withForm r hc fc m.objects.size).held m' holder
      = if holder = r.holder then iv.held m holder ++ [.obj m.objects.size]
        else iv.held m holder := by
  rw [Invokers.held, withForm, Table.get?_insert]
  by_cases hholder : holder = r.holder
  · rw [if_pos hholder, if_pos hholder, hholder]
    exact h.forms
  · rw [if_neg hholder, if_neg hholder, Invokers.held]
    cases hheld : iv.holders.get? holder with
    | none => rfl
    | some c =>
      obtain ⟨hlt, hother⟩ := h.other_class hiv hholder hheld
      exact storedForms_of_extends h.growth (h.statics c hlt hother) fun array =>
        hiv.stored holder c array hheld

end Making

section Supplying

variable {m m' : Machine} {spec : ClassSpec}

/-- Defining another class leaves the forms of a holder as they are, -/
theorem Sound.held_supplied (h : iv.Sound m) (hm : Supplied spec m m') (holder : Text) :
    iv.held m' holder = iv.held m holder := by
  rw [held, held]
  cases hheld : iv.holders.get? holder with
  | none => rfl
  | some c =>
    obtain ⟨name, -, hgenerated⟩ := h.exists_generated hheld
    exact storedForms_of_extends hm.extends (hm.static hgenerated.lt_size _) fun array =>
      h.stored holder c array hheld

/-- and so is what is true between requests. -/
theorem Sound.supplied (h : iv.Sound m) (hm : Supplied spec m m')
    (hname : spec.fullName ∉ generatedSpecs.map ClassSpec.fullName) (species : Table ClassId) :
    ({ iv with species := species } : Invokers).Sound m' where
  classes := by
    have hrooted : m'.Rooted := by
      rcases hm with rfl | rfl
      · exact h.classes.rooted
      · exact h.classes.rooted.addClass _
    refine ⟨hrooted, fun other hother => ?_, fun other hother c hc => ?_⟩
    · have hne : other.fullName ≠ spec.fullName := fun heq =>
        hname (heq ▸ List.mem_map_of_mem hother)
      exact (hm.lookup hne).trans (h.classes.lookup other hother)
    · exact (h.classes.generated other hother c hc).extends hm.extends
  holders := h.holders
  forms key form hget := by
    obtain ⟨r, hr, hkey, hform⟩ := h.forms key form hget
    exact ⟨r, hr, hkey, hform.extends hm.extends⟩
  distinct := h.distinct
  stored holder c array hheld hstatic := by
    obtain ⟨name, -, hgenerated⟩ := h.exists_generated hheld
    rw [hm.static hgenerated.lt_size] at hstatic
    rw [hm.objects]
    exact h.stored holder c array hheld hstatic

end Supplying

end Requests

end Invokers

end ClassSharing
