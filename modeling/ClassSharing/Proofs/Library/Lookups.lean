import ClassSharing.Proofs.Library.Contents

/-!
# Looking up integers and locales

The boxed form of an integer, and the locale of a language and a region, are shared if the library
made them when it was initialized, and made on the spot otherwise. Either way the object that is
given out shows what was looked up, so different lookups never get the same object. What is left is
when one lookup gets the same object twice.

A shared object comes from the archived array of its class, and nothing that a lookup does changes
that array or the statics that lead to it. An object that is made on the spot is at the end of the
heap, behind everything that was given out before. So only shared objects are given out twice.

How the archived arrays came about makes no difference. It is enough that the classes are ready and
that the arrays hold what they should.

## Main definitions

* `Library.Lookup`: what is looked up, with `Lookup.ask`, `Lookup.Shared` and `Lookup.IsAnswer`
* `Library.Lookup.Served`: the class that is asked is ready
* `Library.Lookup.Answered`: an object is the answer to a lookup

## Main results

* `Library.Lookup.exists_ask`: a lookup
* `Library.Lookup.exists_answers`: lookups, one after another
-/

namespace ClassSharing

namespace Library

open Session

/-- What programs look up. -/
inductive Lookup where
  | integer (n : Int64)
  | locale (language region : Text)
deriving DecidableEq

namespace Lookup

/-- A lookup in the library. -/
def ask (lib : Library) : Lookup → Run (Option ObjectId)
  | integer n => lib.boxed n
  | locale language region => do return some (← lib.localeFor language region)

/-- The lookups with shared answers: small integers, and the locales without a language, for English
and for American English. -/
def Shared : Lookup → Prop
  | integer n => -128 ≤ n.toInt ∧ n.toInt ≤ 127
  | locale language region =>
    (language, region) ∈ [(("" : Text), ("" : Text)), ("en", ""), ("en", "US")]

/-- An object has the class and the instance variables that were looked up. -/
def IsAnswer (lib : Library) (m : Machine) : Lookup → ObjectId → Prop
  | integer n, o =>
    (m.objectAt o).classId = some lib.integer ∧ m.getField o "value" = .ok (.int n)
  | locale language region, o =>
    (m.objectAt o).classId = some lib.locale ∧ m.getField o "language" = .ok (.str language) ∧
      m.getField o "region" = .ok (.str region)

/-! ### Answers -/

/-- The class that is asked. -/
def classId : Lookup → ClassId
  | integer _ => 3
  | locale _ _ => 9

/-- The object that is given out. -/
def object : Lookup → Object
  | integer n => instanceOf 2 [.int n]
  | locale language region => instanceOf 8 [.str language, .str region]

/-- The class that is asked is ready. -/
def Served (m : Machine) : Lookup → Prop
  | integer _ => Settled .integers (HoldsRow 2 boxedRows) m
  | locale _ _ => Settled .locales (HoldsRow 8 localeRows) m

/-- The statics of the class lead to an object. -/
def LeadsTo (m : Machine) : Lookup → ObjectId → Prop
  | integer n, o => ∃ root < m.objects.size, m.static 3 "cache" = .obj root ∧
      m.getElement root (n.toInt - cacheLow) = .ok (.obj o)
  | locale language region, o =>
    ∃ known ∈ knownLocales, known.2 = (language, region) ∧ m.static 9 known.1 = .obj o

/-- An object is the answer to a lookup. If it is not shared, it was not there at the start. -/
structure Answered (start : Nat) (m : Machine) (l : Lookup) (o : ObjectId) : Prop where
  object : m.objectAt o = l.object
  shared : l.Shared → l.LeadsTo m o
  made : ¬ l.Shared → start ≤ o

section Answers

variable {m : Machine} {l l' : Lookup} {o o' : ObjectId} {start : Nat}

theorem object_injective : Function.Injective object := by
  intro l l' h
  cases l <;> cases l' <;> simp_all [object, instanceOf]

theorem shaped_object (l : Lookup) : Shaped l.object := by
  cases l with
  | integer n => exact shaped_instanceOf (by decide) rfl
  | locale language region => exact shaped_instanceOf (by decide) rfl

theorem shared_locale_iff {language region : Text} :
    (locale language region).Shared ↔ ∃ known ∈ knownLocales, known.2 = (language, region) := by
  simp [Shared, knownLocales, eq_comm]

/-- What was looked up can be read from the object. -/
theorem isAnswer_of_object (hfits : Fits m) (h : m.objectAt o = l.object) :
    l.IsAnswer standard m o := by
  cases l with
  | integer n =>
    exact ⟨congrArg Object.classId h, getField_eq hfits (by decide) h (i := 0) (by decide) rfl⟩
  | locale language region =>
    exact ⟨congrArg Object.classId h, getField_eq hfits (by decide) h (i := 0) (by decide) rfl,
      getField_eq hfits (by decide) h (i := 1) (by decide) rfl⟩

theorem LeadsTo.eq (h : l.LeadsTo m o) (h' : l.LeadsTo m o') : o = o' := by
  cases l with
  | integer n =>
    obtain ⟨root, -, hstatic, helement⟩ := h
    obtain ⟨root', -, hstatic', helement'⟩ := h'
    obtain rfl := Value.obj.inj (hstatic.symm.trans hstatic')
    exact Value.obj.inj (Except.ok.inj (helement.symm.trans helement'))
  | locale language region =>
    obtain ⟨known, hmem, hknown, hstatic⟩ := h
    obtain ⟨known', hmem', hknown', hstatic'⟩ := h'
    have hdistinct : (knownLocales.map Prod.snd).Nodup := by decide
    obtain rfl := List.inj_on_of_nodup_map hdistinct hmem hmem' (hknown.trans hknown'.symm)
    exact Value.obj.inj (hstatic.symm.trans hstatic')

/-- Objects at the end of the heap are nothing to the statics. -/
theorem LeadsTo.withObjects (h : l.LeadsTo m o) (objects : List Object) :
    l.LeadsTo (m.withObjects objects) o := by
  cases l with
  | integer n =>
    obtain ⟨root, hlt, hstatic, helement⟩ := h
    have hgrown := m.grown_withObjects objects
    have hsame : (m.withObjects objects).getElement root = m.getElement root := by
      funext i
      unfold Machine.getElement
      rw [hgrown.objectAt hlt]
    exact ⟨root, hlt.trans_le hgrown.size_le, hstatic, hsame ▸ helement⟩
  | locale language region => exact h

theorem Served.withObjects (h : l.Served m) (objects : List Object) :
    l.Served (m.withObjects objects) := by
  have hgrown := m.grown_withObjects objects
  cases l with
  | integer n => exact h.of_grown (content_integers []) hgrown h.1 fun _ => rfl
  | locale language region => exact h.of_grown (content_locales []) hgrown h.1 fun _ => rfl

theorem Served.ready (h : l.Served m) : m.stateOf l.classId = .ready := by
  cases l <;> exact h.1

theorem Answered.lt_size (h : l.Answered start m o) : o < m.objects.size := by
  refine lt_size_of_shaped ?_
  rw [h.object]
  exact l.shaped_object

/-- An answer stays one, and it was given out since any earlier start. -/
theorem Answered.withObjects {start' : Nat} (h : l.Answered start m o) (objects : List Object)
    (hstart : start' ≤ start) : l.Answered start' (m.withObjects objects) o where
  object := ((m.grown_withObjects objects).objectAt h.lt_size).trans h.object
  shared hshared := (h.shared hshared).withObjects objects
  made hshared := hstart.trans (h.made hshared)

/-- **An object is given out twice** if the same thing was looked up twice and is shared. -/
theorem Answered.eq_iff {start' : Nat} (h : l.Answered start m o) (h' : l'.Answered start' m o')
    (hlt : o < start') : o = o' ↔ l = l' ∧ l.Shared := by
  constructor
  · rintro rfl
    obtain rfl := object_injective (h.object.symm.trans h'.object)
    exact ⟨rfl, of_not_not fun hshared => Nat.not_le_of_lt hlt (h'.made hshared)⟩
  · rintro ⟨rfl, hshared⟩
    exact (h.shared hshared).eq (h'.shared hshared)

/-! ### Shared objects -/

theorem Served.exists_integer {n : Int64} (h : (integer n).Served m) (hn : (integer n).Shared) :
    ∃ o, (integer n).LeadsTo m o ∧ m.objectAt o = (integer n).object := by
  obtain ⟨-, root, hderived, hrow⟩ := h
  have hlt : root < m.objects.size := (content_integers []).lt_size hrow
  obtain ⟨os, hroot, hheld⟩ := hrow
  obtain ⟨hlow, hhigh⟩ : -128 ≤ n.toInt ∧ n.toInt ≤ 127 := hn
  obtain ⟨i, hi⟩ : ∃ i : Nat, n.toInt - cacheLow = i :=
    Int.eq_ofNat_of_zero_le (by unfold cacheLow; omega)
  have hlength : boxedRows.length = 256 := by
    rw [boxedRows, List.length_map, List.length_range]
    rfl
  have hbound : i < boxedRows.length := by
    unfold cacheLow at hi
    omega
  have hbound' : i < os.length := hheld.length_eq ▸ hbound
  refine ⟨os[i], ⟨root, hlt, hderived ("cache", .array) (by decide), ?_⟩, ?_⟩
  · rw [hi]
    refine Machine.getElement_eq ?_
    rw [hroot]
    exact (List.getElem?_map ..).trans (by rw [List.getElem?_eq_getElem hbound', Option.map_some])
  · have hmember : m.objectAt os[i] = instanceOf 2 boxedRows[i] := hheld.get hbound hbound'
    have hvalue : boxedRows[i] = [Value.int n] := by
      have hint : cacheLow + (i : Int) = n.toInt := by omega
      simp only [boxedRows, List.getElem_map, List.getElem_range, hint, Int64.ofInt_toInt]
    rw [hmember, hvalue]
    rfl

theorem Served.exists_locale {language region : Text} (h : (locale language region).Served m)
    {known : Text × Text × Text} (hmem : known ∈ knownLocales)
    (hknown : known.2 = (language, region)) :
    ∃ o, m.static 9 known.1 = .obj o ∧ m.objectAt o = (locale language region).object := by
  obtain ⟨-, root, hderived, os, hroot, hheld⟩ := h
  obtain ⟨i, hi, rfl⟩ := List.mem_iff_getElem.1 hmem
  have hlength : localeRows.length = knownLocales.length := List.length_map _
  have hbound : i < localeRows.length := hlength ▸ hi
  have hbound' : i < os.length := hheld.length_eq ▸ hbound
  refine ⟨os[i], ?_, ?_⟩
  · have hsources : ∀ i (hi : i < knownLocales.length),
        ((knownLocales[i]).1, Source.element i) ∈ Holding.locales.sources := by
      decide
    have hstatic := hderived _ (hsources i hi)
    rw [Source.value, hroot] at hstatic
    refine hstatic.trans ?_
    show ((os.map Value.obj)[i]?).getD .nil = .obj os[i]
    rw [List.getElem?_map, List.getElem?_eq_getElem hbound']
    rfl
  · have hmember : m.objectAt os[i] = instanceOf 8 localeRows[i] := hheld.get hbound hbound'
    have hvalues : localeRows[i] = [Value.str language, .str region] := by
      simp only [localeRows, List.getElem_map, hknown]
    rw [hmember, hvalues]
    rfl

end Answers

/-! ### Lookups -/

section Asking

variable {l : Lookup} {s s₁ : Session}

/-- A shared answer. -/
theorem Answered.of_leadsTo {start : Nat} {m : Machine} {o : ObjectId} (h : l.LeadsTo m o)
    (hobject : m.objectAt o = l.object) (hshared : l.Shared) : l.Answered start m o :=
  ⟨hobject, fun _ => h, fun hnot => absurd hshared hnot⟩

/-- An answer that is made on the spot. -/
theorem answered_made (m : Machine) (hshared : ¬ l.Shared) :
    l.Answered m.objects.size (m.withObjects [l.object]) m.objects.size :=
  ⟨@Machine.objectAt_append m _ [l.object] rfl 0, fun h => absurd h hshared, fun _ => Nat.le_refl _⟩

theorem withMachine_withObjects_nil (s : Session) :
    s.withMachine (s.machine.withObjects []) = s := by
  rw [Machine.withObjects_nil]
  rfl

/-- **The boxed form of an integer.** -/
theorem exists_boxed {n : Int64} (hgranted : Session.request 3 s = (.ok (), s₁))
    (hfits : Fits s₁.machine) (hserved : (integer n).Served s₁.machine) :
    ∃ o objects, standard.boxed n s
        = (.ok (some o), s₁.withMachine (s₁.machine.withObjects objects)) ∧
      (integer n).Answered s₁.machine.objects.size (s₁.machine.withObjects objects) o := by
  have hrequire : Run.require Session.request standard.integerCache s = (.ok (), s₁) :=
    require_eq hgranted
  have hbounds : (cacheLow ≤ n.toInt && n.toInt ≤ cacheHigh) = true ↔ (integer n).Shared := by
    simp only [Bool.and_eq_true, decide_eq_true_eq]
    exact Iff.rfl
  by_cases hshared : (integer n).Shared
  · obtain ⟨o, hleads, hobject⟩ := hserved.exists_integer hshared
    refine ⟨o, [], ?_, ?_⟩
    · obtain ⟨root, -, hstatic, helement⟩ := hleads
      have hcache : s₁.machine.static standard.integerCache "cache" = .obj root := hstatic
      rw [withMachine_withObjects_nil, boxed, exceptBind_apply hrequire,
        if_pos (hbounds.2 hshared), exceptBind_apply (machine_apply s₁), hcache]
      simp only [Value.object?, helement]
      rfl
    · rw [Machine.withObjects_nil]
      exact .of_leadsTo hleads hobject hshared
  · have hmake := make_eq hfits (c := 2) (by decide) [("value", .int n)] rfl
    refine ⟨_, [(integer n).object], ?_, answered_made _ hshared⟩
    rw [boxed, exceptBind_apply hrequire, if_neg fun h => hshared (hbounds.1 h)]
    exact exceptBind_apply hmake

/-- **The locale of a language and a region.** -/
theorem exists_localeFor {language region : Text}
    (hgranted : Session.request 9 s = (.ok (), s₁)) (hfits : Fits s₁.machine)
    (hserved : (locale language region).Served s₁.machine) :
    ∃ o objects, standard.localeFor language region s
        = (.ok o, s₁.withMachine (s₁.machine.withObjects objects)) ∧
      (locale language region).Answered s₁.machine.objects.size
        (s₁.machine.withObjects objects) o := by
  have hrequire : Run.require Session.request standard.localeCache s = (.ok (), s₁) :=
    require_eq hgranted
  rw [localeFor, exceptBind_apply hrequire]
  generalize hfind : List.find? _ knownLocales = found
  cases found with
  | some known =>
    have hmem := List.mem_of_find?_eq_some hfind
    have hknown : known.2 = (language, region) := by
      simpa [Prod.ext_iff] using List.find?_some hfind
    obtain ⟨o, hstatic, hobject⟩ := hserved.exists_locale hmem hknown
    have hcache : s₁.machine.static standard.localeCache known.1 = .obj o := hstatic
    refine ⟨o, [], ?_, ?_⟩
    · rw [withMachine_withObjects_nil]
      refine (exceptBind_apply (machine_apply s₁)).trans ?_
      rw [hcache]
      rfl
    · rw [Machine.withObjects_nil]
      exact .of_leadsTo ⟨known, hmem, hknown, hstatic⟩ hobject
        (shared_locale_iff.2 ⟨known, hmem, hknown⟩)
  | none =>
    have hmake := make_eq hfits (c := 8) (by decide)
      [("language", .str language), ("region", .str region)] rfl
    have hshared : ¬ (locale language region).Shared := by
      rw [shared_locale_iff]
      rintro ⟨known, hmem, hknown⟩
      have hnone := List.find?_eq_none.1 hfind known hmem
      simp [hknown] at hnone
    exact ⟨_, [(locale language region).object], hmake, answered_made _ hshared⟩

/-- **A lookup** gives out an object, after the class that is asked has become ready. At most that
object has been put on the heap for it. -/
theorem exists_ask (hgranted : Session.request l.classId s = (.ok (), s₁)) (hfits : Fits s₁.machine)
    (hserved : l.Served s₁.machine) :
    ∃ o objects, l.ask standard s
        = (.ok (some o), s₁.withMachine (s₁.machine.withObjects objects)) ∧
      l.Answered s₁.machine.objects.size (s₁.machine.withObjects objects) o := by
  cases l with
  | integer n => exact exists_boxed hgranted hfits hserved
  | locale language region =>
    obtain ⟨o, objects, hlocale, hanswered⟩ := exists_localeFor hgranted hfits hserved
    exact ⟨o, objects, exceptBind_apply hlocale, hanswered⟩

/-- **Lookups, one after another**: each gets its answer, and of two of them both get the same
object if they are the same lookup and it is shared. -/
theorem exists_answers (lookups : List Lookup) (hfits : Fits s.machine)
    (hserved : ∀ l : Lookup, l.Served s.machine) :
    ∃ os objects t, lookups.mapM (ask standard) s = (.ok (os.map some), t) ∧
      t.machine = s.machine.withObjects objects ∧
      List.Forall₂ (Answered s.machine.objects.size t.machine) lookups os ∧
      (lookups.zip os).Pairwise fun a b => a.2 = b.2 ↔ a.1 = b.1 ∧ a.1.Shared := by
  induction lookups generalizing s with
  | nil => exact ⟨[], [], s, rfl, (Machine.withObjects_nil _).symm, .nil, .nil⟩
  | cons l rest ih =>
    have hgranted : Session.request l.classId s = (.ok (), s.note (.granted l.classId)) :=
      requestWithin_of_ready _ (hserved l).ready
    obtain ⟨o, first, hasked, hanswered⟩ := exists_ask hgranted hfits (hserved l)
    set s₁ := (s.note (.granted l.classId)).withMachine
      ((s.note (.granted l.classId)).machine.withObjects first)
    have hevolves : s.machine.Evolves s₁.machine := Machine.evolves_withObjects _ _
    obtain ⟨os, second, t, hothers, hmachine, hanswers, hpairs⟩ :=
      ih (s := s₁) (hfits.of_evolves hevolves) fun l' => (hserved l').withObjects first
    have hlt : o < s₁.machine.objects.size := hanswered.lt_size
    have hlater : l.Answered s.machine.objects.size t.machine o := by
      rw [hmachine]
      exact hanswered.withObjects second (Nat.le_refl _)
    refine ⟨o :: os, first ++ second, t, ?_, ?_, .cons hlater (hanswers.imp fun l' o' h => ?_), ?_⟩
    · rw [List.mapM_cons, exceptBind_apply hasked, exceptBind_apply hothers]
      rfl
    · rw [hmachine]
      exact Machine.withObjects_withObjects _ _ _
    · exact ⟨h.object, h.shared, fun hnot =>
        (Machine.grown_withObjects _ _).size_le.trans (h.made hnot)⟩
    · refine List.pairwise_cons.2 ⟨fun other hother => ?_, hpairs⟩
      exact hlater.eq_iff ((List.forall₂_iff_zip.1 hanswers).2 hother) hlt

end Asking

end Lookup

end Library

end ClassSharing
