import ClassSharing.Proofs.Machine.Heap
import ClassSharing.Proofs.Table

/-!
# Static fields over all calls

The static fields of a class are declared, assigned one at a time, and assigned together. Whatever
the order of the calls, the declared names are those that have been declared, each at the place of
its first declaration, and the value of a field is the last one that has been written by a call that
was not refused. Both together are all that a call has to preserve, and a call that is refused adds
nothing to either.

A class could as well keep its names in a list and its values in a table of their own, which every
call then has to change together. That comes to the same: the two have the same names at any time,
and the values in the table are those of the fields.

## What is deliberately absent

Nothing is said of what else happens to the machine between the calls. The static fields of a class
are changed by these calls only.

## Main definitions

* `StaticCall`, `Machine.staticCall`, `Machine.afterStaticCalls`: calls about the static fields of
  a class
* `Machine.writtenStatics`: what such calls have written
* `Statics.Records`: the fields are what has been declared and written
* `FieldTables`, `Statics.Mirrors`: the names and the values in two tables, and when they agree

## Main results

* `Machine.staticCall_cases`: a call does all it says, or it is refused
* `Statics.Records.effect`, `Statics.Mirrors.effect`: one call, and `Machine.kept_afterStaticCalls`
  for a run
* `Machine.statics_consistent`: the static fields of a class over all calls
-/

namespace ClassSharing

/-- A call about the static fields of a class. -/
inductive StaticCall where
  /-- Declares names, unless they are declared already. -/
  | declare (names : List Text)
  /-- Assigns a declared field. -/
  | set (name : Text) (value : Value)
  /-- Assigns several declared fields together. -/
  | setAll (values : List (Text × Value))
deriving DecidableEq

namespace StaticCall

/-- The names that a call declares. -/
def names : StaticCall → List Text
  | declare names => names
  | _ => []

/-- The values that a call assigns. -/
def values : StaticCall → List (Text × Value)
  | declare _ => []
  | set name value => [(name, value)]
  | setAll values => values

/-- A call that assigns declares nothing. -/
theorem names_eq_nil {call : StaticCall} {kv : Text × Value} (h : kv ∈ call.values) :
    call.names = [] := by
  cases call with
  | declare names => cases h
  | set name value => rfl
  | setAll values => rfl

/-- The fields after a call that is not refused. -/
def effect (call : StaticCall) (s : Statics) : Statics :=
  (s.declare call.names).writeAll call.values

end StaticCall

namespace Machine

/-- A call about the static fields of a class. -/
def staticCall (m : Machine) (c : ClassId) : StaticCall → Except Fault Machine
  | .declare names => .ok (m.setStatics c ((m.classAt c).statics.declare names))
  | .set name value => m.setStatic c name value
  | .setAll values => m.setAllStatics c values

/-- The machine after a call, which is the same one if the call is refused. -/
def afterStaticCall (m : Machine) (c : ClassId) (call : StaticCall) : Machine :=
  match m.staticCall c call with
  | .ok m' => m'
  | .error _ => m

/-- The machine after calls. -/
def afterStaticCalls (m : Machine) (c : ClassId) (calls : List StaticCall) : Machine :=
  calls.foldl (·.afterStaticCall c) m

/-- What a call writes, which is nothing if it is refused. -/
def writtenBy (m : Machine) (c : ClassId) (call : StaticCall) : List (Text × Value) :=
  match m.staticCall c call with
  | .ok _ => call.values
  | .error _ => []

/-- What calls write, in order. -/
def writtenStatics (m : Machine) (c : ClassId) : List StaticCall → List (Text × Value)
  | [] => []
  | call :: rest => m.writtenBy c call ++ (m.afterStaticCall c call).writtenStatics c rest

/-- The declared names of a class, in the order of their declaration. -/
def staticNames (m : Machine) (c : ClassId) : List Text := (m.classAt c).statics.names

end Machine

namespace Statics

variable {s : Statics} {name : Text} {names declared : List Text} {written : List (Text × Value)}

theorem has_iff : s.has name = true ↔ name ∈ s.names := List.contains_iff_mem

/-! ### Declaring names -/

theorem declare_cons (s : Statics) (name : Text) (rest : List Text) :
    s.declare (name :: rest) = (s.declareOne name).declare rest := rfl

theorem names_declareOne (s : Statics) (name : Text) :
    (s.declareOne name).names = if name ∈ s.names then s.names else s.names ++ [name] := by
  rw [declareOne]
  by_cases h : name ∈ s.names
  · rw [if_pos h, if_pos (has_iff.2 h)]
  · rw [if_neg h, if_neg fun hhas => h (has_iff.1 hhas)]
    exact List.map_append

theorem valueIn_concat_nil (name declared : Text) (fields : List (Text × Value)) :
    valueIn name (fields ++ [(declared, .nil)]) = valueIn name fields := by
  induction fields with
  | nil => simp [valueIn]
  | cons first rest ih => rw [List.cons_append, valueIn, valueIn, ih]

/-- Declaring a name changes no value. -/
theorem get_declareOne (s : Statics) (declared name : Text) :
    (s.declareOne declared).get name = s.get name := by
  rw [declareOne]
  split
  · rfl
  · exact valueIn_concat_nil name declared s.fields

theorem get_declare (s : Statics) (names : List Text) (name : Text) :
    (s.declare names).get name = s.get name := by
  induction names generalizing s with
  | nil => rfl
  | cons first rest ih => rw [declare_cons, ih, get_declareOne]

theorem names_declare (h : s.names = declared.eraseDups) :
    (s.declare names).names = (declared ++ names).eraseDups := by
  induction names generalizing s declared with
  | nil => rw [List.append_nil]; exact h
  | cons first rest ih =>
    have hfirst : (s.declareOne first).names = (declared ++ [first]).eraseDups := by
      rw [names_declareOne, eraseDups_concat, h]
      simp only [List.mem_eraseDups]
    rw [declare_cons, ih hfirst, List.append_assoc]
    rfl

theorem subset_names_declare (s : Statics) (names : List Text) (h : name ∈ s.names) :
    name ∈ (s.declare names).names := by
  induction names generalizing s with
  | nil => exact h
  | cons first rest ih =>
    refine ih (s.declareOne first) ?_
    rw [names_declareOne]
    split
    · exact h
    · exact List.mem_append_left _ h

/-! ### What has been declared and written -/

/-- The fields are what has been declared and written: every name at the place of its first
declaration, with the last value that has been written. -/
structure Records (s : Statics) (declared : List Text) (written : List (Text × Value)) : Prop where
  names : s.names = declared.eraseDups
  get : ∀ name, s.get name = (lastIn name written).getD .nil

theorem records_none : none.Records [] [] := ⟨rfl, fun _ => rfl⟩

/-- **A call that is not refused** adds the names that it declares and the values that it writes. -/
theorem Records.effect {call : StaticCall} (h : s.Records declared written)
    (hvalues : ∀ kv ∈ call.values, s.has kv.1 = true) :
    (call.effect s).Records (declared ++ call.names) (written ++ call.values) where
  names := by rw [StaticCall.effect, names_writeAll, names_declare h.names]
  get name := by
    have hdeclared : ∀ kv ∈ call.values, (s.declare call.names).has kv.1 = true := fun kv hkv =>
      has_iff.2 (subset_names_declare s call.names (has_iff.1 (hvalues kv hkv)))
    rw [StaticCall.effect, get_writeAll_of_declared hdeclared, get_declare, h.get, lastIn_append,
      Option.getD_or]

/-! ### Names and values in two tables -/

end Statics

/-- The names of static fields in the order of their declaration, and their values by name. -/
structure FieldTables where
  names : List Text
  values : Table Value

namespace FieldTables

/-- Two tables without fields. -/
def empty : FieldTables := ⟨[], Table.empty⟩

/-- Declares a name in both tables, unless the table of values has it. -/
def declareOne (t : FieldTables) (name : Text) : FieldTables :=
  if t.values.contains name then t else ⟨t.names ++ [name], t.values.insert name .nil⟩

/-- Replaces a value. -/
def put (t : FieldTables) (kv : Text × Value) : FieldTables :=
  ⟨t.names, t.values.insert kv.1 kv.2⟩

/-- The tables after a call. A call that assigns a name that is not declared changes nothing. -/
def after (t : FieldTables) (call : StaticCall) : FieldTables :=
  if call.values.all fun kv => t.values.contains kv.1 then
    call.values.foldl put (call.names.foldl declareOne t)
  else t

/-- The tables after calls. -/
def afterCalls (t : FieldTables) (calls : List StaticCall) : FieldTables := calls.foldl after t

end FieldTables

namespace Statics

variable {s : Statics} {t : FieldTables} {name : Text}

/-- Both tables have the fields. -/
structure Mirrors (s : Statics) (t : FieldTables) : Prop where
  names : t.names = s.names
  ascending : t.values.Ascending
  get? : ∀ name, t.values.get? name = if name ∈ s.names then some (s.get name) else Option.none

theorem mirrors_none : none.Mirrors FieldTables.empty :=
  ⟨rfl, Table.ascending_empty, fun _ => rfl⟩

theorem Mirrors.contains_iff (h : s.Mirrors t) :
    t.values.contains name = true ↔ name ∈ s.names := by
  rw [Table.contains, h.get?]
  split <;> simp_all

/-- The table of values has the declared names and no other ones. -/
theorem Mirrors.keys_perm (h : s.Mirrors t) (hnodup : s.names.Nodup) :
    t.values.keys.Perm s.names := by
  have hkeys : t.values.keys.Nodup :=
    List.Pairwise.map Prod.fst (fun _ _ hlt => Text.ne_of_precedes hlt) h.ascending
  refine (List.perm_ext_iff_of_nodup hkeys hnodup).2 fun name => ?_
  rw [← h.contains_iff, Table.contains, Option.isSome_iff_exists, Table.keys, List.mem_map]
  constructor
  · rintro ⟨⟨_, value⟩, hmem, rfl⟩
    exact ⟨value, (Table.mem_entries_iff h.ascending).1 hmem⟩
  · rintro ⟨value, hvalue⟩
    exact ⟨(name, value), (Table.mem_entries_iff h.ascending).2 hvalue, rfl⟩

theorem get_of_not_mem (h : name ∉ s.names) : s.get name = .nil := by
  obtain ⟨fields⟩ := s
  show valueIn name fields = .nil
  induction fields with
  | nil => rfl
  | cons first rest ih =>
    rw [names, List.map_cons, List.mem_cons, not_or] at h
    rw [valueIn, if_neg (Ne.symm h.1)]
    exact ih h.2

theorem Mirrors.declareOne (h : s.Mirrors t) (name : Text) :
    (s.declareOne name).Mirrors (t.declareOne name) := by
  by_cases hname : name ∈ s.names
  · have hsame : s.declareOne name = s := if_pos (has_iff.2 hname)
    rw [FieldTables.declareOne, if_pos (h.contains_iff.2 hname), hsame]
    exact h
  · rw [FieldTables.declareOne, if_neg fun hcontains => hname (h.contains_iff.1 hcontains)]
    refine ⟨?_, Table.ascending_insert h.ascending name .nil, fun other => ?_⟩
    · rw [names_declareOne, if_neg hname, h.names]
    · rw [Table.get?_insert, h.get?, names_declareOne, if_neg hname, get_declareOne]
      by_cases hother : other = name
      · rw [if_pos hother, if_pos (by simp [hother]), hother, get_of_not_mem hname]
      · simp [hother]

theorem Mirrors.put (h : s.Mirrors t) {kv : Text × Value} (hname : kv.1 ∈ s.names) :
    (s.write kv.1 kv.2).Mirrors (t.put kv) := by
  refine ⟨h.names.trans (names_write s kv.1 kv.2).symm,
    Table.ascending_insert h.ascending kv.1 kv.2, fun other => ?_⟩
  rw [FieldTables.put, Table.get?_insert, h.get?, names_write, get_write]
  by_cases hother : other = kv.1
  · simp [hother, hname]
  · simp [hother]

theorem Mirrors.declare (h : s.Mirrors t) (names : List Text) :
    (s.declare names).Mirrors (names.foldl FieldTables.declareOne t) := by
  induction names generalizing s t with
  | nil => exact h
  | cons first rest ih => exact ih (h.declareOne first)

theorem Mirrors.writeAll (h : s.Mirrors t) {values : List (Text × Value)}
    (hvalues : ∀ kv ∈ values, kv.1 ∈ s.names) :
    (s.writeAll values).Mirrors (values.foldl FieldTables.put t) := by
  induction values generalizing s t with
  | nil => exact h
  | cons first rest ih =>
    obtain ⟨hfirst, hrest⟩ := List.forall_mem_cons.1 hvalues
    exact ih (h.put hfirst) fun kv hkv => by rw [names_write]; exact hrest kv hkv

/-- **A call that is not refused** changes both tables as it changes the fields, -/
theorem Mirrors.effect {call : StaticCall} (h : s.Mirrors t)
    (hvalues : ∀ kv ∈ call.values, s.has kv.1 = true) : (call.effect s).Mirrors (t.after call) := by
  have hall : call.values.all (fun kv => t.values.contains kv.1) = true :=
    List.all_eq_true.2 fun kv hkv => h.contains_iff.2 (has_iff.1 (hvalues kv hkv))
  rw [FieldTables.after, if_pos hall]
  exact (h.declare call.names).writeAll fun kv hkv =>
    subset_names_declare s call.names (has_iff.1 (hvalues kv hkv))

/-- and one that is refused changes neither. -/
theorem Mirrors.after_of_refused {call : StaticCall} (h : s.Mirrors t) {kv : Text × Value}
    (hkv : kv ∈ call.values) (hname : s.has kv.1 = false) : t.after call = t := by
  refine if_neg fun hall => ?_
  have hcontains := h.contains_iff.1 (List.all_eq_true.1 hall kv hkv)
  rw [has_iff.2 hcontains] at hname
  cases hname

end Statics

namespace Machine

variable {m m' : Machine} {c : ClassId} {declared : List Text} {written : List (Text × Value)}

/-- **A call does all that it says**, or it is refused for a name that is not declared. -/
theorem staticCall_cases (m : Machine) (c : ClassId) (call : StaticCall) :
    ((∀ kv ∈ call.values, (m.classAt c).statics.has kv.1 = true) ∧
      m.staticCall c call = .ok (m.setStatics c (call.effect (m.classAt c).statics))) ∨
    ∃ kv ∈ call.values, (m.classAt c).statics.has kv.1 = false ∧
      m.staticCall c call = .error (.of (.noStaticField (m.className c) kv.1)) := by
  cases call with
  | declare names => exact .inl ⟨fun _ h => (List.not_mem_nil h).elim, rfl⟩
  | set name value =>
    cases hhas : (m.classAt c).statics.has name with
    | true =>
      refine .inl ⟨fun kv hkv => ?_, setStatic_eq_ok hhas⟩
      rw [List.mem_singleton.1 hkv]
      exact hhas
    | false =>
      refine .inr ⟨(name, value), List.mem_singleton_self _, hhas, ?_⟩
      rw [staticCall, setStatic, Statics.set?, hhas]
      rfl
  | setAll values =>
    cases hfound : values.find? fun kv => !(m.classAt c).statics.has kv.1 with
    | none =>
      have hvalues : ∀ kv ∈ values, (m.classAt c).statics.has kv.1 = true := fun kv hkv => by
        simpa using List.find?_eq_none.1 hfound kv hkv
      exact .inl ⟨hvalues, setAllStatics_eq_ok hvalues⟩
    | some kv =>
      refine .inr ⟨kv, List.mem_of_find?_eq_some hfound, ?_, ?_⟩
      · simpa using List.find?_some hfound
      · rw [staticCall, setAllStatics, Statics.setAll?, Statics.undeclared?, hfound]
        rfl

theorem not_mem_staticNames_iff {name : Text} :
    name ∉ m.staticNames c ↔ (m.classAt c).statics.has name = false := by
  rw [staticNames, ← Statics.has_iff, Bool.not_eq_true]

/-- **A call is refused** exactly if it assigns a field that is not declared, -/
theorem exists_staticCall_eq_error_iff {call : StaticCall} :
    (∃ fault, m.staticCall c call = .error fault) ↔
      ∃ kv ∈ call.values, kv.1 ∉ m.staticNames c := by
  simp only [not_mem_staticNames_iff]
  rcases m.staticCall_cases c call with ⟨hvalues, hok⟩ | ⟨kv, hkv, hname, herror⟩
  · refine iff_of_false ?_ ?_
    · rintro ⟨fault, herror⟩
      cases hok.symm.trans herror
    · rintro ⟨kv, hkv, hname⟩
      cases hname.symm.trans (hvalues kv hkv)
  · exact iff_of_true ⟨_, herror⟩ ⟨kv, hkv, hname⟩

/-- and then it changes nothing, and the fault names the class and such a field. -/
theorem of_staticCall_eq_error {call : StaticCall} {fault : Fault}
    (h : m.staticCall c call = .error fault) :
    m.afterStaticCall c call = m ∧ ∃ kv ∈ call.values, kv.1 ∉ m.staticNames c ∧
      fault = .of (.noStaticField (m.className c) kv.1) := by
  refine ⟨by rw [afterStaticCall, h], ?_⟩
  rcases m.staticCall_cases c call with ⟨-, hok⟩ | ⟨kv, hkv, hname, herror⟩
  · cases hok.symm.trans h
  · exact ⟨kv, hkv, not_mem_staticNames_iff.2 hname, Except.error.inj (h.symm.trans herror)⟩

/-- The class after a call, and what the call has written. -/
theorem afterStaticCall_cases (hc : c < m.classes.size) (call : StaticCall) :
    ((∀ kv ∈ call.values, (m.classAt c).statics.has kv.1 = true) ∧
      m.writtenBy c call = call.values ∧
      (m.afterStaticCall c call).classes.size = m.classes.size ∧
      ((m.afterStaticCall c call).classAt c).statics = call.effect (m.classAt c).statics) ∨
    ∃ kv ∈ call.values, (m.classAt c).statics.has kv.1 = false ∧
      m.writtenBy c call = [] ∧ m.afterStaticCall c call = m := by
  rw [writtenBy, afterStaticCall]
  rcases m.staticCall_cases c call with ⟨hvalues, hok⟩ | ⟨kv, hkv, hname, herror⟩
  · rw [hok]
    refine .inl ⟨hvalues, rfl, Array.size_modify, ?_⟩
    show ((m.setStatics c _).classAt c).statics = _
    rw [setStatics, classAt_updateClass, if_pos ⟨rfl, hc⟩]
  · rw [herror]
    exact .inr ⟨kv, hkv, hname, rfl, rfl⟩

/-- **What calls preserve**: the fields are what has been declared and written, and two tables have
them as well. -/
theorem kept_afterStaticCalls {t : FieldTables} (hc : c < m.classes.size)
    (hrecords : (m.classAt c).statics.Records declared written)
    (hmirrors : (m.classAt c).statics.Mirrors t) (calls : List StaticCall) :
    c < (m.afterStaticCalls c calls).classes.size ∧
    ((m.afterStaticCalls c calls).classAt c).statics.Records
      (declared ++ calls.flatMap StaticCall.names) (written ++ m.writtenStatics c calls) ∧
    ((m.afterStaticCalls c calls).classAt c).statics.Mirrors (t.afterCalls calls) := by
  induction calls generalizing m declared written t with
  | nil =>
    rw [List.flatMap_nil, writtenStatics, List.append_nil, List.append_nil]
    exact ⟨hc, hrecords, hmirrors⟩
  | cons call rest ih =>
    have hm : m.afterStaticCalls c (call :: rest)
        = (m.afterStaticCall c call).afterStaticCalls c rest := rfl
    have ht : t.afterCalls (call :: rest) = (t.after call).afterCalls rest := rfl
    rw [hm, ht, List.flatMap_cons, writtenStatics, ← List.append_assoc, ← List.append_assoc]
    rcases m.afterStaticCall_cases hc call with
      ⟨hvalues, hwritten, hsize, hafter⟩ | ⟨kv, hkv, hname, hwritten, hafter⟩
    · rw [hwritten]
      exact ih (hsize.symm ▸ hc) (hafter ▸ hrecords.effect hvalues)
        (hafter ▸ hmirrors.effect hvalues)
    · rw [hwritten, hafter, StaticCall.names_eq_nil hkv, hmirrors.after_of_refused hkv hname,
        List.append_nil, List.append_nil]
      exact ih hc hrecords hmirrors

/-- A class that has just been made. -/
theorem of_addClass_eq {k : Class} (h : m.addClass k = (c, m')) :
    c < m'.classes.size ∧ m'.classAt c = k := by
  have hsize : (m.addClass k).2.classes.size = m.classes.size + 1 := Array.size_push _
  have hclass := (classAt_addClass m k m.classes.size).trans (if_pos rfl)
  rw [h] at hsize hclass
  obtain rfl : m.classes.size = c := congrArg Prod.fst h
  exact ⟨hsize ▸ Nat.lt_succ_self _, hclass⟩

/-- **The static fields of a class over all calls.** Let a class be made, and let `s` be any machine
that calls about its static fields reach. The declared names are those of the class and of the
calls, each at the place of its first declaration, so that none is repeated and later calls only
append to them. They are the names of a table of values that every call changes together with them,
and the table has the values of the fields. An assignment of one or several fields is refused if and
only if one of them is not declared, for such a field, and then it changes nothing. The value of a
field is the last one that a call has written that was not refused, nil if there is none, and in
particular if the field is not declared. -/
theorem statics_consistent (m : Machine) (spec : ClassSpec) (loader : Option LoaderKind)
    {c : ClassId} {start s : Machine} (hmade : m.addClass (m.makeClass spec loader) = (c, start))
    (calls : List StaticCall) (hs : s = start.afterStaticCalls c calls) :
    s.staticNames c = (spec.statics ++ calls.flatMap StaticCall.names).eraseDups ∧
    (s.staticNames c).Nodup ∧
    (∀ later, s.staticNames c <+: (s.afterStaticCalls c later).staticNames c) ∧
    (∃ t : FieldTables, t = FieldTables.empty.afterCalls (.declare spec.statics :: calls) ∧
      t.names = s.staticNames c ∧ t.values.keys.Perm (s.staticNames c) ∧
      ∀ name ∈ s.staticNames c, t.values.get? name = some (s.static c name)) ∧
    (∀ call, (∃ fault, s.staticCall c call = .error fault) ↔
      ∃ kv ∈ call.values, kv.1 ∉ s.staticNames c) ∧
    (∀ call fault, s.staticCall c call = .error fault → s.afterStaticCall c call = s ∧
      ∃ kv ∈ call.values, kv.1 ∉ s.staticNames c ∧
        fault = .of (.noStaticField (s.className c) kv.1)) ∧
    ∀ name, s.static c name = (Statics.lastIn name (start.writtenStatics c calls)).getD .nil ∧
      (name ∉ s.staticNames c → s.static c name = .nil) := by
  obtain ⟨hsize, hclass⟩ := of_addClass_eq hmade
  -- Making the class is the first call, which declares the names of the specification.
  have hfields : (start.classAt c).statics
      = (StaticCall.declare spec.statics).effect Statics.none := congrArg Class.statics hclass
  have hdeclare : ∀ kv ∈ (StaticCall.declare spec.statics).values, Statics.none.has kv.1 = true :=
    fun _ h => (List.not_mem_nil h).elim
  obtain ⟨hexists, hrecords, hmirrors⟩ := kept_afterStaticCalls hsize
    (hfields ▸ Statics.records_none.effect hdeclare)
    (hfields ▸ Statics.mirrors_none.effect hdeclare) calls
  rw [← hs] at hexists hrecords hmirrors
  have hnodup : (s.staticNames c).Nodup := by
    rw [staticNames, hrecords.names]
    exact nodup_eraseDups _
  refine ⟨hrecords.names, hnodup, fun later => ?_, ⟨_, rfl, hmirrors.names,
    hmirrors.keys_perm hnodup, fun name hname => (hmirrors.get? name).trans (if_pos hname)⟩,
    fun call => exists_staticCall_eq_error_iff, fun call fault => of_staticCall_eq_error,
    fun name => ⟨hrecords.get name, Statics.get_of_not_mem⟩⟩
  have hlater := (kept_afterStaticCalls hexists hrecords hmirrors later).2.1.names
  rw [staticNames, staticNames, hlater, hrecords.names]
  exact prefix_eraseDups_append _ _

/-- A class that declares a name twice. The second assignment is refused as a whole, and declaring a
name again leaves its value as it is. -/
def cacheSpec : ClassSpec :=
  { name := "Cache", superclass := none, statics := ["low", "high", "low"] }

/-- Calls about its fields. -/
def cacheCalls : List StaticCall :=
  [.set "low" (.int (-128)), .setAll [("high", .int 127), ("size", .int 256)],
    .declare ["low", "size"], .setAll [("size", .int 256), ("high", .int 127)]]

theorem statics_consistent_cacheCalls :
    ∃ start, new.addClass (new.makeClass cacheSpec none) = (2, start) ∧
      (start.afterStaticCalls 2 cacheCalls).staticNames 2 = [("low" : Text), "high", "size"] ∧
      (start.afterStaticCalls 2 cacheCalls).static 2 "low" = .int (-128) ∧
      (start.afterStaticCalls 2 cacheCalls).static 2 "size" = .int 256 ∧
      (start.afterStaticCalls 2 cacheCalls).static 2 "mid" = .nil ∧
      ∃ fault, (start.afterStaticCalls 2 cacheCalls).staticCall 2
        (.setAll [("low", .nil), ("mid", .nil)]) = .error fault := by
  obtain ⟨start, hmade⟩ : ∃ start, new.addClass (new.makeClass cacheSpec none) = (2, start) :=
    ⟨_, rfl⟩
  have hwritten : start.writtenStatics 2 cacheCalls
      = [(("low" : Text), Value.int (-128)), ("size", .int 256), ("high", .int 127)] := by
    obtain rfl : _ = start := congrArg Prod.snd hmade
    decide +kernel
  have hdeclared : (cacheSpec.statics ++ cacheCalls.flatMap StaticCall.names).eraseDups
      = [("low" : Text), "high", "size"] := by decide +kernel
  obtain ⟨hnames, -, -, -, hrefused, -, hvalue⟩ :=
    statics_consistent new cacheSpec none hmade cacheCalls rfl
  rw [hwritten] at hvalue
  rw [hdeclared] at hnames
  have hmid : ("mid" : Text) ∉ (start.afterStaticCalls 2 cacheCalls).staticNames 2 := by
    rw [hnames]
    decide
  exact ⟨start, hmade, hnames, (hvalue "low").1, (hvalue "size").1, (hvalue "mid").2 hmid,
    (hrefused _).2 ⟨("mid", .nil), List.mem_cons_of_mem _ List.mem_cons_self, hmid⟩⟩

end Machine

end ClassSharing
