import ClassSharing.Proofs.Library.Forms

/-!
# Forms, species and lines in step

What has been generated is kept in five places: the table of forms, the table of species, the
classes of the holders, the arrays that these classes hold, and the recorded lines. All five are
read off one list: the calls that generate something, each at its first place. The forms of a holder
are those of its requests in that list, the lines are one for each call in it, and the two tables
count its two kinds of calls.

A call does one of five things, and only two of them change anything. `Invokers.Step` says which; it
is what all statements here are proved from. An array of forms is replaced by a longer one and never
changed, since the heap only grows.

## Main definitions

* `Invokers.Call`, `Invokers.generating`: calls, and the first ones of those that generate something
* `Invokers.Stage`: what has been generated, and the session; `Invokers.Stage.after`: many calls
* `Invokers.Step`: what a call can do
* `Invokers.Books`: how the places agree after calls
* `Invokers.InStep`: what the five places show after calls

## Main results

* `Invokers.Books.step`: one call
* `Invokers.inStep_new`: all calls
-/

namespace ClassSharing

namespace Invokers

open Session

/-! ### Calls -/

/-- The name of the species class for bound types. -/
def speciesName (types : Text) : Text :=
  Class.qualify Library.invokeSpace ("BoundMethodHandle$Species_" ++ types)

/-- A call: a request for a form, or one for a species. -/
inductive Call where
  | form (r : Request)
  | species (types : Text)
deriving DecidableEq

namespace Call

/-- Whether the holder is one that forms can be asked for, or the bound types are types. -/
def isValid : Call → Bool
  | form r => decide r.Known
  | species types => (BasicType.parseAll types).isOk

def isForm : Call → Bool
  | form _ => true
  | species _ => false

/-- The line that is recorded if the call generates something. -/
def line : Call → Text
  | form r => r.line
  | species types => Session.speciesLine speciesLabel (speciesName types)

/-- The request, if the call is one for a form of the given holder. -/
def requestOn? (holder : Text) : Call → Option Request
  | form r => if r.holder = holder then some r else none
  | species _ => none

theorem requestOn?_eq_some {holder : Text} {call : Call} {r : Request} :
    call.requestOn? holder = some r ↔ call = form r ∧ r.holder = holder := by
  cases call with
  | form r' =>
    rw [requestOn?]
    constructor
    · intro h
      split at h
      · obtain rfl := Option.some.inj h
        exact ⟨rfl, by assumption⟩
      · cases h
    · rintro ⟨h, rfl⟩
      obtain rfl := form.inj h
      exact if_pos rfl
  | species types => simp [requestOn?]

/-- Answers a call with a form or a class. -/
def serve (iv : Invokers) : Call → Act (Except Failure (ObjectId ⊕ ClassId) × Invokers)
  | form r => do
    let (outcome, iv) ← iv.invoker r.holder r.kind r.type
    return (outcome.map Sum.inl, iv)
  | species types => do
    let (outcome, iv) ← iv.speciesFor types
    return (outcome.map Sum.inr, iv)

end Call

/-- The calls that generate something: the valid ones, each at its first place. -/
def generating (calls : List Call) : List Call := (calls.filter Call.isValid).eraseDups

section Generating

variable {calls : List Call} {call : Call}

/-- A call that generates nothing new, -/
theorem generating_append_of_mem (h : call.isValid = true → call ∈ generating calls) :
    generating (calls ++ [call]) = generating calls := by
  rw [generating, List.filter_append]
  cases hvalid : call.isValid with
  | false => rw [List.filter_singleton, hvalid, generating]; simp
  | true =>
    rw [List.filter_singleton, hvalid]
    exact (eraseDups_concat ..).trans (if_pos (List.mem_eraseDups.1 (h hvalid)))

/-- and one that does. -/
theorem generating_append_of_not_mem (hvalid : call.isValid = true) (h : call ∉ generating calls) :
    generating (calls ++ [call]) = generating calls ++ [call] := by
  rw [generating, List.filter_append, List.filter_singleton, hvalid]
  exact (eraseDups_concat ..).trans (if_neg fun hmem => h (List.mem_eraseDups.2 hmem))

theorem nodup_generating (calls : List Call) : (generating calls).Nodup := nodup_eraseDups _

end Generating

/-- What has been generated, and the session that it was generated in. -/
structure Stage where
  invokers : Invokers
  session : Session

namespace Stage

/-- The answer to a call. -/
def answer (st : Stage) (call : Call) : Except Failure (ObjectId ⊕ ClassId) :=
  (call.serve st.invokers st.session).1.1

/-- The stage after a call. -/
def next (st : Stage) (call : Call) : Stage :=
  ⟨(call.serve st.invokers st.session).1.2, (call.serve st.invokers st.session).2⟩

/-- The stage after calls. -/
def after (st : Stage) (calls : List Call) : Stage := calls.foldl next st

theorem after_append (st : Stage) (calls later : List Call) :
    st.after (calls ++ later) = (st.after calls).after later := List.foldl_append ..

/-- The machine of the session. -/
def machine (st : Stage) : Machine := st.session.machine

/-- The forms of a holder; a holder that nothing has been asked for has none. -/
def forms (st : Stage) (holder : Text) : List (Option ObjectId) :=
  (st.invokers.formsOf st.machine holder).getD []

end Stage

/-! ### One call -/

/-- The class of a species. -/
def speciesSpec (types : Text) (count : Nat) : ClassSpec :=
  { name := "BoundMethodHandle$Species_" ++ types, space := Library.invokeSpace
    superclass := some Machine.objectClass, instanceVariables := argumentNames count }

/-- The stage with a new form. -/
def Stage.withForm (st : Stage) (r : Request) (hc fc : ClassId) (m : Machine) : Stage :=
  ⟨st.invokers.withForm r hc fc st.machine.objects.size,
    logged st.invokers.log r.line (st.session.withMachine m)⟩

/-- The stage with a new species. -/
def Stage.withSpecies (st : Stage) (types : Text) (count : Nat) : Stage :=
  ⟨{ st.invokers with species := st.invokers.species.insert types st.machine.classes.size },
    logged st.invokers.log (Call.species types).line
      (st.session.withMachine (Library.withClass st.machine (speciesSpec types count)))⟩

/-- What a call can do, with its answer and the stage after it: it is refused, it is answered with
what is there, or it makes something new. -/
inductive Step (st : Stage) : Call → Except Failure (ObjectId ⊕ ClassId) → Stage → Prop where
  | refused {call : Call} {e : Failure} (hinvalid : call.isValid = false) :
    Step st call (.error e) st
  | oldForm {r : Request} {form : ObjectId} (hform : st.invokers.forms.get? r.key = some form) :
    Step st (.form r) (.ok (.inl form)) st
  | newForm {r : Request} {hc fc : ClassId} {m : Machine} (hknown : r.Known)
    (hnew : st.invokers.forms.get? r.key = none)
    (hmaking : Making st.invokers st.machine r hc fc m) :
    Step st (.form r) (.ok (.inl st.machine.objects.size)) (st.withForm r hc fc m)
  | oldSpecies {types : Text} {c : ClassId} (hspecies : st.invokers.species.get? types = some c) :
    Step st (.species types) (.ok (.inr c)) st
  | newSpecies {types : Text} {count : Nat} (hvalid : (Call.species types).isValid = true)
    (hnew : st.invokers.species.get? types = none) :
    Step st (.species types) (.ok (.inr st.machine.classes.size)) (st.withSpecies types count)

section Steps

variable {st st' : Stage} {call : Call} {outcome : Except Failure (ObjectId ⊕ ClassId)}

/-- A species that is not there is made, if its name is free. -/
theorem speciesFor_of_none {iv : Invokers} {s : Session} {types : Text} {parsed : List BasicType}
    (hparse : BasicType.parseAll types = .ok parsed) (hnew : iv.species.get? types = none)
    (hfree : s.machine.lookup (speciesName types) = none) :
    iv.speciesFor types s = ((.ok s.machine.classes.size,
        { iv with species := iv.species.insert types s.machine.classes.size }),
      logged iv.log (Call.species types).line
        (s.withMachine (Library.withClass s.machine (speciesSpec types parsed.length)))) := by
  have hgenerate := @generateClass_eq s ("BoundMethodHandle$Species_" ++ types)
    (argumentNames parsed.length) [] (speciesSpec types parsed.length) rfl hfree
  have hname : (Library.withClass s.machine (speciesSpec types parsed.length)).className
      s.machine.classes.size = speciesName types := by
    rw [Machine.className, Library.withClass, Machine.classAt_addClass, if_pos rfl]
    rfl
  rw [speciesFor, hparse]
  simp only [hnew]
  rw [bind_apply, ExceptT.run, hgenerate]
  simp only
  cases iv.log with
  | none => rfl
  | some g =>
    show (_, (Session.logSpecies g speciesLabel _ _).2) = _
    rw [machine_withMachine, hname]
    rfl

/-- A species that is there is the answer. -/
theorem speciesFor_of_some {iv : Invokers} {s : Session} {types : Text} {parsed : List BasicType}
    {c : ClassId} (hparse : BasicType.parseAll types = .ok parsed)
    (hspecies : iv.species.get? types = some c) : iv.speciesFor types s = ((.ok c, iv), s) := by
  rw [speciesFor, hparse]
  simp only [hspecies]
  rfl

theorem Call.serve_form {iv iv' : Invokers} {s s' : Session} {r : Request}
    {outcome : Except Failure ObjectId}
    (h : iv.invoker r.holder r.kind r.type s = ((outcome, iv'), s')) :
    (form r).serve iv s = ((outcome.map Sum.inl, iv'), s') := by
  rw [serve, bind_apply, h]
  rfl

theorem Call.serve_species {iv iv' : Invokers} {s s' : Session} {types : Text}
    {outcome : Except Failure ClassId} (h : iv.speciesFor types s = ((outcome, iv'), s')) :
    (species types).serve iv s = ((outcome.map Sum.inr, iv'), s') := by
  rw [serve, bind_apply, h]
  rfl

theorem step_of_serve {iv : Invokers} {s : Session}
    (h : call.serve st.invokers st.session = ((outcome, iv), s))
    (hstep : Step st call outcome ⟨iv, s⟩) : Step st call (st.answer call) (st.next call) := by
  rwa [Stage.answer, Stage.next, h]

/-- **What a call does.** -/
theorem step_serve (h : st.invokers.Sound st.machine)
    (hnames : ∀ types, st.invokers.species.get? types = none →
      st.machine.lookup (speciesName types) = none) (call : Call) :
    Step st call (st.answer call) (st.next call) := by
  cases call with
  | form r =>
    cases hform : st.invokers.forms.get? r.key with
    | some form => exact step_of_serve (Call.serve_form (invoker_of_some hform)) (.oldForm hform)
    | none =>
      by_cases hknown : r.Known
      · obtain ⟨hc, fc, m, hrun, hmaking⟩ := exists_making h.classes hform hknown
        exact step_of_serve (Call.serve_form hrun) (.newForm hknown hform hmaking)
      · exact step_of_serve (Call.serve_form (h.invoker_of_unknown hform hknown))
          (.refused (decide_eq_false hknown))
  | species types =>
    cases hparse : BasicType.parseAll types with
    | error e =>
      have hinvalid : (Call.species types).isValid = false := by
        rw [Call.isValid, hparse]
        rfl
      have hrefused : st.invokers.speciesFor types st.session
          = ((.error (.fault e), st.invokers), st.session) := by
        rw [speciesFor, hparse]
        rfl
      exact step_of_serve (Call.serve_species hrefused) (.refused hinvalid)
    | ok parsed =>
      have hvalid : (Call.species types).isValid = true := by
        rw [Call.isValid, hparse]
        rfl
      cases hspecies : st.invokers.species.get? types with
      | some c =>
        exact step_of_serve (Call.serve_species (speciesFor_of_some hparse hspecies))
          (.oldSpecies hspecies)
      | none =>
        exact step_of_serve
          (Call.serve_species (speciesFor_of_none hparse hspecies (hnames _ hspecies)))
          (.newSpecies hvalid hspecies)

@[simp] theorem Stage.machine_withForm (st : Stage) (r : Request) (hc fc : ClassId) (m : Machine) :
    (st.withForm r hc fc m).machine = m := machine_logged ..

@[simp] theorem Stage.machine_withSpecies (st : Stage) (types : Text) (count : Nat) :
    (st.withSpecies types count).machine
      = Library.withClass st.machine (speciesSpec types count) := machine_logged ..

/-- A call adds to the machine. -/
theorem Step.extends (h : Step st call outcome st') : Extends st.machine st'.machine := by
  cases h with
  | newForm _ _ hmaking =>
    rw [Stage.machine_withForm]
    exact hmaking.growth
  | newSpecies =>
    rw [Stage.machine_withSpecies]
    exact extends_withClass _ _
  | _ => exact .refl _

/-- A form that is there stays. -/
theorem Step.get?_forms (h : Step st call outcome st') {key : Text} {form : ObjectId}
    (hget : st.invokers.forms.get? key = some form) :
    st'.invokers.forms.get? key = some form := by
  cases h with
  | @newForm r hc fc m hknown hnew hmaking =>
    have hne : key ≠ r.key := by
      rintro rfl
      rw [hnew] at hget
      cases hget
    rw [Stage.withForm, withForm, Table.get?_insert, if_neg hne]
    exact hget
  | _ => exact hget

/-- A request for a known holder is answered with the form that is kept for it. -/
theorem Step.exists_form {r : Request} (h : Step st (.form r) outcome st') (hknown : r.Known) :
    ∃ form, outcome = .ok (.inl form) ∧ st'.invokers.forms.get? r.key = some form := by
  cases h with
  | refused hinvalid => exact absurd hknown (of_decide_eq_false hinvalid)
  | oldForm hform => exact ⟨_, rfl, hform⟩
  | newForm => exact ⟨_, rfl, by rw [Stage.withForm, withForm, Table.get?_insert, if_pos rfl]⟩

theorem Step.exists_species {types : Text} (h : Step st (.species types) outcome st')
    (hvalid : (Call.species types).isValid = true) : ∃ c, outcome = .ok (.inr c) := by
  cases h with
  | refused hinvalid => exact absurd (hinvalid.symm.trans hvalid) nofun
  | oldSpecies => exact ⟨_, rfl⟩
  | newSpecies => exact ⟨_, rfl⟩

/-- A call that fails changes nothing. -/
theorem Step.eq_of_error {e : Failure} (h : Step st call (.error e) st') : st' = st := by
  cases h
  rfl

end Steps

/-! ### Several calls -/

/-- The form that is kept for a request. -/
def formOf (iv : Invokers) (r : Request) : ObjectId := (iv.forms.get? r.key).getD 0

/-- How the places agree after calls. `recorded` are the lines that were there before them. -/
structure Books (recorded : List Text) (g : GateId) (calls : List Call) (st : Stage) : Prop where
  sound : st.invokers.Sound st.machine
  names : ∀ types, st.invokers.species.get? types = none →
    st.machine.lookup (speciesName types) = none
  log : st.invokers.log = some g
  logs : st.session.Logs g
  form : ∀ r, Call.form r ∈ generating calls ↔
    r.Known ∧ ∃ form, st.invokers.forms.get? r.key = some form
  species : ∀ types, Call.species types ∈ generating calls ↔
    ∃ c, st.invokers.species.get? types = some c
  held : ∀ holder, st.invokers.held st.machine holder
    = ((generating calls).filterMap (Call.requestOn? holder)).map
      fun r => .obj (st.invokers.formOf r)
  formCount : st.invokers.forms.size = (generating calls).countP Call.isForm
  speciesCount : st.invokers.species.size = (generating calls).countP fun call => !call.isForm
  lines : st.session.lines = recorded ++ (generating calls).map Call.line

/-- A species has a name that no other generated class has. -/
theorem speciesName_not_mem (types : Text) :
    speciesName types ∉ generatedSpecs.map ClassSpec.fullName := by
  have hnames : ∀ name ∈ generatedSpecs.map ClassSpec.fullName, name.bytes[13]? ≠ some 0x42 := by
    decide
  intro hmem
  exact hnames _ hmem rfl

theorem speciesName_injective : Function.Injective speciesName := by
  rintro ⟨types⟩ ⟨types'⟩ h
  have hbytes : (Library.invokeSpace.bytes ++ Text.bytes "::")
        ++ (Text.bytes "BoundMethodHandle$Species_" ++ types)
      = (Library.invokeSpace.bytes ++ Text.bytes "::")
        ++ (Text.bytes "BoundMethodHandle$Species_" ++ types') := congrArg Text.bytes h
  rw [List.append_cancel_left (List.append_cancel_left hbytes)]

namespace Books

variable {recorded : List Text} {g : GateId} {calls : List Call} {st : Stage} {call : Call}
  {outcome : Except Failure (ObjectId ⊕ ClassId)} {st' : Stage}

/-- A call that makes nothing leaves the books as they are. -/
theorem of_mem (h : Books recorded g calls st)
    (hmem : call.isValid = true → call ∈ generating calls) :
    Books recorded g (calls ++ [call]) st := by
  obtain ⟨hsound, hnames, hlog, hlogs, hform, hspecies, hheld, hforms, hclasses, hlines⟩ := h
  rw [← generating_append_of_mem hmem] at hform hspecies hheld hforms hclasses hlines
  exact ⟨hsound, hnames, hlog, hlogs, hform, hspecies, hheld, hforms, hclasses, hlines⟩

/-- A new line is the one of the call. -/
theorem append_line (h : Books recorded g calls st) (call : Call) (m : Machine) :
    (logged st.invokers.log call.line (st.session.withMachine m)).lines
        = recorded ++ (generating calls ++ [call]).map Call.line ∧
      (logged st.invokers.log call.line (st.session.withMachine m)).Logs g := by
  obtain ⟨hline, hlogs⟩ := (h.logs.withMachine m).logged call.line
  rw [h.log]
  refine ⟨hline.trans ?_, hlogs⟩
  rw [List.map_append, ← List.append_assoc, ← h.lines]
  rfl

/-- The forms of a holder with a new one. The forms of earlier requests are found under their own
keys. -/
theorem held_withForm (h : Books recorded g calls st) {r : Request} {hc fc : ClassId} {m : Machine}
    (hnew : st.invokers.forms.get? r.key = none)
    (hmaking : Making st.invokers st.machine r hc fc m) (holder : Text) :
    (st.withForm r hc fc m).invokers.held m holder
      = ((generating calls ++ [Call.form r]).filterMap (Call.requestOn? holder)).map
        fun r' => .obj ((st.withForm r hc fc m).invokers.formOf r') := by
  have hforms : (st.withForm r hc fc m).invokers.forms
      = st.invokers.forms.insert r.key st.machine.objects.size := rfl
  have hold : ∀ r' ∈ (generating calls).filterMap (Call.requestOn? holder),
      (st.withForm r hc fc m).invokers.formOf r' = st.invokers.formOf r' := by
    intro r' hr'
    obtain ⟨call, hmem, hcall⟩ := List.mem_filterMap.1 hr'
    obtain ⟨rfl, -⟩ := Call.requestOn?_eq_some.1 hcall
    obtain ⟨-, form, hget⟩ := (h.form r').1 hmem
    have hne : r'.key ≠ r.key := by
      intro heq
      rw [heq, hnew] at hget
      cases hget
    rw [formOf, formOf, hforms, Table.get?_insert, if_neg hne]
  have hmade : (st.withForm r hc fc m).invokers.formOf r = st.machine.objects.size := by
    rw [formOf, hforms, Table.get?_insert, if_pos rfl]
    rfl
  rw [List.filterMap_append, List.map_append]
  refine (hmaking.held h.sound holder).trans ?_
  rw [h.held holder, List.map_congr_left fun r' hr' => congrArg Value.obj (hold r' hr').symm]
  split
  · rename_i heq
    simp [Call.requestOn?, heq, hmade]
  · rename_i hne
    simp [Call.requestOn?, Ne.symm hne]

/-- **A new form** is one more line, one more form of its holder, and one more in the table. -/
theorem withForm (h : Books recorded g calls st) {r : Request} {hc fc : ClassId} {m : Machine}
    (hknown : r.Known) (hnew : st.invokers.forms.get? r.key = none)
    (hmaking : Making st.invokers st.machine r hc fc m) :
    Books recorded g (calls ++ [.form r]) (st.withForm r hc fc m) := by
  have hnot : Call.form r ∉ generating calls := by
    rw [h.form, hnew]
    simp
  have hvalid : (Call.form r).isValid = true := decide_eq_true hknown
  have hgenerating := generating_append_of_not_mem hvalid hnot
  have hforms : (st.withForm r hc fc m).invokers.forms
      = st.invokers.forms.insert r.key st.machine.objects.size := rfl
  obtain ⟨hlines, hlogs⟩ := h.append_line (.form r) m
  refine ⟨?_, fun types hnone => ?_, h.log, hlogs, fun r' => ?_, fun types => ?_, fun holder => ?_,
    ?_, ?_, ?_⟩
  · rw [Stage.machine_withForm]
    exact hmaking.sound h.sound hknown
  · rw [Stage.machine_withForm, hmaking.lookup _ (speciesName_not_mem types)]
    exact h.names types hnone
  · rw [hgenerating, List.mem_append, List.mem_singleton, h.form, hforms, Table.get?_insert]
    split
    · rename_i hkey
      constructor
      · rintro (⟨hr', -⟩ | heq)
        · exact ⟨hr', _, rfl⟩
        · exact ⟨Call.form.inj heq ▸ hknown, _, rfl⟩
      · rintro ⟨hr', -⟩
        exact .inr (congrArg Call.form (Request.key_inj hr' hknown hkey))
    · rename_i hkey
      refine or_iff_left fun heq => hkey ?_
      rw [Call.form.inj heq]
  · rw [hgenerating, List.mem_append, List.mem_singleton, h.species]
    exact or_iff_left (by simp)
  · rw [Stage.machine_withForm, hgenerating]
    exact h.held_withForm hnew hmaking holder
  · rw [hgenerating, List.countP_append, ← h.formCount, hforms, Table.size_insert_of_none hnew]
    rfl
  · rw [hgenerating, List.countP_append, ← h.speciesCount]
    rfl
  · rw [hgenerating]
    exact hlines

/-- **A new species** is one more line and one more in the table. -/
theorem withSpecies (h : Books recorded g calls st) {types : Text} {count : Nat}
    (hvalid : (Call.species types).isValid = true)
    (hnew : st.invokers.species.get? types = none) :
    Books recorded g (calls ++ [.species types]) (st.withSpecies types count) := by
  have hnot : Call.species types ∉ generating calls := by
    rw [h.species, hnew]
    simp
  have hgenerating := generating_append_of_not_mem hvalid hnot
  have hspecies : (st.withSpecies types count).invokers.species
      = st.invokers.species.insert types st.machine.classes.size := rfl
  have hsupplied : Supplied (speciesSpec types count) st.machine
      (Library.withClass st.machine (speciesSpec types count)) := .inr rfl
  obtain ⟨hlines, hlogs⟩ := h.append_line (.species types)
    (Library.withClass st.machine (speciesSpec types count))
  refine ⟨?_, fun types' hnone => ?_, h.log, hlogs, fun r => ?_, fun types' => ?_, fun holder => ?_,
    ?_, ?_, ?_⟩
  · rw [Stage.machine_withSpecies]
    exact h.sound.supplied hsupplied (speciesName_not_mem types) _
  · rw [hspecies, Table.get?_insert] at hnone
    split at hnone
    · cases hnone
    · rename_i hne
      have hother : speciesName types' ≠ speciesName types := fun heq =>
        hne (speciesName_injective heq)
      rw [Stage.machine_withSpecies, hsupplied.lookup hother]
      exact h.names types' hnone
  · rw [hgenerating, List.mem_append, List.mem_singleton, h.form]
    exact or_iff_left (by simp)
  · rw [hgenerating, List.mem_append, List.mem_singleton, h.species, hspecies, Table.get?_insert]
    split
    · rename_i heq
      simp [heq]
    · rename_i hne
      refine or_iff_left fun heq => hne ?_
      exact Call.species.inj heq
  · rw [Stage.machine_withSpecies, hgenerating, List.filterMap_append, List.map_append]
    refine (h.sound.held_supplied hsupplied holder).trans ((h.held holder).trans ?_)
    exact (List.append_nil _).symm
  · rw [hgenerating, List.countP_append, ← h.formCount]
    rfl
  · rw [hgenerating, List.countP_append, ← h.speciesCount, hspecies,
      Table.size_insert_of_none hnew]
    rfl
  · rw [hgenerating]
    exact hlines

/-- **The books after one more call.** -/
theorem step (h : Books recorded g calls st) (hstep : Step st call outcome st') :
    Books recorded g (calls ++ [call]) st' := by
  cases hstep with
  | refused hinvalid => exact h.of_mem fun hvalid => absurd (hinvalid.symm.trans hvalid) nofun
  | oldForm hform =>
    exact h.of_mem fun hvalid => (h.form _).2 ⟨of_decide_eq_true hvalid, _, hform⟩
  | newForm hknown hnew hmaking => exact h.withForm hknown hnew hmaking
  | oldSpecies hspecies => exact h.of_mem fun _ => (h.species _).2 ⟨_, hspecies⟩
  | newSpecies hvalid hnew => exact h.withSpecies hvalid hnew

/-- Before any call. -/
theorem new {s : Session} (hrooted : s.machine.Rooted)
    (hfree : ∀ name, s.machine.lookup (Class.qualify Library.invokeSpace name) = none)
    (hlogs : s.Logs g) : Books s.lines g [] ⟨new (some g), s⟩ where
  sound := sound_new (some g) hrooted hfree
  names _ _ := hfree _
  log := rfl
  logs := hlogs
  form _ := ⟨nofun, fun h => nomatch h.2⟩
  species _ := ⟨nofun, fun h => nomatch h⟩
  held _ := rfl
  formCount := rfl
  speciesCount := rfl
  lines := (List.append_nil _).symm

theorem step_serve (h : Books recorded g calls st) (call : Call) :
    Step st call (st.answer call) (st.next call) :=
  Invokers.step_serve h.sound h.names call

/-- **The books after many calls**, by induction on them; the machine only grows, and no form is
lost. -/
theorem after (h : Books recorded g calls st) (later : List Call) :
    Books recorded g (calls ++ later) (st.after later) ∧
      Extends st.machine (st.after later).machine ∧
      ∀ key form, st.invokers.forms.get? key = some form →
        (st.after later).invokers.forms.get? key = some form := by
  induction later generalizing calls st with
  | nil =>
    rw [List.append_nil]
    exact ⟨h, .refl _, fun _ _ hget => hget⟩
  | cons call rest ih =>
    have hstep := h.step_serve call
    obtain ⟨hbooks, hextends, hforms⟩ := ih (h.step hstep)
    rw [List.append_assoc] at hbooks
    exact ⟨hbooks, hstep.extends.trans hextends, fun key form hget =>
      hforms key form (hstep.get?_forms hget)⟩

/-- **The forms of a holder** are those of its requests. -/
theorem forms (h : Books recorded g calls st) (holder : Text) :
    st.forms holder = ((generating calls).filterMap (Call.requestOn? holder)).map
      fun r => some (st.invokers.formOf r) := by
  rw [Stage.forms, getD_formsOf, h.held, List.map_map]
  rfl

/-- A request that has been made has its form. -/
theorem get?_formOf (h : Books recorded g calls st) {r : Request}
    (hr : Call.form r ∈ generating calls) :
    st.invokers.forms.get? r.key = some (st.invokers.formOf r) := by
  obtain ⟨-, form, hget⟩ := (h.form r).1 hr
  rw [formOf, hget]
  rfl

theorem isForm (h : Books recorded g calls st) {r : Request}
    (hr : Call.form r ∈ generating calls) :
    IsForm st.machine (st.invokers.formOf r) r := by
  obtain ⟨r', hr', hkey, hform⟩ := h.sound.forms _ _ (h.get?_formOf hr)
  exact Request.key_inj hr' ((h.form r).1 hr).1 hkey ▸ hform

/-- Two requests have two forms. -/
theorem formOf_inj (h : Books recorded g calls st) {r r' : Request}
    (hr : Call.form r ∈ generating calls) (hr' : Call.form r' ∈ generating calls)
    (heq : st.invokers.formOf r = st.invokers.formOf r') : r = r' :=
  Request.key_inj ((h.form r).1 hr).1 ((h.form r').1 hr').1
    (h.sound.distinct _ _ _ (h.get?_formOf hr) (heq ▸ h.get?_formOf hr'))

theorem nodup_forms (h : Books recorded g calls st) (holder : Text) :
    (st.forms holder).Nodup := by
  have hrequests : ((generating calls).filterMap (Call.requestOn? holder)).Nodup := by
    refine (nodup_generating calls).filterMap fun call call' r hcall hcall' => ?_
    rw [(Call.requestOn?_eq_some.1 hcall).1, (Call.requestOn?_eq_some.1 hcall').1]
  have hmade : ∀ r ∈ (generating calls).filterMap (Call.requestOn? holder),
      Call.form r ∈ generating calls := by
    intro r hr
    obtain ⟨call, hmem, hcall⟩ := List.mem_filterMap.1 hr
    exact (Call.requestOn?_eq_some.1 hcall).1 ▸ hmem
  rw [h.forms]
  exact hrequests.map_on fun r hr r' hr' heq =>
    h.formOf_inj (hmade r hr) (hmade r' hr') (Option.some.inj heq)

end Books

/-! ### All calls -/

/-- What the five places show after calls. -/
structure InStep (start : Stage) (calls : List Call) : Prop where
  /-- Every request for a known holder is answered with a form of its own, and the forms of a holder
  are those of its requests, in the order of the first ones. -/
  forms : ∃ form : Request → ObjectId,
    (∀ holder, (start.after calls).forms holder
      = ((generating calls).filterMap (Call.requestOn? holder)).map fun r => some (form r)) ∧
    (∀ r, Call.form r ∈ generating calls → IsForm (start.after calls).machine (form r) r) ∧
    ∀ earlier r later, calls = earlier ++ .form r :: later → r.Known →
      (start.after earlier).answer (.form r) = .ok (.inl (form r))
  /-- No form is there twice. -/
  nodup : ∀ holder, ((start.after calls).forms holder).Nodup
  /-- Every species of valid types is answered with a class. -/
  species : ∀ earlier types later, calls = earlier ++ .species types :: later →
    (Call.species types).isValid = true →
      ∃ c, (start.after earlier).answer (.species types) = .ok (.inr c)
  /-- One line has been recorded for each call that generates something. -/
  lines : (start.after calls).session.lines
    = start.session.lines ++ (generating calls).map Call.line
  /-- The tables count the two kinds of these calls. -/
  formCount : (start.after calls).invokers.forms.size = (generating calls).countP Call.isForm
  speciesCount : (start.after calls).invokers.species.size
    = (generating calls).countP fun call => !call.isForm
  /-- An array of forms that a holder has now is the same after further calls. -/
  arrays : ∀ later holder c array, (start.after calls).invokers.holders.get? holder = some c →
    (start.after calls).machine.static c "forms" = .obj array →
      (start.after (calls ++ later)).machine.objectAt array
        = (start.after calls).machine.objectAt array
  /-- A call that fails now changes nothing. -/
  failures : ∀ call e, (start.after calls).answer call = .error e →
    (start.after calls).next call = start.after calls

/-- **In step.** On a machine without classes of the namespace, and with a gate that logs, the five
places agree after every list of calls. -/
theorem inStep_new {s : Session} {g : GateId} (hrooted : s.machine.Rooted)
    (hfree : ∀ name, s.machine.lookup (Class.qualify Library.invokeSpace name) = none)
    (hlogs : s.Logs g) (calls : List Call) : InStep ⟨new (some g), s⟩ calls := by
  have hstart := Books.new hrooted hfree hlogs
  have hbooks : ∀ calls, Books s.lines g calls ((⟨new (some g), s⟩ : Stage).after calls) :=
    fun calls => (hstart.after calls).1
  have hnow := hbooks calls
  refine ⟨⟨_, hnow.forms, fun r => hnow.isForm, ?_⟩, hnow.nodup_forms, ?_, hnow.lines,
    hnow.formCount, hnow.speciesCount, fun later holder c array hheld hstatic => ?_,
    fun call e hfailed => ?_⟩
  · rintro earlier r later rfl hknown
    have hstep := (hbooks earlier).step_serve (.form r)
    obtain ⟨form, hanswer, hget⟩ := hstep.exists_form hknown
    -- The form is not lost in the later calls.
    have hlast := (((hbooks earlier).step hstep).after later).2.2 _ _ hget
    rw [hanswer, Stage.after_append, formOf]
    exact congrArg (fun form => Except.ok (Sum.inl (Option.getD form 0))) hlast.symm
  · rintro earlier types later - hvalid
    exact ((hbooks earlier).step_serve (.species types)).exists_species hvalid
  · rw [Stage.after_append]
    exact (hnow.after later).2.1.objectAt (hnow.sound.stored holder c array hheld hstatic)
  · have hstep := hnow.step_serve call
    rw [hfailed] at hstep
    exact hstep.eq_of_error

/-- A session with a gate that has not asked its bootstrap yet whether to log. -/
def loggingSession : Session :=
  ((freshSession.addBoot (.synthetic (.new (.ok ⟨Status.loggingFlag⟩) default))).2.addGate
    ⟨some 0, [.log, .record], none⟩).2

/-- Calls of all kinds: new ones, one with the key of an earlier one, invalid ones and
repetitions. -/
def mixedCalls : List Call :=
  [.form ⟨invokersHolder, "a b", ⟨[], .void⟩⟩, .species "LI",
    .form ⟨"core.invoke::Invokers$Holder a", "b", ⟨[], .void⟩⟩, .species "LV",
    .form ⟨"core.invoke::LambdaForm", "a", ⟨[.ref], .int⟩⟩,
    .form ⟨directHolder, "a", ⟨[.ref], .int⟩⟩, .form ⟨invokersHolder, "a b", ⟨[], .void⟩⟩,
    .species "LI", .species ""]

theorem logs_loggingSession : loggingSession.Logs 0 := ⟨by decide, by decide⟩

theorem inStep_mixedCalls :
    loggingSession.Logs 0 ∧
      generating mixedCalls
        = [.form ⟨invokersHolder, "a b", ⟨[], .void⟩⟩, .species "LI",
          .form ⟨directHolder, "a", ⟨[.ref], .int⟩⟩, .species ""] ∧
      InStep ⟨new (some 0), loggingSession⟩ mixedCalls :=
  ⟨logs_loggingSession, by decide +kernel,
    @inStep_new loggingSession 0 Machine.rooted_new lookup_freshSession logs_loggingSession
      mixedCalls⟩

end Invokers

end ClassSharing
