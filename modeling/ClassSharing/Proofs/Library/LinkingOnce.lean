import ClassSharing.Proofs.Library.ArchivedModules
import ClassSharing.Proofs.Machine.Ownership

/-!
# Archived modules that are refused

The archived modules of a process are linked by one call. It has to name both loaders, and only the
first call that does so has an effect: it spends the definition before it looks at a record, so the
definition is gone also if there is no archive in use or every record is refused.

A record is refused for the name of its loader, or for a package that has an owner of another name.
The latter depends on the records before it, and only on those that were taken: a refused record is
entered nowhere. So the records are sifted in one pass, each against what the ones before it have
left, and what is linked at the end are the taken records in their order, as if the refused ones had
not been there.

## What is deliberately absent

Nothing is assumed about the tables of the loaders, about the packages of the records, or about the
names of the modules. Two records may have one name; then the second one replaces the first one, as
it would if it had not been archived. The two loaders that a call names may be any, also the same.

## Main definitions

* `Machine.Sifts`: the records that are taken and those that are refused
* `Session.DefineCall`, `Session.defineAll`: calls for the archived modules

## Main results

* `Machine.exists_sifts`: what linking archived modules does
* `Fault.message_of_join?`: the message about several faults names all of them
* `Session.archived_modules_defined_once`: the calls for the archived modules
-/

namespace ClassSharing

open Image Session

/-! ### Several faults -/

namespace Fault

theorem join?_eq_none_iff {faults : List Fault} : join? faults = none ↔ faults = [] := by
  cases faults with
  | nil => simp [join?]
  | cons fault rest =>
    rw [join?]
    cases join? rest <;> simp

/-- **The message about several faults** has a line for each of them, in their order. -/
theorem message_of_join? {faults : List Fault} {fault : Fault} (h : join? faults = some fault) :
    fault.message = Text.join "\n" (faults.map message) := by
  induction faults generalizing fault with
  | nil => cases h
  | cons first rest ih =>
    rw [join?] at h
    cases hrest : join? rest with
    | none =>
      rw [hrest] at h
      obtain rfl := Option.some.inj h
      rw [join?_eq_none_iff.1 hrest]
      rfl
    | some others =>
      rw [hrest] at h
      obtain rfl := Option.some.inj h
      have hne : rest ≠ [] := fun hnil => by
        rw [hnil] at hrest
        cases hrest
      obtain ⟨second, others', rfl⟩ := List.exists_cons_of_ne_nil hne
      rw [message, ih hrest]
      rfl

/-- It wraps what they wrap. -/
theorem wraps_of_join? {faults : List Fault} {fault : Fault} (h : join? faults = some fault)
    (kind : FaultKind) : fault.wraps kind = faults.any fun f => f.wraps kind := by
  induction faults generalizing fault with
  | nil => cases h
  | cons first rest ih =>
    rw [join?] at h
    cases hrest : join? rest with
    | none =>
      rw [hrest] at h
      obtain rfl := Option.some.inj h
      rw [join?_eq_none_iff.1 hrest]
      simp
    | some others =>
      rw [hrest] at h
      obtain rfl := Option.some.inj h
      rw [wraps, ih hrest, List.any_cons]

end Fault

namespace Machine

/-! ### Taking a record -/

/-- The loader of this process for a kind, given two of its loaders. -/
def givenLoader (platformLoader systemLoader : LoaderKind) : LoaderKind → LoaderKind
  | .boot => .boot
  | .platform => platformLoader
  | .system => systemLoader

/-- The machine with a module made of a record. It is linked to no loader. -/
def made (m : Machine) (r : ModuleRecord) : Machine :=
  m.moduleCall (.make r.name (r.packages.getD []))

/-- The machine with this module linked to a loader. -/
def taking (m : Machine) (kind : LoaderKind) (r : ModuleRecord) : Machine :=
  (m.made r).moduleCall (.link kind m.modules.size)

/-- A package of a record has an owner of another name in a loader. -/
def Conflicts (m : Machine) (kind : LoaderKind) (r : ModuleRecord) (p owner : Text) : Prop :=
  p ∈ r.packages.getD [] ∧ (m.made r).OwnedBy kind p owner ∧ owner ≠ r.name

/-- The records of a list that are taken, with their loaders, and those that are refused, with the
causes. Every record is judged by the machine that the taken records before it have left. -/
inductive Sifts (platformLoader systemLoader : LoaderKind) :
    Machine → List ModuleRecord → List (LoaderKind × ModuleRecord) → List (ModuleRecord × Cause) →
      Prop where
  | nil (m : Machine) : Sifts platformLoader systemLoader m [] [] []
  /-- No loader has the name. -/
  | unknown {m : Machine} {r : ModuleRecord} {rest : List ModuleRecord}
      {taken : List (LoaderKind × ModuleRecord)} {refused : List (ModuleRecord × Cause)}
      (unknown : ∀ kind : LoaderKind, kind.name ≠ r.loader)
      (others : Sifts platformLoader systemLoader m rest taken refused) :
      Sifts platformLoader systemLoader m (r :: rest) taken
        ((r, .unknownLoaderKind r.loader) :: refused)
  | conflicting {m : Machine} {r : ModuleRecord} {rest : List ModuleRecord}
      {taken : List (LoaderKind × ModuleRecord)} {refused : List (ModuleRecord × Cause)}
      {kind : LoaderKind} {p owner : Text} (known : kind.name = r.loader)
      (conflict : m.Conflicts (givenLoader platformLoader systemLoader kind) r p owner)
      (others : Sifts platformLoader systemLoader m rest taken refused) :
      Sifts platformLoader systemLoader m (r :: rest) taken
        ((r, .packageConflict p owner r.name) :: refused)
  | taken {m : Machine} {r : ModuleRecord} {rest : List ModuleRecord}
      {taken : List (LoaderKind × ModuleRecord)} {refused : List (ModuleRecord × Cause)}
      {kind : LoaderKind} (known : kind.name = r.loader)
      (free : ∀ p owner, ¬ m.Conflicts (givenLoader platformLoader systemLoader kind) r p owner)
      (others : Sifts platformLoader systemLoader
        (m.taking (givenLoader platformLoader systemLoader kind) r) rest taken refused) :
      Sifts platformLoader systemLoader m (r :: rest)
        ((givenLoader platformLoader systemLoader kind, r) :: taken) refused

variable {platformLoader systemLoader kind : LoaderKind} {m : Machine} {r : ModuleRecord}

/-- The fault about a refused record names its module. -/
def refusalOf (refused : ModuleRecord × Cause) : Fault :=
  .within (.moduleNamed refused.1.name) (.of refused.2)

theorem ofName_cases (text : Text) :
    (∃ kind, kind.name = text ∧ LoaderKind.ofName text = .ok kind) ∨
      (∀ kind : LoaderKind, kind.name ≠ text) ∧
        LoaderKind.ofName text = .error (.of (.unknownLoaderKind text)) := by
  rw [LoaderKind.ofName]
  cases hfind : LoaderKind.all.find? fun k => k.name = text with
  | some kind => exact .inl ⟨kind, by simpa using List.find?_some hfind, rfl⟩
  | none =>
    refine .inr ⟨fun kind => ?_, rfl⟩
    have hall : kind ∈ LoaderKind.all := by cases kind <;> decide
    simpa using List.find?_eq_none.1 hfind kind hall

theorem moduleLoader_of_ok (h : LoaderKind.ofName r.loader = .ok kind) :
    moduleLoader platformLoader systemLoader r
      = .ok (givenLoader platformLoader systemLoader kind) := by
  rw [moduleLoader, h]
  cases kind <;> rfl

/-- **A record is taken or it conflicts.** -/
theorem linkModule_cases {l : Loader} (hl : m.loader? kind = some l) (r : ModuleRecord) :
    (∃ p owner, m.Conflicts kind r p owner ∧
      linkModule m kind r.name (r.packages.getD [])
        = .error (.fault (.of (.packageConflict p owner r.name)))) ∨
      (∀ p owner, ¬ m.Conflicts kind r p owner) ∧
        linkModule m kind r.name (r.packages.getD []) = .ok (m.taking kind r) := by
  have hmodule : (m.made r).moduleAt m.modules.size
      = Module.unlinked r.name (r.packages.getD []) :=
    (moduleAt_addModule m r.name (r.packages.getD []) m.modules.size).trans (if_pos rfl)
  have hpackages : ∀ p, p ∈ ((m.made r).moduleAt m.modules.size).packages
      ↔ p ∈ r.packages.getD [] := fun p => by
    rw [hmodule]
    exact (Text.sorted_perm _).mem_iff
  have hloader : (m.made r).loader? kind = some l := by
    rw [← hl]
    cases kind <;> rfl
  have hlt : m.modules.size < (m.made r).modules.size := by
    show _ < (m.modules.push _).size
    rw [Array.size_push]
    exact Nat.lt_succ_self _
  have hlink : linkModule m kind r.name (r.packages.getD [])
      = (m.made r).defineModule kind m.modules.size := rfl
  rw [hlink]
  cases hdefine : (m.made r).defineModule kind m.modules.size with
  | error failure =>
    obtain ⟨p, hp, owner, howned, hne, rfl⟩ := of_defineModule_eq_error hloader hdefine
    rw [hmodule] at hne ⊢
    exact .inl ⟨p, owner, ⟨(hpackages p).1 hp, howned, hne⟩, rfl⟩
  | ok m' =>
    refine .inr ⟨?_, ?_⟩
    · rintro p owner ⟨hp, howned, hne⟩
      have hname : owner ≠ ((m.made r).moduleAt m.modules.size).name := by
        rw [hmodule]
        exact hne
      obtain ⟨failure, hfailure⟩ :=
        (defineModule_eq_error_iff hloader).2 ⟨p, (hpackages p).2 hp, owner, howned, hname⟩
      rw [hdefine] at hfailure
      cases hfailure
    · rw [taking, moduleCall, if_pos hlt, hdefine]

/-- Taking a record removes no loader. -/
theorem exists_loader?_taking {other : LoaderKind} (h : ∃ l, m.loader? other = some l) :
    ∃ l, (m.taking kind r).loader? other = some l := by
  obtain ⟨l, hl⟩ := h
  have hmade : (m.made r).loader? other = some l := by
    rw [← hl]
    cases other <;> rfl
  rw [taking, moduleCall]
  split
  · cases hdefine : (m.made r).defineModule kind m.modules.size with
    | error failure => exact ⟨l, hmade⟩
    | ok m' =>
      obtain ⟨l', -, -, rfl⟩ := defineModule_eq_ok_iff.1 hdefine
      simp only [loader?_linking]
      split
      · exact ⟨_, rfl⟩
      · exact ⟨l, hmade⟩
  · exact ⟨l, hmade⟩

/-- **What linking archived modules does.** The records are sifted. The machine that is left is the
one in which the taken records were linked in their order, and there is a fault for each refused
record, in their order. -/
theorem exists_sifts (records : List ModuleRecord)
    (hloaders : ∀ kind, ∃ l, m.loader? (givenLoader platformLoader systemLoader kind) = some l) :
    ∃ taken refused, Sifts platformLoader systemLoader m records taken refused ∧
      linkModules platformLoader systemLoader m records
        = (refused.map refusalOf, taken.foldl (fun m t => m.taking t.1 t.2) m) := by
  induction records generalizing m with
  | nil => exact ⟨[], [], .nil m, rfl⟩
  | cons r rest ih =>
    rcases ofName_cases r.loader with ⟨kind, hknown, hok⟩ | ⟨hunknown, herror⟩
    · obtain ⟨l, hl⟩ := hloaders kind
      rcases linkModule_cases hl r with ⟨p, owner, hconflict, hlink⟩ | ⟨hfree, hlink⟩
      · obtain ⟨taken, refused, hsifts, heq⟩ := ih hloaders
        refine ⟨taken, _, .conflicting hknown hconflict hsifts, ?_⟩
        rw [linkModules, moduleLoader_of_ok hok]
        simp only [hlink, heq]
        rfl
      · obtain ⟨taken, refused, hsifts, heq⟩ :=
          ih fun other => exists_loader?_taking (hloaders other)
        refine ⟨_, refused, .taken hknown hfree hsifts, ?_⟩
        rw [linkModules, moduleLoader_of_ok hok]
        simp only [hlink, heq]
        rfl
    · obtain ⟨taken, refused, hsifts, heq⟩ := ih hloaders
      refine ⟨taken, _, .unknown hunknown hsifts, ?_⟩
      rw [linkModules, moduleLoader, herror]
      simp only [heq]
      rfl

end Machine

namespace Session

/-! ### Calls -/

/-- A call for the archived modules, with the loaders that it names. -/
structure DefineCall where
  platform? : Option LoaderKind
  system? : Option LoaderKind
deriving DecidableEq

/-- A call that names both loaders. -/
def DefineCall.Complete (call : DefineCall) : Prop :=
  call.platform?.isSome = true ∧ call.system?.isSome = true

instance : DecidablePred DefineCall.Complete := fun _ => inferInstanceAs (Decidable (_ ∧ _))

/-- The answer to a call, and the session after it. -/
def defineCall (g : GraphId) (s : Session) (call : DefineCall) : Except Fault Unit × Session :=
  defineArchivedModules g call.platform? call.system? s

/-- The session after some calls. -/
def defineAll (g : GraphId) (s : Session) (calls : List DefineCall) : Session :=
  calls.foldl (fun s call => (defineCall g s call).2) s

variable {s : Session} {g : GraphId} {call : DefineCall} {platformLoader systemLoader : LoaderKind}

/-- A call without both loaders is refused and does nothing. -/
theorem defineCall_of_not_complete (h : ¬ call.Complete) :
    defineCall g s call = (.error (.of .nilLoader), s) := by
  obtain ⟨platform?, system?⟩ := call
  cases platform? with
  | none => rfl
  | some platformLoader =>
    cases system? with
    | none => rfl
    | some systemLoader => exact absurd ⟨rfl, rfl⟩ h

/-- A call after the definition was spent is refused and does nothing. -/
theorem defineCall_of_defined (h : (s.graphAt g).modulesDefined = true) :
    defineCall g s ⟨some platformLoader, some systemLoader⟩
      = (.error (.of .modulesAlreadyDefined), s) := by
  show defineArchivedModules g (some platformLoader) (some systemLoader) s = _
  rw [defineArchivedModules, exceptBind_apply (exceptGet_apply s), h]
  rfl

theorem modulesDefined_withModulesDefined (hg : g < s.graphs.size) :
    ((s.withModulesDefined g).graphAt g).modulesDefined = true := by
  rw [withModulesDefined, graphAt_updateGraph, if_pos ⟨rfl, hg⟩]

/-- **The first call with both loaders spends the definition**, whatever its answer is. -/
theorem modulesDefined_of_first (hg : g < s.graphs.size)
    (hfirst : (s.graphAt g).modulesDefined = false) :
    ((defineCall g s ⟨some platformLoader, some systemLoader⟩).2.graphAt g).modulesDefined
      = true := by
  have hsize : g < (isUsing g s).2.graphs.size := by
    rw [(calm_isUsing g s).evolves.graphCount]
    exact hg
  rw [defineCall, defineArchivedModules_of_first hfirst]
  split
  · exact modulesDefined_withModulesDefined hsize
  · exact modulesDefined_withModulesDefined hsize

/-- Calls after the definition was spent do nothing. -/
theorem defineAll_of_defined (h : (s.graphAt g).modulesDefined = true) (calls : List DefineCall) :
    defineAll g s calls = s := by
  induction calls with
  | nil => rfl
  | cons call rest ih =>
    have hcall : (defineCall g s call).2 = s := by
      by_cases hcomplete : call.Complete
      · obtain ⟨platform?, system?⟩ := call
        obtain ⟨platformLoader, rfl⟩ := Option.isSome_iff_exists.1 hcomplete.1
        obtain ⟨systemLoader, rfl⟩ := Option.isSome_iff_exists.1 hcomplete.2
        rw [defineCall_of_defined h]
      · rw [defineCall_of_not_complete hcomplete]
    show defineAll g (defineCall g s call).2 rest = s
    rw [hcall, ih]

/-- **What calls leave**: the session as it was if none of them named both loaders, and otherwise
what the first one that did has left. -/
theorem defineAll_cases (hg : g < s.graphs.size) (hfirst : (s.graphAt g).modulesDefined = false)
    (calls : List DefineCall) :
    (∀ call ∈ calls, ¬ call.Complete) ∧ defineAll g s calls = s ∨
      (∃ call ∈ calls, call.Complete) ∧
        (((defineAll g s calls).graphAt g).modulesDefined = true ∧
          ∃ platformLoader systemLoader,
            defineAll g s calls = (defineCall g s ⟨some platformLoader, some systemLoader⟩).2) := by
  induction calls with
  | nil => exact .inl ⟨nofun, rfl⟩
  | cons call rest ih =>
    by_cases hcomplete : call.Complete
    · obtain ⟨platform?, system?⟩ := call
      obtain ⟨platformLoader, rfl⟩ := Option.isSome_iff_exists.1 hcomplete.1
      obtain ⟨systemLoader, rfl⟩ := Option.isSome_iff_exists.1 hcomplete.2
      have hspent : ((defineCall g s ⟨some platformLoader, some systemLoader⟩).2.graphAt
          g).modulesDefined = true := modulesDefined_of_first hg hfirst
      have hafter := defineAll_of_defined hspent rest
      refine .inr ⟨⟨_, List.mem_cons_self, hcomplete⟩, ?_, platformLoader, systemLoader, hafter⟩
      exact (congrArg (fun u : Session => (u.graphAt g).modulesDefined) hafter).trans hspent
    · have hcall : defineAll g s (call :: rest) = defineAll g s rest := by
        show defineAll g (defineCall g s call).2 rest = _
        rw [defineCall_of_not_complete hcomplete]
      rw [hcall]
      rcases ih with ⟨hnone, heq⟩ | ⟨⟨other, hother, hothers⟩, hspent⟩
      · exact .inl ⟨List.forall_mem_cons.2 ⟨hcomplete, hnone⟩, heq⟩
      · exact .inr ⟨⟨other, List.mem_cons_of_mem _ hother, hothers⟩, hspent⟩

/-- Without an archive in use no call changes the machine. -/
theorem machine_defineAll (hg : g < s.graphs.size) (hfirst : (s.graphAt g).modulesDefined = false)
    (hnot : (isUsing g s).1 = false) (calls : List DefineCall) :
    (defineAll g s calls).machine = s.machine := by
  rcases defineAll_cases hg hfirst calls with ⟨-, heq⟩ | ⟨-, -, platformLoader, systemLoader, heq⟩
  · rw [heq]
  · rw [heq]
    show (defineArchivedModules g (some platformLoader) (some systemLoader) s).2.machine = _
    rw [defineArchivedModules_of_first hfirst, hnot]
    exact machine_isUsing g s

/-! ### The answer about refused records -/

/-- The answer to a call that has refused some records. -/
structure Reports (refused : List (ModuleRecord × Cause)) (answer : Except Fault Unit) : Prop where
  /-- There is an error exactly if a record was refused. -/
  silent : answer = .ok () ↔ refused = []
  /-- The error has a line for every refused record, which begins with the name of its module. -/
  message : ∀ fault, answer = .error fault → fault.message = Text.join "\n"
    (refused.map fun r => "module " ++ r.1.name ++ ": " ++ r.2.message)
  kinds : ∀ fault, answer = .error fault →
    ∀ kind, fault.wraps kind = refused.any fun r => r.2.kind? = some kind

theorem reports_answerOf (refused : List (ModuleRecord × Cause)) :
    Reports refused (answerOf (refused.map Machine.refusalOf)) := by
  rw [answerOf]
  cases hjoin : Fault.join? (refused.map Machine.refusalOf) with
  | none =>
    have hnil : refused = [] := List.map_eq_nil_iff.1 (Fault.join?_eq_none_iff.1 hjoin)
    refine ⟨⟨fun _ => hnil, fun _ => rfl⟩, ?_, ?_⟩
    · intro fault h
      cases h
    · intro fault h
      cases h
  | some joined =>
    refine ⟨⟨?_, ?_⟩, ?_, ?_⟩
    · intro h
      cases h
    · rintro rfl
      cases hjoin
    · intro fault h
      obtain rfl := Except.error.inj h
      rw [Fault.message_of_join? hjoin, List.map_map]
      rfl
    · intro fault h kind
      obtain rfl := Except.error.inj h
      rw [Fault.wraps_of_join? hjoin, List.any_map]
      rfl

/-- **Archived modules are defined once, and refused one by one.** Let `u` be the session after any
calls for the archived modules of a graph that had not been asked for them. A further call without
both loaders is refused and changes nothing. One with both is refused, and changes nothing, if there
was one with both before. Otherwise nothing has happened yet, and this is the call that counts: if
an archive is in use, its records are sifted, and the loaders are left as if the taken records had
been linked in their order and the others had not been there; the answer is an error exactly if
there are refused records, and names them in their order. Without an archive in use the loaders are
as they were after any calls. -/
theorem archived_modules_defined_once (hg : g < s.graphs.size)
    (hfirst : (s.graphAt g).modulesDefined = false) (calls : List DefineCall) {u : Session}
    (hu : u = defineAll g s calls) :
    (∀ call : DefineCall, ¬ call.Complete →
      defineCall g u call = (.error (.of .nilLoader), u)) ∧
    (∀ platformLoader systemLoader : LoaderKind,
      ((∃ call ∈ calls, call.Complete) →
        defineCall g u ⟨some platformLoader, some systemLoader⟩
          = (.error (.of .modulesAlreadyDefined), u)) ∧
      ((∀ call ∈ calls, ¬ call.Complete) → u = s ∧
        ((isUsing g s).1 = true →
          (∃ l, s.machine.loader? platformLoader = some l) →
          (∃ l, s.machine.loader? systemLoader = some l) →
          ∃ taken refused answer u',
            Machine.Sifts platformLoader systemLoader s.machine (s.archivedModules g) taken
              refused ∧
            defineCall g u ⟨some platformLoader, some systemLoader⟩ = (answer, u') ∧
            u'.machine = taken.foldl (fun m t => m.taking t.1 t.2) s.machine ∧
            Reports refused answer) ∧
        ((isUsing g s).1 = false →
          (defineCall g u ⟨some platformLoader, some systemLoader⟩).1 = .ok ()))) ∧
    ((isUsing g s).1 = false → u.machine = s.machine) := by
  subst hu
  refine ⟨fun call hcall => defineCall_of_not_complete hcall,
    fun platformLoader systemLoader => ⟨fun hbefore => ?_, fun hbefore => ?_⟩,
    fun hnot => machine_defineAll hg hfirst hnot calls⟩
  · rcases defineAll_cases hg hfirst calls with ⟨hnone, -⟩ | ⟨-, hspent, -⟩
    · obtain ⟨call, hcall, hcomplete⟩ := hbefore
      exact absurd hcomplete (hnone call hcall)
    · exact defineCall_of_defined hspent
  · have hsame : defineAll g s calls = s := by
      rcases defineAll_cases hg hfirst calls with ⟨-, heq⟩ | ⟨⟨call, hcall, hcomplete⟩, -⟩
      · exact heq
      · exact absurd hcomplete (hbefore call hcall)
    have hcall : defineCall g s ⟨some platformLoader, some systemLoader⟩ = _ :=
      defineArchivedModules_of_first hfirst
    refine ⟨hsame, fun hin hplatform hsystem => ?_, fun hnot => ?_⟩
    · have hloaders : ∀ kind, ∃ l,
          s.machine.loader? (Machine.givenLoader platformLoader systemLoader kind) = some l := by
        intro kind
        cases kind with
        | boot => exact ⟨_, rfl⟩
        | platform => exact hplatform
        | system => exact hsystem
      obtain ⟨taken, refused, hsifts, hlink⟩ :=
        Machine.exists_sifts (s.archivedModules g) hloaders
      rw [hin, hlink, if_pos rfl] at hcall
      rw [hsame]
      exact ⟨taken, refused, _, _, hsifts, hcall, rfl, reports_answerOf refused⟩
    · rw [hnot] at hcall
      rw [hsame]
      exact congrArg Prod.fst hcall

/-! ### Refused and taken records -/

/-- Records of which the second has a loader that there is not, and the fourth a package of the
first. The third one has the name of the first one and takes its place; the last one has the
contested package on another loader. -/
def siftedRecords : List ModuleRecord :=
  [⟨"base", "boot", some ["p"]⟩, ⟨"lost", "cloud", some ["q"]⟩, ⟨"base", "boot", some ["q"]⟩,
    ⟨"rival", "boot", some ["p"]⟩, ⟨"app", "system", some ["p"]⟩]

/-- The call that counts comes after one without a platform loader. -/
theorem archived_modules_defined_once_siftedRecords :
    ∃ taken refused answer u',
      Machine.Sifts .platform .system (Writer.usingSession siftedRecords).machine siftedRecords
        taken refused ∧
      defineCall 0 (defineAll 0 (Writer.usingSession siftedRecords) [⟨none, some .system⟩])
        ⟨some .platform, some .system⟩ = (answer, u') ∧
      u'.machine = taken.foldl (fun m t => m.taking t.1 t.2)
        (Writer.usingSession siftedRecords).machine ∧
      Reports refused answer ∧
      answer = .error (.both (.within (.moduleNamed "lost") (.of (.unknownLoaderKind "cloud")))
        (.within (.moduleNamed "rival") (.of (.packageConflict "p" "base" "rival")))) ∧
      (defineCall 0 u' ⟨some .system, some .system⟩).1 = .error (.of .modulesAlreadyDefined) := by
  have hcalls : ∀ call ∈ ([⟨none, some .system⟩] : List DefineCall), ¬ call.Complete := by decide
  obtain ⟨-, hcomplete, -⟩ := archived_modules_defined_once (g := 0)
    (s := Writer.usingSession siftedRecords) (by decide) rfl [⟨none, some .system⟩] rfl
  obtain ⟨taken, refused, answer, u', hsifts, hcall, hmachine, hreports⟩ :=
    ((hcomplete .platform .system).2 hcalls).2.1 rfl ⟨_, rfl⟩ ⟨_, rfl⟩
  refine ⟨taken, refused, answer, u', hsifts, hcall, hmachine, hreports, ?_, ?_⟩
  · have hanswer : _ = answer := congrArg Prod.fst hcall
    rw [← hanswer]
    decide +kernel
  · obtain ⟨-, hlater, -⟩ := archived_modules_defined_once (g := 0)
      (s := Writer.usingSession siftedRecords) (by decide) rfl
      [⟨none, some .system⟩, ⟨some .platform, some .system⟩] rfl
    have hafter : defineAll 0 (Writer.usingSession siftedRecords)
        [⟨none, some .system⟩, ⟨some .platform, some .system⟩] = u' := congrArg Prod.snd hcall
    have hrefused := (hlater .system .system).1 (by decide)
    rw [hafter] at hrefused
    exact congrArg Prod.fst hrefused

end Session

end ClassSharing
