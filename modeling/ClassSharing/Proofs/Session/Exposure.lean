import ClassSharing.Proofs.Session.Kept

/-!
# When restored objects become reachable

Restoring a class makes objects of other classes reachable through its statics. Code that finds them
there may use them at once, so their classes have to be prepared by then: each of them ready, or at
least being initialized.

The classes that a record lists are requested one after another, before anything is built. While the
later ones are requested, arbitrary initializers run, and they may request, restore and fail any
class; but no class leaves the ready or the running state in between, because whatever begins during
a request is over when the request returns. So what was granted first is still usable when the
statics are assigned. The class that is restored is the only one for which nothing is known.

## Main definitions

* `Event.Guarded`: an assignment of statics that exposes objects of prepared classes only
* `Session.Guarded`: a stretch of a run with only such assignments

## Main results

* `Session.built_of_restore`: the journal tells the classes and the states of all objects built
* `Session.Tried.guarded`: an attempt to restore a class
* `Session.exposed_only_prepared`: objects never become reachable before their classes are prepared
-/

namespace ClassSharing

/-- An event is guarded if it is no assignment of statics, or if every object built for it was of
the class itself or of a class that was ready or being initialized. -/
def Event.Guarded : Event → Prop
  | assigned _ c built => ∀ p ∈ built, p.1 = c ∨ p.2 = .ready ∨ p.2 = .running
  | _ => True

theorem Event.guarded_of_begins {hook : Option GraphId} {g : GraphId} {c : ClassId} {e : Event}
    (h : e.begins hook g c = true) : e.Guarded := by
  cases e with
  | asked _ _ => trivial
  | consulting _ => trivial
  | _ => cases h

namespace Session

/-! ### What the journal tells about an assignment -/

section Built

variable {m m' : Machine} {objects : List Object} {c : ClassId}

/-- A class with its state is noted for each object that has a class. -/
theorem forall₂_classStates (h : ∀ o ∈ objects, ∃ k, o.classId = some k) :
    List.Forall₂ (fun o p => o.classId = some p.1 ∧ p.2 = m.stateOf p.1) objects
      (classStates m objects) := by
  induction objects with
  | nil => exact .nil
  | cons o rest ih =>
    obtain ⟨⟨k, hk⟩, hrest⟩ := List.forall_mem_cons.1 h
    have hcons : classStates m (o :: rest) = (k, m.stateOf k) :: classStates m rest := by
      rw [classStates, List.filterMap_cons, hk]
      rfl
    rw [hcons]
    exact .cons ⟨hk, rfl⟩ (ih hrest)

/-- **A restoration exposes objects of prepared classes only.** -/
theorem Assigns.guarded (h : Assigns c objects m m') (g : GraphId) :
    (Event.assigned g c (classStates m' objects)).Guarded := by
  intro p hp
  obtain ⟨o, ho, hmap⟩ := List.mem_filterMap.1 hp
  obtain ⟨k, hk, hprepared⟩ := h.prepared o ho
  rw [hk] at hmap
  obtain rfl := Option.some.inj hmap
  exact hprepared

/-- **A successful restoration tells all.** Whatever the requests inside it do, it builds an object
for each object record, at the end of the heap, and the last thing it does is to note the class of
each of them with the state that the class is in. -/
theorem built_of_restore {r : Requester} {g : GraphId} {s s' : Session}
    (h : restore r g c s = (.ok (), s')) :
    ∃ record heap objects built, s.usableRecord g c = .ok record ∧
      objects.length = (record.objects.getD []).length ∧
      s'.machine.objects = heap ++ objects.toArray ∧
      s'.journal.getLast? = some (.assigned g c built) ∧
      List.Forall₂ (fun o p => o.classId = some p.1 ∧ p.2 = s'.machine.stateOf p.1) objects
        built := by
  cases hrecord : s.usableRecord g c with
  | error fault =>
    rw [restore_of_error hrecord] at h
    cases h
  | ok record =>
    obtain ⟨found, s₁, hfound, hcheck⟩ := archivedSubgraph_of_usableRecord hrecord
    rcases hprepare : prepareClasses r (Table.empty.insert (s.machine.className c) c)
      (record.classes.getD []) (archivedSubgraph g (s.machine.className c) s).2
      with ⟨fault | allowed, s₂⟩
    · rw [restore_of_refused hrecord hprepare] at h
      cases h
    · cases hbuild : record.materialize s₂.machine allowed with
      | error fault =>
        rw [restore_of_unbuilt hrecord hprepare hbuild] at h
        cases h
      | ok made =>
        obtain ⟨objects, values⟩ := made
        rw [hfound] at hprepare
        rw [restore_eq_commit rfl hfound hcheck hprepare hbuild] at h
        rcases commit_cases g c objects values s₂ with ⟨fault, heq⟩ | ⟨m, -, hheap, heq⟩
        · rw [heq] at h
          cases h
        · rw [heq] at h
          obtain rfl := congrArg Prod.snd h
          refine ⟨record, s₂.machine.objects, objects, classStates m objects, rfl,
            record.length_of_materialize hbuild, hheap, List.getLast?_concat, ?_⟩
          refine forall₂_classStates fun o ho => ?_
          obtain ⟨k, -, hk, -⟩ := record.exists_classId_of_materialize hbuild ho
          exact ⟨k, hk⟩

end Built

/-! ### Stretches of a run -/

/-- A stretch of a run in which only guarded events are noted. -/
structure Guarded (s s' : Session) : Prop where
  dwindles : s.Dwindles s'
  journal : ∃ events, s'.journal = s.journal ++ events ∧ ∀ e ∈ events, e.Guarded

section Guarded

variable {s s' : Session} {g : GraphId} {c : ClassId} {e : Event}

theorem stable_guarded : Stable Guarded where
  refl s := ⟨stable_dwindles.refl s, [], (List.append_nil _).symm, by simp⟩
  trans h h' := by
    obtain ⟨events, hevents, hguarded⟩ := h.journal
    obtain ⟨later, hlater, hguarded'⟩ := h'.journal
    refine ⟨stable_dwindles.trans h.dwindles h'.dwindles, events ++ later, ?_, ?_⟩
    · rw [hlater, hevents, List.append_assoc]
    · exact List.forall_mem_append.2 ⟨hguarded, hguarded'⟩

theorem Calm.guarded (h : s.Calm s') : Guarded s s' :=
  ⟨h.settles.dwindles, [], by rw [h.journal, List.append_nil], by simp⟩

theorem guarded_note (he : e.Guarded) : Guarded s (s.note e) :=
  ⟨dwindles_note s e, [e], rfl, by simpa using he⟩

theorem guarded_move {state : InitState} (hstate : state ≠ .uninitialized) :
    Guarded s (s.move c state) :=
  ⟨dwindles_move s c hstate, [.moved c state], rfl, by simp [Event.Guarded]⟩

theorem guarded_recordOutcome (g : GraphId) (name : Text) (outcome : Outcome) :
    Within Guarded (recordOutcome g name outcome) :=
  within_recordOutcome stable_guarded fun s =>
    ⟨dwindles_of_states (evolves_withOutcome s g name outcome) fun _ => rfl,
      [.recorded g name outcome], rfl, by simp [Event.Guarded]⟩

/-- **An attempt to restore a class** assigns its statics only when the classes of the objects are
prepared. -/
theorem Tried.guarded (h : Tried Guarded g c s s') : Guarded s s' := by
  refine h.of_stages stable_guarded Calm.guarded (fun h => h.dwindles.evolves) id ?_ ?_
  · intro t m objects hassigns
    exact guarded_note (hassigns.guarded g)
  · intro t outcome _
    exact guarded_recordOutcome g (t.machine.className c) outcome t

theorem kept_guarded (m : Machine) : Kept m Guarded where
  stable := stable_guarded
  calm := Calm.guarded
  dwindles := Guarded.dwindles
  granted _ _ := guarded_note trivial
  consulted _ _ := guarded_note trivial
  entered _ _ := guarded_note trivial
  moved hstate _ := guarded_move hstate
  attempted _ _ he htried :=
    stable_guarded.trans (guarded_note (Event.guarded_of_begins he)) htried.guarded

end Guarded

/-! ### Main result -/

/-- **Objects never become reachable before their classes are prepared.** Whenever, in any run, a
restoration assigns the statics of a class, every object that it has built is of that class or of
one that is ready or being initialized at that moment. And this is every object, for a restoration
that succeeds notes the class and the state for each object that it has put on the heap. -/
theorem exposed_only_prepared {s : Session} {calls : List Call} (hs : s.machine.WellFormed)
    (hcalls : ∀ call ∈ calls, call.classId < s.machine.classes.size) :
    (∃ events, (s.callAll calls).journal = s.journal ++ events ∧
      ∀ g c built, .assigned g c built ∈ events →
        ∀ p ∈ built, p.1 = c ∨ p.2 = .ready ∨ p.2 = .running) ∧
      ∀ r g c t t', restore r g c t = (.ok (), t') →
        ∃ record heap objects built, t.usableRecord g c = .ok record ∧
          objects.length = (record.objects.getD []).length ∧
          t'.machine.objects = heap ++ objects.toArray ∧
          t'.journal.getLast? = some (.assigned g c built) ∧
          List.Forall₂ (fun o p => o.classId = some p.1 ∧ p.2 = t'.machine.stateOf p.1) objects
            built := by
  obtain ⟨events, hevents, hguarded⟩ :=
    ((kept_guarded s.machine).callAll hs (bounded_self s) hcalls).journal
  refine ⟨⟨events, hevents, ?_⟩, fun r g c t t' h => built_of_restore h⟩
  intro g c built hmem
  exact hguarded _ hmem

/-- A process like the tangled one in which an object of `A` and an object of `C` are built for
`C`. -/
def exposedSession : Session :=
  { tangledSession with
    boots := #[.synthetic { SyntheticBoot.new (.ok ⟨Status.usingFlag⟩) default with
      subgraphs := Table.empty.insert "C" (some
        { className := "C", fields := some [⟨"v", ⟨Image.referenceTag, 0, "", 0⟩⟩]
          classes := some ["A"]
          objects := some [⟨"A", none, false, none⟩, ⟨"C", none, false, none⟩] }) }] }

/-- `C` is restored while `A`, which requests it, is being initialized, and again when `A` is
ready. -/
theorem exposed_only_prepared_exposedSession :
    exposedSession.machine.WellFormed ∧
      Event.assigned 0 2 [(3, .running), (2, .running)]
        ∈ (exposedSession.callAll [.restore 0 2]).journal ∧
      Event.assigned 0 2 [(3, .ready), (2, .ready)]
        ∈ (exposedSession.callAll [.restore 0 2]).journal ∧
      ∃ events, (exposedSession.callAll [.restore 0 2]).journal = exposedSession.journal ++ events ∧
        ∀ g c built, .assigned g c built ∈ events →
          ∀ p ∈ built, p.1 = c ∨ p.2 = .ready ∨ p.2 = .running := by
  have hcalls : ∀ call ∈ [Call.restore 0 2],
      call.classId < exposedSession.machine.classes.size := by
    decide
  exact ⟨wellFormed_tangledMachine, by decide +kernel, by decide +kernel,
    (exposed_only_prepared (s := exposedSession) wellFormed_tangledMachine hcalls).1⟩

end Session

end ClassSharing
