import ClassSharing.Proofs.Library.Forms

/-!
# Requests for invoker forms

A request for an unknown holder is refused, but only after its key has been looked up. If the key is
that of an earlier request for a known holder, the request is answered with the form that was made
then: `Invokers$Holder a` with the kind `b` has the key of `Invokers$Holder` with the kind `a b`.

So the law that every request has a form of its own and that unknown holders are refused holds up to
equal keys, and it is stated here with the keys in it.

## Main definitions

* `Invokers.answerAll`: answering requests one after another
* `Invokers.Answered`: the answers to requests

## Main results

* `Invokers.Sound.exists_step`: one request
* `Invokers.answered_answerAll`: all requests
-/

namespace ClassSharing

namespace Invokers

/-- Answers requests one after another. -/
def answerAll (iv : Invokers) : List Request → Act (List (Except Failure ObjectId) × Invokers)
  | [] => return ([], iv)
  | r :: rest => do
    let (outcome, iv) ← iv.invoker r.holder r.kind r.type
    let (outcomes, iv) ← iv.answerAll rest
    return (outcome :: outcomes, iv)

/-! ### All requests -/

/-- One of the requests in a list is for a known holder and has a key. -/
def Asked (requests : List Request) (key : Text) : Prop := ∃ r ∈ requests, r.Known ∧ r.key = key

/-- What becomes of one of several requests: it gets the form under its key, if there is one or the
holder is known, and otherwise it is refused. `asked` are the requests before it, and `forms` is
what there is in the end. -/
def Settled (asked : List Request) (forms : Table ObjectId) (r : Request)
    (outcome : Except Failure ObjectId) : Prop :=
  (∃ form, outcome = .ok form ∧ forms.get? r.key = some form ∧ (r.Known ∨ Asked asked r.key)) ∨
    outcome = .error (.fault (.of (.unknownHolder r.holder))) ∧ ¬ r.Known ∧ ¬ Asked asked r.key

theorem asked_append {asked : List Request} {r : Request} {key : Text} :
    Asked (asked ++ [r]) key ↔ Asked asked key ∨ r.Known ∧ r.key = key := by
  simp only [Asked, List.mem_append, List.mem_singleton]
  constructor
  · rintro ⟨r', hr' | rfl, h⟩
    · exact .inl ⟨r', hr', h⟩
    · exact .inr h
  · rintro (⟨r', hr', h⟩ | h)
    · exact ⟨r', .inl hr', h⟩
    · exact ⟨r, .inr rfl, h⟩

section Runs

variable {iv : Invokers} {s : Session} {asked : List Request}

/-- **A request for a known holder with a new key** gets a form of its own. -/
theorem Sound.exists_invoker {r : Request} (h : iv.Sound s.machine)
    (hnew : iv.forms.get? r.key = none) (hknown : r.Known) :
    ∃ form iv' s', iv.invoker r.holder r.kind r.type s = ((.ok form, iv'), s') ∧
      iv'.Sound s'.machine ∧ iv'.forms = iv.forms.insert r.key form := by
  obtain ⟨hc, fc, m', hrun, hmaking⟩ := exists_making h.classes hnew hknown
  refine ⟨_, _, _, hrun, ?_, rfl⟩
  rw [Session.machine_logged]
  exact hmaking.sound h hknown

/-- **One request**: what becomes of it, and what stays. -/
theorem Sound.exists_step (h : iv.Sound s.machine)
    (hasked : ∀ key, (∃ form, iv.forms.get? key = some form) ↔ Asked asked key) (r : Request) :
    ∃ outcome iv' s', iv.invoker r.holder r.kind r.type s = ((outcome, iv'), s') ∧
      iv'.Sound s'.machine ∧ Settled asked iv'.forms r outcome ∧
      (∀ key form, iv.forms.get? key = some form → iv'.forms.get? key = some form) ∧
      ∀ key, (∃ form, iv'.forms.get? key = some form) ↔ Asked (asked ++ [r]) key := by
  cases hget : iv.forms.get? r.key with
  | some form =>
    have hkey : Asked asked r.key := (hasked _).1 ⟨form, hget⟩
    refine ⟨_, _, s, invoker_of_some hget, h, .inl ⟨form, rfl, hget, .inr hkey⟩,
      fun _ _ hold => hold, fun key => ?_⟩
    rw [hasked, asked_append]
    refine ⟨.inl, fun hor => hor.elim id ?_⟩
    rintro ⟨-, rfl⟩
    exact hkey
  | none =>
    have hnot : ¬ Asked asked r.key := by
      rw [← hasked, hget]
      simp
    by_cases hknown : r.Known
    · obtain ⟨form, iv', s', hrun, hsound, hforms⟩ := h.exists_invoker hget hknown
      have hlook : ∀ key, iv'.forms.get? key
          = if key = r.key then some form else iv.forms.get? key := fun key => by
        rw [hforms, Table.get?_insert]
      refine ⟨_, iv', s', hrun, hsound, .inl ⟨form, rfl, ?_, .inl hknown⟩, fun key old hold => ?_,
        fun key => ?_⟩
      · rw [hlook, if_pos rfl]
      · rw [hlook, if_neg, hold]
        rintro rfl
        rw [hget] at hold
        cases hold
      · rw [hlook, asked_append, ← hasked]
        by_cases hkey : key = r.key
        · simp [hkey, hknown]
        · simp [hkey, Ne.symm hkey]
    · refine ⟨_, iv, s, h.invoker_of_unknown hget hknown, h, .inr ⟨rfl, hknown, hnot⟩,
        fun _ _ hold => hold, fun key => ?_⟩
      rw [hasked, asked_append]
      exact ⟨.inl, fun hor => hor.elim id fun hr => absurd hr.1 hknown⟩

/-- **All requests**, by induction on them. What is settled stays settled, since no form is ever
lost. -/
theorem Sound.exists_answerAll (h : iv.Sound s.machine)
    (hasked : ∀ key, (∃ form, iv.forms.get? key = some form) ↔ Asked asked key)
    (requests : List Request) :
    ∃ outcomes iv' s', iv.answerAll requests s = ((outcomes, iv'), s') ∧ iv'.Sound s'.machine ∧
      (∀ key form, iv.forms.get? key = some form → iv'.forms.get? key = some form) ∧
      outcomes.length = requests.length ∧
      ∀ i r outcome, requests[i]? = some r → outcomes[i]? = some outcome →
        Settled (asked ++ requests.take i) iv'.forms r outcome := by
  induction requests generalizing iv s asked with
  | nil => exact ⟨[], iv, s, rfl, h, fun _ _ hold => hold, rfl, nofun⟩
  | cons r rest ih =>
    obtain ⟨outcome, iv₁, s₁, hstep, hsound₁, hsettled, hkept₁, hasked₁⟩ := h.exists_step hasked r
    obtain ⟨outcomes, iv₂, s₂, hrest, hsound₂, hkept₂, hlength, hall⟩ := ih hsound₁ hasked₁
    refine ⟨outcome :: outcomes, iv₂, s₂, ?_, hsound₂,
      fun key form hold => hkept₂ key form (hkept₁ key form hold), by simp [hlength], ?_⟩
    · rw [answerAll, Session.bind_apply, hstep]
      simp only
      rw [Session.bind_apply, hrest]
      rfl
    · intro i r' outcome' hr' houtcome'
      cases i with
      | zero =>
        obtain rfl := Option.some.inj hr'
        obtain rfl := Option.some.inj houtcome'
        rw [List.take_zero, List.append_nil]
        exact hsettled.imp_left fun ⟨form, hok, hget, hwhy⟩ => ⟨form, hok, hkept₂ _ _ hget, hwhy⟩
      | succ i =>
        have htail := hall i r' outcome' hr' houtcome'
        rwa [List.append_assoc] at htail

end Runs

/-- The outcomes of requests that were answered one after another, on the machine that they lead to.
-/
structure Answered (requests : List Request) (outcomes : List (Except Failure ObjectId))
    (m : Machine) : Prop where
  length : outcomes.length = requests.length
  /-- A request for a known holder gets the form with its own holder, kind and method type. -/
  known : ∀ (i : Nat) r, requests[i]? = some r → r.Known →
    ∃ form, outcomes[i]? = some (.ok form) ∧ IsForm m form r
  /-- Requests for known holders get the same form exactly if they are the same. -/
  same : ∀ (i j : Nat) r r', requests[i]? = some r → requests[j]? = some r' → r.Known → r'.Known →
    (outcomes[i]? = outcomes[j]? ↔ r = r')
  /-- A request for an unknown holder is refused, unless an earlier request for a known holder has
  the same key; then it gets the form of that request. -/
  unknown : ∀ (i : Nat) r, requests[i]? = some r → ¬ r.Known →
    (∃ j < i, ∃ r', requests[j]? = some r' ∧ r'.Known ∧ r'.key = r.key ∧
      outcomes[i]? = outcomes[j]?) ∨
    (∀ j < i, ∀ r', requests[j]? = some r' → r'.Known → r'.key ≠ r.key) ∧
      outcomes[i]? = some (.error (.fault (.of (.unknownHolder r.holder))))

/-- An earlier request, by its place. -/
theorem mem_take_iff {requests : List Request} {i : Nat} {r : Request} :
    r ∈ requests.take i ↔ ∃ j < i, requests[j]? = some r := by
  rw [List.mem_iff_getElem?]
  constructor
  · rintro ⟨j, hj⟩
    rw [List.getElem?_take] at hj
    split at hj
    · rename_i hlt
      exact ⟨j, hlt, hj⟩
    · cases hj
  · rintro ⟨j, hlt, hj⟩
    exact ⟨j, by rw [List.getElem?_take, if_pos hlt, hj]⟩

/-- **Forms and refusals.** On a machine without classes of the namespace, every list of requests is
answered: those for known holders each with a form of their own, which two of them share exactly if
they ask for the same; those for unknown holders with a refusal, up to requests whose key has been
asked for before. -/
theorem answered_answerAll {s : Session} (log : Option GateId) (hrooted : s.machine.Rooted)
    (hfree : ∀ name, s.machine.lookup (Class.qualify Library.invokeSpace name) = none)
    (requests : List Request) :
    ∃ outcomes iv s', (new log).answerAll requests s = ((outcomes, iv), s') ∧
      Answered requests outcomes s'.machine := by
  have hnone : ∀ key, (∃ form, (new log).forms.get? key = some form) ↔ Asked [] key := by
    simp [Asked, new]
  obtain ⟨outcomes, iv, s', hrun, hsound, -, hlength, hsettled⟩ :=
    (sound_new log hrooted hfree).exists_answerAll hnone requests
  refine ⟨outcomes, iv, s', hrun, ?_⟩
  simp only [List.nil_append] at hsettled
  have houtcome : ∀ (i : Nat) r, requests[i]? = some r → ∃ outcome, outcomes[i]? = some outcome ∧
      Settled (requests.take i) iv.forms r outcome := by
    intro i r hr
    have hi : i < outcomes.length := hlength ▸ (List.getElem?_eq_some_iff.1 hr).1
    exact ⟨_, List.getElem?_eq_getElem hi, hsettled i r _ hr (List.getElem?_eq_getElem hi)⟩
  have hknown : ∀ (i : Nat) r, requests[i]? = some r → r.Known →
      ∃ form, outcomes[i]? = some (.ok form) ∧ iv.forms.get? r.key = some form := by
    intro i r hr hr'
    obtain ⟨outcome, houtcomes, ⟨form, rfl, hget, -⟩ | ⟨-, hnot, -⟩⟩ := houtcome i r hr
    · exact ⟨form, houtcomes, hget⟩
    · exact absurd hr' hnot
  refine ⟨hlength, fun i r hr hr' => ?_, fun i j r r' hi hj hr hr' => ?_, fun i r hr hnot => ?_⟩
  · obtain ⟨form, houtcomes, hget⟩ := hknown i r hr hr'
    obtain ⟨r₀, hr₀, hkey, hform⟩ := hsound.forms _ _ hget
    exact ⟨form, houtcomes, Request.key_inj hr₀ hr' hkey ▸ hform⟩
  · obtain ⟨form, houtcomes, hget⟩ := hknown i r hi hr
    obtain ⟨form', houtcomes', hget'⟩ := hknown j r' hj hr'
    rw [houtcomes, houtcomes']
    constructor
    · intro heq
      obtain rfl : form = form' := by injection heq with heq; injection heq
      exact Request.key_inj hr hr' (hsound.distinct _ _ _ hget hget')
    · rintro rfl
      rw [Option.some.inj (hget.symm.trans hget')]
  · obtain ⟨outcome, houtcomes, ⟨form, rfl, hget, hwhy⟩ | ⟨rfl, -, hnone⟩⟩ := houtcome i r hr
    · obtain ⟨r', hmem, hr', hkey⟩ := hwhy.resolve_left hnot
      obtain ⟨j, hlt, hj⟩ := mem_take_iff.1 hmem
      obtain ⟨form', houtcomes', hget'⟩ := hknown j r' hj hr'
      rw [hkey] at hget'
      refine .inl ⟨j, hlt, r', hj, hr', hkey, ?_⟩
      rw [houtcomes, houtcomes', Option.some.inj (hget.symm.trans hget')]
    · refine .inr ⟨fun j hlt r' hj hr' hkey => ?_, houtcomes⟩
      exact hnone ⟨r', mem_take_iff.2 ⟨j, hlt, hj⟩, hr', hkey⟩

/-- Two requests with one key, of which the second is for an unknown holder. -/
def collidingRequests : List Request :=
  [⟨invokersHolder, "a b", ⟨[], .void⟩⟩, ⟨"core.invoke::Invokers$Holder a", "b", ⟨[], .void⟩⟩]

theorem answered_collidingRequests :
    collidingRequests.map (fun r => decide r.Known) = [true, false] ∧
      ∃ outcomes iv s', (new none).answerAll collidingRequests freshSession = ((outcomes, iv), s') ∧
        Answered collidingRequests outcomes s'.machine :=
  ⟨by decide +kernel,
    answered_answerAll none Machine.rooted_new lookup_freshSession collidingRequests⟩

/-- **An unknown holder that is not refused**: the second request gets the form of the first, with
its holder and its kind. -/
theorem form_collidingRequests :
    ((new none).answerAll collidingRequests freshSession).1.1.map Except.toOption
        = [some 0, some 0] ∧
      (((new none).answerAll collidingRequests freshSession).2.machine.objectAt 0).slots
        = [.str invokersHolder, .str "a b", .str "()V"] ∧
      ¬ (⟨"core.invoke::Invokers$Holder a", "b", ⟨[], .void⟩⟩ : Request).Known := by
  decide +kernel

end Invokers

end ClassSharing
