import ClassSharing.Session.Basic
import Mathlib.Tactic.Common

/-!
# Effects

Operations on a session are composed in two ways: one after another, and one after another up to the
first failure. A relation between sessions that is reflexive and transitive bounds the effect of a
composed operation as soon as it bounds the effects of its parts, whatever the operation answers.

Where the parts are known exactly, so is the composed operation.

## Main definitions

* `Stable`: a reflexive and transitive relation between sessions
* `Within`: an operation changes sessions only as a relation allows

## Main results

* `Session.bind_apply`, `Session.exceptBind_apply`: what composed operations give
* `Within.bind`, `Within.exceptBind`: composed operations
* `Within.mapM`, `Within.forIn`: operations on the members of a list
-/

namespace ClassSharing

namespace Session

/-! ### Exact effects -/

variable {ε α β : Type} {s s' : Session}

@[simp] theorem machine_withMachine (s : Session) (m : Machine) : (s.withMachine m).machine = m :=
  rfl

@[simp] theorem withMachine_withMachine (s : Session) (m m' : Machine) :
    (s.withMachine m).withMachine m' = s.withMachine m' := rfl

theorem bind_apply (x : Act α) (f : α → Act β) (s : Session) : (x >>= f) s = f (x s).1 (x s).2 :=
  rfl

theorem get_apply (s : Session) : (get : Act Session) s = (s, s) := rfl

theorem exceptGet_apply (s : Session) :
    (get : ExceptT ε (StateM Session) Session) s = (.ok s, s) := rfl

theorem lift_apply (x : Act α) (s : Session) :
    (ExceptT.lift x : ExceptT ε (StateM Session) α) s = (.ok (x s).1, (x s).2) := rfl

theorem exceptModify_apply (f : Session → Session) (s : Session) :
    (modify f : ExceptT ε (StateM Session) PUnit) s = (.ok ⟨⟩, f s) := rfl

theorem machine_apply (s : Session) : Run.machine s = (.ok s.machine, s) := rfl

theorem setMachine_apply (m : Machine) (s : Session) :
    Run.setMachine m s = (.ok (), s.withMachine m) := rfl

theorem onMachine_apply (f : Machine → α × Machine) (s : Session) :
    Run.onMachine f s = (.ok (f s.machine).1, s.withMachine (f s.machine).2) := rfl

theorem ofFault_apply (a : α) (s : Session) : Run.ofFault (.ok a) s = (.ok a, s) := rfl

theorem ofPanic_apply (a : α) (s : Session) : Run.ofPanic (.ok a) s = (.ok a, s) := rfl

/-- An operation that goes on after a part that succeeds. -/
theorem exceptBind_apply {x : ExceptT ε (StateM Session) α} {f : α → ExceptT ε (StateM Session) β}
    {a : α} (h : x s = (.ok a, s')) : (x >>= f) s = f a s' := by
  change ExceptT.bindCont f (x s).1 (x s).2 = _
  rw [h]
  rfl

/-- Operations that answer without changing the session. -/
theorem mapM_apply {f : α → ExceptT ε (StateM Session) β} {g : α → β} {xs : List α}
    (h : ∀ x ∈ xs, f x s = (.ok (g x), s)) : xs.mapM f s = (.ok (xs.map g), s) := by
  induction xs with
  | nil => rfl
  | cons x rest ih =>
    obtain ⟨hx, hrest⟩ := List.forall_mem_cons.1 h
    rw [List.mapM_cons, exceptBind_apply hx, exceptBind_apply (ih hrest)]
    rfl

theorem tryCatch_apply {x : ExceptT ε (StateM Session) α}
    {handler : ε → ExceptT ε (StateM Session) α} {a : α} (h : x s = (.ok a, s')) :
    ExceptT.tryCatch x handler s = (.ok a, s') := by
  change (match (x s).1 with
    | .ok a => Pure.pure (.ok a)
    | .error e => handler e : StateM Session (Except ε α)) (x s).2 = _
  rw [h]
  rfl

theorem tryCatch_apply_error {x : ExceptT ε (StateM Session) α}
    {handler : ε → ExceptT ε (StateM Session) α} {e : ε} (h : x s = (.error e, s')) :
    ExceptT.tryCatch x handler s = handler e s' := by
  change (match (x s).1 with
    | .ok a => Pure.pure (.ok a)
    | .error e => handler e : StateM Session (Except ε α)) (x s).2 = _
  rw [h]

/-- An operation that stops at a part that fails. -/
theorem exceptBind_apply_error {x : ExceptT ε (StateM Session) α}
    {f : α → ExceptT ε (StateM Session) β} {e : ε} (h : x s = (.error e, s')) :
    (x >>= f) s = (.error e, s') := by
  change ExceptT.bindCont f (x s).1 (x s).2 = _
  rw [h]
  rfl

/-- An operation that has succeeded went on after a part that succeeded. -/
theorem exists_of_exceptBind_eq_ok {x : ExceptT ε (StateM Session) α}
    {f : α → ExceptT ε (StateM Session) β} {b : β} (h : (x >>= f) s = (.ok b, s')) :
    ∃ a s₁, x s = (.ok a, s₁) ∧ f a s₁ = (.ok b, s') := by
  cases hx : x s with
  | mk answer s₁ =>
    cases answer with
    | ok a =>
      rw [exceptBind_apply hx] at h
      exact ⟨a, s₁, rfl, h⟩
    | error e =>
      rw [exceptBind_apply_error hx] at h
      cases h

/-- Operations that succeed as long as something stays true. -/
theorem exists_mapM_apply {f : α → ExceptT ε (StateM Session) β} {g : α → β} {xs : List α}
    {P : Session → Prop} (h : ∀ x ∈ xs, ∀ s, P s → ∃ s', f x s = (.ok (g x), s') ∧ P s')
    (hs : P s) : ∃ s', xs.mapM f s = (.ok (xs.map g), s') ∧ P s' := by
  induction xs generalizing s with
  | nil => exact ⟨s, rfl, hs⟩
  | cons x rest ih =>
    obtain ⟨hx, hrest⟩ := List.forall_mem_cons.1 h
    obtain ⟨s₁, hfirst, hs₁⟩ := hx s hs
    obtain ⟨s₂, hothers, hs₂⟩ := ih hrest hs₁
    refine ⟨s₂, ?_, hs₂⟩
    rw [List.mapM_cons, exceptBind_apply hfirst, exceptBind_apply hothers]
    rfl

end Session

/-! ### Bounded effects -/

/-- A reflexive and transitive relation between sessions. -/
structure Stable (R : Session → Session → Prop) : Prop where
  refl : ∀ s, R s s
  trans : ∀ {s s' s''}, R s s' → R s' s'' → R s s''

/-- Whatever an operation answers, it changes the session as a relation allows. -/
def Within {α : Type} (R : Session → Session → Prop) (x : Session → α × Session) : Prop :=
  ∀ s, R s (x s).2

namespace Within

variable {R : Session → Session → Prop} {ε α β : Type}

/-! ### Operations that do not change the session -/

theorem pure (h : Stable R) (a : α) : Within R (pure a : Act α) := fun s => h.refl s

theorem get (h : Stable R) : Within R (get : Act Session) := fun s => h.refl s

theorem exceptPure (h : Stable R) (a : α) : Within R (Pure.pure a : ExceptT ε (StateM Session) α) :=
  fun s => h.refl s

theorem exceptGet (h : Stable R) :
    Within R (MonadState.get : ExceptT ε (StateM Session) Session) := fun s => h.refl s

theorem throw (h : Stable R) (e : ε) :
    Within R (MonadExcept.throw e : ExceptT ε (StateM Session) α) := fun s => h.refl s

/-! ### Composition -/

/-- **One operation after another.** -/
theorem bind (h : Stable R) {x : Act α} {f : α → Act β} (hx : Within R x)
    (hf : ∀ a, Within R (f a)) : Within R (x >>= f) :=
  fun s => h.trans (hx s) (hf (x s).1 (x s).2)

/-- The second operation has to be in the relation only where the first one leaves off. -/
theorem exceptBind_of_ok (h : Stable R) {x : ExceptT ε (StateM Session) α}
    {f : α → ExceptT ε (StateM Session) β} (hx : Within R x)
    (hf : ∀ s a s', x s = (.ok a, s') → R s' (f a s').2) : Within R (x >>= f) := by
  intro s
  have hfirst := hx s
  change R s (ExceptT.bindCont f (x s).1 (x s).2).2
  cases hxs : (x s).1 with
  | error e => exact hfirst
  | ok a => exact h.trans hfirst (hf s a (x s).2 (Prod.ext hxs rfl))

/-- **One operation after another, up to the first failure.** -/
theorem exceptBind (h : Stable R) {x : ExceptT ε (StateM Session) α}
    {f : α → ExceptT ε (StateM Session) β} (hx : Within R x) (hf : ∀ a, Within R (f a)) :
    Within R (x >>= f) :=
  exceptBind_of_ok h hx fun _ a s' _ => hf a s'

/-- An operation on every member of a list. -/
theorem mapM (h : Stable R) {f : α → ExceptT ε (StateM Session) β} {xs : List α}
    (hf : ∀ a, Within R (f a)) : Within R (xs.mapM f) := by
  induction xs with
  | nil => exact exceptPure h []
  | cons x xs ih =>
    rw [List.mapM_cons]
    exact exceptBind h (hf x) fun y => exceptBind h ih fun ys => exceptPure h (y :: ys)

/-- An operation on a state of its own and every member of a list, up to the first that stops. -/
theorem forIn (h : Stable R) {f : α → β → ExceptT ε (StateM Session) (ForInStep β)} {xs : List α}
    {b : β} (hf : ∀ a b, Within R (f a b)) : Within R (ForIn.forIn xs b f) := by
  induction xs generalizing b with
  | nil => exact exceptPure h b
  | cons x xs ih =>
    rw [List.forIn_cons]
    refine exceptBind h (hf x b) fun step => ?_
    cases step with
    | done b => exact exceptPure h b
    | yield b => exact ih

end Within

end ClassSharing
