import ClassSharing.Machine.Basic
import Mathlib.Data.Set.Card

/-!
# Object graphs

The object graph behind a list of values is everything that can be reached from them through slots
and elements. Two graphs are the same if their objects correspond one to one, so that corresponding
objects have classes of the same name and hold corresponding values.

Only the values matter for the correspondence: a renaming that is injective on the objects of the
one graph and respects what they hold reaches exactly the objects of the other one
(`Machine.SameGraph.of_injOn`).

## Main definitions

* `Machine.Reaches`: the objects behind a list of values
* `Value.rename`: a value with its object renamed
* `Machine.SameGraph`: a renaming is an isomorphism of the graphs behind two lists of values
* `Machine.Spans`: the objects of a graph are among the listed ones

## Main results

* `Machine.SameGraph.of_injOn`: when a renaming is one
* `Machine.SameGraph.trans`, `Machine.SameGraph.restrict`: isomorphisms of the same and of smaller
  graphs
* `Machine.Spans.sameGraph`: two machines with the same listed objects
-/

namespace ClassSharing

/-- The values that an object holds, slots first. -/
def Object.contents (o : Object) : List Value := o.slots ++ o.elementList

/-- A value with its object renamed. -/
def Value.rename (f : ObjectId → ObjectId) : Value → Value
  | .obj o => .obj (f o)
  | v => v

namespace Value

@[simp] theorem rename_obj (f : ObjectId → ObjectId) (o : ObjectId) :
    (Value.obj o).rename f = .obj (f o) := rfl

@[simp] theorem rename_id (v : Value) : v.rename (fun o => o) = v := by
  cases v <;> rfl

theorem rename_rename (f g : ObjectId → ObjectId) (v : Value) :
    (v.rename f).rename g = v.rename (g ∘ f) := by
  cases v <;> rfl

theorem rename_eq_obj_iff {f : ObjectId → ObjectId} {v : Value} {p : ObjectId} :
    v.rename f = .obj p ↔ ∃ o, v = .obj o ∧ f o = p := by
  cases v with
  | obj o => simp
  | nil => simp [rename]
  | int n => simp [rename]
  | bool b => simp [rename]
  | str s => simp [rename]

theorem obj_mem_map_rename {f : ObjectId → ObjectId} {vs : List Value} {p : ObjectId} :
    Value.obj p ∈ vs.map (rename f) ↔ ∃ o, Value.obj o ∈ vs ∧ f o = p := by
  rw [List.mem_map]
  constructor
  · rintro ⟨v, hv, heq⟩
    obtain ⟨o, rfl, ho⟩ := rename_eq_obj_iff.1 heq
    exact ⟨o, hv, ho⟩
  · rintro ⟨o, ho, rfl⟩
    exact ⟨.obj o, ho, rfl⟩

end Value

namespace Machine

/-! ### Reachability -/

/-- The objects that can be reached from a list of values. -/
inductive Reaches (m : Machine) (roots : List Value) : ObjectId → Prop where
  | root {o : ObjectId} (h : .obj o ∈ roots) : Reaches m roots o
  | step {o p : ObjectId} (ho : Reaches m roots o) (h : .obj p ∈ (m.objectAt o).contents) :
      Reaches m roots p

theorem Reaches.of_roots {m : Machine} {roots roots' : List Value} {o : ObjectId}
    (h : m.Reaches roots' o) (hroots : ∀ p, .obj p ∈ roots' → m.Reaches roots p) :
    m.Reaches roots o := by
  induction h with
  | root hmem => exact hroots _ hmem
  | step _ hmem ih => exact .step ih hmem

/-- Whatever holds of the roots and goes from an object to what it holds is true of the graph. -/
theorem Reaches.induct {m : Machine} {roots : List Value} {o : ObjectId} (h : m.Reaches roots o)
    {p : ObjectId → Prop} (hroot : ∀ o, .obj o ∈ roots → p o)
    (hstep : ∀ o q, p o → .obj q ∈ (m.objectAt o).contents → p q) : p o := by
  induction h with
  | root hmem => exact hroot _ hmem
  | step _ hmem ih => exact hstep _ _ ih hmem

/-! ### Isomorphisms -/

/-- The renaming `f` is an isomorphism of the graphs behind two lists of values. -/
structure SameGraph (m m' : Machine) (roots roots' : List Value) (f : ObjectId → ObjectId) :
    Prop where
  bijOn : Set.BijOn f {o | m.Reaches roots o} {o | m'.Reaches roots' o}
  renamed : roots' = roots.map (Value.rename f)
  classNames : ∀ o, m.Reaches roots o → m'.classNameOf (f o) = m.classNameOf o
  slots : ∀ o, m.Reaches roots o →
    (m'.objectAt (f o)).slots = (m.objectAt o).slots.map (Value.rename f)
  /-- An indexed object stays one, also if it has no elements. -/
  elements : ∀ o, m.Reaches roots o →
    (m'.objectAt (f o)).elements = (m.objectAt o).elements.map (List.map (Value.rename f))

theorem contents_rename {o o' : Object} {f : ObjectId → ObjectId}
    (hslots : o'.slots = o.slots.map (Value.rename f))
    (helements : o'.elements = o.elements.map (List.map (Value.rename f))) :
    o'.contents = o.contents.map (Value.rename f) := by
  rw [Object.contents, Object.contents, Object.elementList, Object.elementList, hslots, helements,
    List.map_append]
  cases o.elements <;> rfl

section SameGraph

variable {m m' m'' : Machine} {roots roots' roots'' : List Value} {f g : ObjectId → ObjectId}

/-- **When a renaming is an isomorphism.** It has to be injective on the objects of the graph and
respect what they hold; then it reaches every object of the other graph. -/
theorem SameGraph.of_injOn (hinj : Set.InjOn f {o | m.Reaches roots o})
    (hroots : roots' = roots.map (Value.rename f))
    (hclass : ∀ o, m.Reaches roots o → m'.classNameOf (f o) = m.classNameOf o)
    (hslots : ∀ o, m.Reaches roots o →
      (m'.objectAt (f o)).slots = (m.objectAt o).slots.map (Value.rename f))
    (helements : ∀ o, m.Reaches roots o →
      (m'.objectAt (f o)).elements = (m.objectAt o).elements.map (List.map (Value.rename f))) :
    SameGraph m m' roots roots' f := by
  have hcontents : ∀ o, m.Reaches roots o →
      (m'.objectAt (f o)).contents = (m.objectAt o).contents.map (Value.rename f) :=
    fun o ho => contents_rename (hslots o ho) (helements o ho)
  refine ⟨⟨?_, hinj, ?_⟩, hroots, hclass, hslots, helements⟩
  · intro o ho
    induction ho with
    | root hmem => exact Reaches.root (hroots ▸ Value.obj_mem_map_rename.2 ⟨_, hmem, rfl⟩)
    | step hreach hmem ih =>
      refine Reaches.step ih ?_
      rw [hcontents _ hreach]
      exact Value.obj_mem_map_rename.2 ⟨_, hmem, rfl⟩
  · intro p hp
    induction hp with
    | root hmem =>
      rw [hroots] at hmem
      obtain ⟨o, ho, rfl⟩ := Value.obj_mem_map_rename.1 hmem
      exact ⟨o, Reaches.root ho, rfl⟩
    | step _ hmem ih =>
      obtain ⟨o, ho, rfl⟩ := ih
      rw [hcontents o ho] at hmem
      obtain ⟨q, hq, rfl⟩ := Value.obj_mem_map_rename.1 hmem
      exact ⟨q, Reaches.step ho hq, rfl⟩

theorem classNameOf_eq (hclass : ∀ c, m'.className c = m.className c) {o : ObjectId}
    (h : m'.objectAt o = m.objectAt o) : m'.classNameOf o = m.classNameOf o := by
  rw [classNameOf, classNameOf, h]
  cases (m.objectAt o).classId with
  | none => rfl
  | some c => exact hclass c

/-- The same graph on a machine that has the same objects in it. -/
theorem SameGraph.of_agree (hobjects : ∀ o, m.Reaches roots o → m'.objectAt o = m.objectAt o)
    (hclass : ∀ o, m.Reaches roots o → m'.classNameOf o = m.classNameOf o) :
    SameGraph m m' roots roots fun o => o := by
  have hid : Value.rename (fun o => o) = id := funext Value.rename_id
  refine of_injOn (fun o _ p _ h => h) ?_ hclass ?_ ?_
  · rw [hid, List.map_id]
  · intro o ho
    rw [hobjects o ho, hid, List.map_id]
  · intro o ho
    rw [hobjects o ho, hid, List.map_id_fun, Option.map_id]
    rfl

theorem SameGraph.root_eq {o o' : ObjectId} (h : SameGraph m m' [.obj o] [.obj o'] f) : o' = f o :=
  Value.obj.inj (List.singleton_inj.1 h.renamed)

/-- **Isomorphisms compose.** -/
theorem SameGraph.trans (h : SameGraph m m' roots roots' f)
    (h' : SameGraph m' m'' roots' roots'' g) : SameGraph m m'' roots roots'' (g ∘ f) := by
  have hcomp : Value.rename g ∘ Value.rename f = Value.rename (g ∘ f) :=
    funext fun v => Value.rename_rename f g v
  refine ⟨h'.bijOn.comp h.bijOn, ?_, fun o ho => ?_, fun o ho => ?_, fun o ho => ?_⟩
  · rw [h'.renamed, h.renamed, List.map_map, hcomp]
  · exact (h'.classNames _ (h.bijOn.mapsTo ho)).trans (h.classNames o ho)
  · rw [Function.comp_apply, h'.slots _ (h.bijOn.mapsTo ho), h.slots o ho, List.map_map, hcomp]
  · rw [Function.comp_apply, h'.elements _ (h.bijOn.mapsTo ho), h.elements o ho, Option.map_map,
      ← hcomp]
    congr 1
    funext vs
    exact List.map_map

/-- An isomorphism is one of every smaller graph. -/
theorem SameGraph.restrict {smaller : List Value} (h : SameGraph m m' roots roots' f)
    (hsmaller : ∀ o, .obj o ∈ smaller → m.Reaches roots o) :
    SameGraph m m' smaller (smaller.map (Value.rename f)) f := by
  have hreach : ∀ o, m.Reaches smaller o → m.Reaches roots o := fun o ho => ho.of_roots hsmaller
  exact of_injOn (h.bijOn.injOn.mono hreach) rfl (fun o ho => h.classNames o (hreach o ho))
    (fun o ho => h.slots o (hreach o ho)) fun o ho => h.elements o (hreach o ho)

end SameGraph

/-! ### Listed graphs -/

/-- The graph behind an object is among the listed objects: they are where the list says, and what
they hold is listed too. -/
structure Spans (m : Machine) (nodes : List (Object × ObjectId)) (root : ObjectId) : Prop where
  placed : ∀ node ∈ nodes, m.objectAt node.2 = node.1
  root : root ∈ nodes.map Prod.snd
  closed : ∀ node ∈ nodes, ∀ o, .obj o ∈ node.1.contents → o ∈ nodes.map Prod.snd

section Spans

variable {m m' : Machine} {nodes : List (Object × ObjectId)} {root o : ObjectId}

theorem Spans.mem_of_reaches (h : m.Spans nodes root) (ho : m.Reaches [.obj root] o) :
    o ∈ nodes.map Prod.snd := by
  induction ho with
  | root hmem =>
    cases List.mem_singleton.1 hmem
    exact h.root
  | step _ hmem ih =>
    obtain ⟨node, hnode, rfl⟩ := List.mem_map.1 ih
    rw [h.placed node hnode] at hmem
    exact h.closed node hnode _ hmem

theorem Spans.object_mem (h : m.Spans nodes root) (ho : m.Reaches [.obj root] o) :
    (m.objectAt o, o) ∈ nodes := by
  obtain ⟨node, hnode, rfl⟩ := List.mem_map.1 (h.mem_of_reaches ho)
  rw [h.placed node hnode]
  exact hnode

theorem Spans.encard_le (h : m.Spans nodes root) :
    {o | m.Reaches [.obj root] o}.encard ≤ nodes.length := by
  have hsubset :
      {o | m.Reaches [.obj root] o} ⊆ ((nodes.map Prod.snd).toFinset : Set ObjectId) := by
    intro o ho
    rw [List.coe_toFinset]
    exact h.mem_of_reaches ho
  calc _ ≤ ((nodes.map Prod.snd).toFinset : Set ObjectId).encard := Set.encard_le_encard hsubset
    _ = ((nodes.map Prod.snd).toFinset.card : ENat) := Set.encard_coe_eq_coe_finsetCard _
    _ ≤ (nodes.length : ENat) := by
      have hcard := List.toFinset_card_le (nodes.map Prod.snd)
      rw [List.length_map] at hcard
      exact_mod_cast hcard

/-- **Two machines with the same listed objects have the same graph.** -/
theorem Spans.sameGraph (h : m.Spans nodes root) (h' : m'.Spans nodes root)
    (hclass : ∀ c, m'.className c = m.className c) :
    SameGraph m m' [.obj root] [.obj root] fun o => o := by
  have hobjects : ∀ o, m.Reaches [.obj root] o → m'.objectAt o = m.objectAt o := by
    intro o ho
    obtain ⟨node, hnode, rfl⟩ := List.mem_map.1 (h.mem_of_reaches ho)
    rw [h.placed node hnode, h'.placed node hnode]
  refine SameGraph.of_agree hobjects fun o ho => ?_
  exact classNameOf_eq hclass (hobjects o ho)

end Spans

end Machine

end ClassSharing
