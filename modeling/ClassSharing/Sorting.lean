/-!
# Sorting

A quicksort that recognizes patterns: short stretches are sorted by insertion, runs that are nearly
in order are finished by a few insertions, stretches with many equal items are split off at once,
and after too many lopsided splits a heap takes over. Which of several equal items comes first is
settled by the moves it makes, so a sorted list with equal keys is the one it leaves behind.

Every move is an exchange of two items, so the result holds the same items. A stable sort comes
last: it leaves a list in order as it is, and makes the order plain.

## Main definitions

* `Sorting.arrange`: the order that the quicksort leaves behind
* `Sorting.sort`: the items in ascending order

## Main results

* `Sorting.arrange_perm`, `Sorting.sort_perm`: the same items
* `Sorting.sort_pairwise`: ascending order
-/

namespace ClassSharing

namespace Sorting

variable {α : Type}

/-- Whether the item at one place comes before the item at another. -/
def isBefore (before : α → α → Bool) (a : Array α) (i j : Nat) : Bool :=
  match a[i]?, a[j]? with
  | some x, some y => before x y
  | _, _ => false

/-! ### Insertion -/

/-- Moves the item at a place down while it comes before its neighbour, not below `low`. -/
def sink (before : α → α → Bool) (low : Nat) (a : Array α) : Nat → Array α
  | 0 => a
  | i + 1 =>
    if low ≤ i && isBefore before a (i + 1) i then
      sink before low (a.swapIfInBounds (i + 1) i) i
    else a

/-- Moves the item below a place up while its neighbour comes before it, not up to `high`. -/
def rise (before : α → α → Bool) (high : Nat) (a : Array α) (i : Nat) : Array α :=
  if i < high && isBefore before a i (i - 1) then
    rise before high (a.swapIfInBounds i (i - 1)) (i + 1)
  else a
termination_by high - i
decreasing_by simp_all; omega

/-- Sorts the places from `low` up to `high` by insertion. -/
def insertionSort (before : α → α → Bool) (low high : Nat) (a : Array α) : Array α :=
  (List.range' (low + 1) (high - low - 1)).foldl (sink before low) a

/-- The first place from `i` up to `high` whose item comes before its neighbour. -/
def firstDescent (before : α → α → Bool) (a : Array α) (high i : Nat) : Nat :=
  if i < high && !isBefore before a i (i - 1) then firstDescent before a high (i + 1) else i
termination_by high - i
decreasing_by simp_all; omega

/-- The length from which items are moved in the attempt to finish a run. -/
def shortestShifting : Nat := 50

/-- Tries to finish a run that is nearly in order with a few insertions, and tells whether it is in
order now. -/
def finishRun (before : α → α → Bool) (low high : Nat) :
    (steps : Nat) → (i : Nat) → Array α → Array α × Bool
  | 0, _, a => (a, false)
  | steps + 1, i, a =>
    let i := firstDescent before a high i
    if i = high then (a, true)
    else if high - low < shortestShifting then (a, false)
    else
      let a := a.swapIfInBounds i (i - 1)
      let a := if 2 ≤ i - low then sink before 0 a (i - 1) else a
      let a := if 2 ≤ high - i then rise before high a (i + 1) else a
      finishRun before low high steps i a

/-! ### Heaps -/

/-- Moves the item at `root` of the heap from `first` on down to its place among the first `size`
items. -/
def siftDown (before : α → α → Bool) (first size : Nat) (a : Array α) (root : Nat) : Array α :=
  let left := 2 * root + 1
  if left < size then
    let child :=
      if left + 1 < size && isBefore before a (first + left) (first + left + 1) then left + 1
      else left
    if isBefore before a (first + root) (first + child) then
      siftDown before first size (a.swapIfInBounds (first + root) (first + child)) child
    else a
  else a
termination_by size - root
decreasing_by split <;> omega

/-- Sorts the places from `low` up to `high` with a heap. -/
def heapSort (before : α → α → Bool) (low high : Nat) (a : Array α) : Array α :=
  let size := high - low
  let heap := (List.range ((size - 1) / 2 + 1)).reverse.foldl (siftDown before low size) a
  (List.range size).reverse.foldl
    (fun a i => siftDown before low i (a.swapIfInBounds low (low + i)) 0) heap

/-! ### Pivots -/

/-- What the items that were looked at suggest about a stretch. -/
inductive Trend where
  | ascending
  | descending
  | unclear
deriving DecidableEq, Inhabited

/-- Two places in the order of their items, and the number of exchanges so far. -/
def ordered (before : α → α → Bool) (a : Array α) (i j swaps : Nat) : Nat × Nat × Nat :=
  if isBefore before a j i then (j, i, swaps + 1) else (i, j, swaps)

/-- The place of the median of three items, and the number of exchanges so far. -/
def median (before : α → α → Bool) (a : Array α) (i j k swaps : Nat) : Nat × Nat :=
  let (i, j, swaps) := ordered before a i j swaps
  let (j, _, swaps) := ordered before a j k swaps
  let (_, j, swaps) := ordered before a i j swaps
  (j, swaps)

/-- The place of the median of an item and its neighbours. -/
def medianAround (before : α → α → Bool) (a : Array α) (i swaps : Nat) : Nat × Nat :=
  median before a (i - 1) i (i + 1) swaps

/-- The length from which the pivot is a median of medians. -/
def shortestNinther : Nat := 50

/-- The place of a pivot, and the trend that its choice shows. -/
def choosePivot (before : α → α → Bool) (low high : Nat) (a : Array α) : Nat × Trend :=
  let quarter := (high - low) / 4
  let (i, j, k) := (low + quarter, low + quarter * 2, low + quarter * 3)
  let (pivot, swaps) :=
    if shortestNinther ≤ high - low then
      let (i, swaps) := medianAround before a i 0
      let (j, swaps) := medianAround before a j swaps
      let (k, swaps) := medianAround before a k swaps
      median before a i j k swaps
    else median before a i j k 0
  (pivot, if swaps = 0 then .ascending else if swaps = 12 then .descending else .unclear)

/-! ### Rearrangement -/

/-- Turns the places from `i` up to and with `j` around. -/
def reverseBetween (a : Array α) (i j : Nat) : Array α :=
  if i < j then reverseBetween (a.swapIfInBounds i j) (i + 1) (j - 1) else a
termination_by j - i

/-- The next number of a pseudorandom sequence: shifts to the left, right and left, each added
without carry. -/
def nextRandom (r : UInt64) : UInt64 :=
  let r := r ^^^ (r <<< 13)
  let r := r ^^^ (r >>> 7)
  r ^^^ (r <<< 17)

/-- Exchanges three items in the middle with items all over the stretch, to break a pattern that
made splits lopsided. -/
def scatter (low high : Nat) (a : Array α) : Array α :=
  let length := high - low
  let modulus := Nat.shiftLeft 1 (length.log2 + 1)
  let middle := low + length / 4 * 2
  let other (r : UInt64) : Nat :=
    let place := r.toNat % modulus
    low + if length ≤ place then place - length else place
  let first := nextRandom length.toUInt64
  let second := nextRandom first
  ((a.swapIfInBounds (middle - 1) (other first)).swapIfInBounds middle
    (other second)).swapIfInBounds (middle + 1) (other (nextRandom second))

/-! ### Splitting -/

/-- The first place from `i` up to and with `j` that does not belong to the left part. -/
def firstRight (isLeft : Nat → Bool) (i j : Nat) : Nat :=
  if i ≤ j && isLeft i then firstRight isLeft (i + 1) j else i
termination_by j + 1 - i
decreasing_by simp_all; omega

/-- The last place down to `i` that belongs to the left part. -/
def lastLeft (isLeft : Nat → Bool) (i : Nat) : Nat → Nat
  | 0 => 0
  | j + 1 => if i ≤ j + 1 && !isLeft (j + 1) then lastLeft isLeft i j else j + 1

/-- The outcome of a split. -/
structure Split (α : Type) where
  items : Array α
  /-- The first place of the right part. -/
  right : Nat
  /-- The last place of the left part. -/
  left : Nat
  /-- Whether items changed sides. -/
  moved : Bool

/-- Brings the places from `i` up to and with `j` into a left and a right part, by exchanges of the
outermost items on the wrong sides. There are at most `rounds` exchanges. -/
def splitBetween (isLeft : Array α → Nat → Bool) :
    (rounds : Nat) → (i j : Nat) → (moved : Bool) → Array α → Split α
  | 0, i, j, moved, a => ⟨a, i, j, moved⟩
  | rounds + 1, i, j, moved, a =>
    let i := firstRight (isLeft a) i j
    let j := lastLeft (isLeft a) i j
    if j < i then ⟨a, i, j, moved⟩
    else splitBetween isLeft rounds (i + 1) (j - 1) true (a.swapIfInBounds i j)

/-- Splits a stretch at a pivot, which ends between the items before it and the others. The answer
has the place of the pivot as its `left`. -/
def partition (before : α → α → Bool) (low high pivot : Nat) (a : Array α) : Split α :=
  let s := splitBetween (fun a i => isBefore before a i low) (high - low) (low + 1) (high - 1) false
    (a.swapIfInBounds low pivot)
  { s with items := s.items.swapIfInBounds s.left low }

/-- Splits a stretch without items before the pivot into the items equal to the pivot and the
others. -/
def partitionEqual (before : α → α → Bool) (low high pivot : Nat) (a : Array α) : Split α :=
  splitBetween (fun a i => !isBefore before a low i) (high - low) (low + 1) (high - 1) false
    (a.swapIfInBounds low pivot)

/-! ### The sort -/

/-- The length up to which a stretch is sorted by insertion. -/
def longestInsertion : Nat := 12

/-- The steps that are made to finish a run. -/
def finishingSteps : Nat := 5

/-- A stretch that is ready to be split. -/
structure Prepared (α : Type) where
  items : Array α
  /-- The place of the pivot. -/
  pivot : Nat
  /-- Whether the stretch turned out to be in order. -/
  finished : Bool

/-- Chooses a pivot for the places from `low` up to `high`. After a lopsided split a pattern is
broken first, a descending stretch is turned around, and one that looks sorted is finished. -/
def prepare (before : α → α → Bool) (balanced untouched : Bool) (low high : Nat) (a : Array α) :
    Prepared α :=
  let a := if balanced then a else scatter low high a
  let choice := choosePivot before low high a
  let turned := choice.2 = .descending
  let a := if turned then reverseBetween a low (high - 1) else a
  let pivot := if turned then high - 1 - (choice.1 - low) else choice.1
  if balanced && untouched && choice.2 ≠ .unclear then
    let run := finishRun before low high finishingSteps (low + 1) a
    ⟨run.1, pivot, run.2⟩
  else ⟨a, pivot, false⟩

/-- Sorts the places from `low` up to `high`. `limit` counts the lopsided splits that are allowed;
`balanced` and `untouched` tell whether the last split was even and moved nothing. Each call has a
shorter stretch, so its length is enough `fuel`. -/
def sortBetween (before : α → α → Bool) :
    (fuel limit : Nat) → (balanced untouched : Bool) → (low high : Nat) → Array α → Array α
  | 0, _, _, _, _, _, a => a
  | fuel + 1, limit, balanced, untouched, low, high, a =>
    let length := high - low
    if length ≤ longestInsertion then insertionSort before low high a
    else if limit = 0 then heapSort before low high a
    else
      let limit := if balanced then limit else limit - 1
      let p := prepare before balanced untouched low high a
      if p.finished then p.items
      else if 0 < low && !isBefore before p.items (low - 1) p.pivot then
        let s := partitionEqual before low high p.pivot p.items
        sortBetween before fuel limit balanced untouched s.right high s.items
      else
        let s := partition before low high p.pivot p.items
        let middle := s.left
        if middle - low < high - middle then
          sortBetween before fuel limit (length / 8 ≤ middle - low) (!s.moved) (middle + 1) high
            (sortBetween before fuel limit true true low middle s.items)
        else
          sortBetween before fuel limit (length / 8 ≤ high - middle) (!s.moved) low middle
            (sortBetween before fuel limit true true (middle + 1) high s.items)

/-- The order that the quicksort leaves behind. -/
def arrange (before : α → α → Bool) (xs : List α) : List α :=
  (sortBetween before (xs.length + 1) (xs.length.log2 + 1) true true 0 xs.length xs.toArray).toList

/-- The items in ascending order, equal ones as the quicksort leaves them. -/
def sort (before : α → α → Bool) (xs : List α) : List α :=
  (arrange before xs).mergeSort fun x y => !before y x

/-! ### The items stay the same -/

/-- An exchange keeps the items. -/
theorem swapIfInBounds_perm (a : Array α) (i j : Nat) : (a.swapIfInBounds i j).Perm a := by
  unfold Array.swapIfInBounds
  split
  · split
    · exact Array.swap_perm _ _
    · exact .refl a
  · exact .refl a

/-- Steps that keep the items keep them in a row. -/
theorem foldl_perm {β : Type} {f : Array α → β → Array α} (hf : ∀ a b, (f a b).Perm a) :
    ∀ (bs : List β) (a : Array α), (bs.foldl f a).Perm a
  | [], a => .refl a
  | b :: bs, a => (foldl_perm hf bs (f a b)).trans (hf a b)

/-- A step that may be left out keeps the items if it keeps them when it is made. -/
theorem ite_perm {c : Prop} [Decidable c] {a b : Array α} (h : b.Perm a) :
    (if c then b else a).Perm a := by
  split
  · exact h
  · exact .refl a

theorem sink_perm (before : α → α → Bool) (low : Nat) (a : Array α) (i : Nat) :
    (sink before low a i).Perm a := by
  fun_induction sink before low a i with
  | case1 => exact .refl _
  | case2 a i _ ih => exact ih.trans (swapIfInBounds_perm a _ _)
  | case3 => exact .refl _

theorem rise_perm (before : α → α → Bool) (high : Nat) (a : Array α) (i : Nat) :
    (rise before high a i).Perm a := by
  fun_induction rise before high a i with
  | case1 a i _ ih => exact ih.trans (swapIfInBounds_perm a _ _)
  | case2 => exact .refl _

theorem insertionSort_perm (before : α → α → Bool) (low high : Nat) (a : Array α) :
    (insertionSort before low high a).Perm a :=
  foldl_perm (sink_perm before low) _ a

theorem finishRun_perm (before : α → α → Bool) (low high : Nat) (steps i : Nat) (a : Array α) :
    (finishRun before low high steps i a).1.Perm a := by
  induction steps generalizing i a with
  | zero => exact .refl a
  | succ steps ih =>
    rw [finishRun]
    split
    · exact .refl a
    · split
      · exact .refl a
      · exact (ih _ _).trans <| (ite_perm (rise_perm ..)).trans <|
          (ite_perm (sink_perm ..)).trans (swapIfInBounds_perm ..)

theorem siftDown_perm (before : α → α → Bool) (first size : Nat) (a : Array α) (root : Nat) :
    (siftDown before first size a root).Perm a := by
  fun_induction siftDown before first size a root with
  | case1 a root _ _ _ _ ih => exact ih.trans (swapIfInBounds_perm a _ _)
  | case2 => exact .refl _
  | case3 => exact .refl _

theorem heapSort_perm (before : α → α → Bool) (low high : Nat) (a : Array α) :
    (heapSort before low high a).Perm a :=
  (foldl_perm (fun _ _ => (siftDown_perm ..).trans (swapIfInBounds_perm ..)) _ _).trans
    (foldl_perm (fun _ _ => siftDown_perm ..) _ a)

theorem reverseBetween_perm (a : Array α) (i j : Nat) : (reverseBetween a i j).Perm a := by
  fun_induction reverseBetween a i j with
  | case1 a i j _ ih => exact ih.trans (swapIfInBounds_perm a i j)
  | case2 => exact .refl _

theorem scatter_perm (low high : Nat) (a : Array α) : (scatter low high a).Perm a :=
  (swapIfInBounds_perm ..).trans ((swapIfInBounds_perm ..).trans (swapIfInBounds_perm ..))

theorem splitBetween_perm (isLeft : Array α → Nat → Bool) (rounds i j : Nat) (moved : Bool)
    (a : Array α) : (splitBetween isLeft rounds i j moved a).items.Perm a := by
  induction rounds generalizing i j moved a with
  | zero => exact .refl a
  | succ rounds ih =>
    rw [splitBetween]
    split
    · exact .refl a
    · exact (ih ..).trans (swapIfInBounds_perm a _ _)

theorem partition_perm (before : α → α → Bool) (low high pivot : Nat) (a : Array α) :
    (partition before low high pivot a).items.Perm a :=
  (swapIfInBounds_perm ..).trans ((splitBetween_perm ..).trans (swapIfInBounds_perm ..))

theorem partitionEqual_perm (before : α → α → Bool) (low high pivot : Nat) (a : Array α) :
    (partitionEqual before low high pivot a).items.Perm a :=
  (splitBetween_perm ..).trans (swapIfInBounds_perm ..)

theorem prepare_perm (before : α → α → Bool) (balanced untouched : Bool) (low high : Nat)
    (a : Array α) : (prepare before balanced untouched low high a).items.Perm a := by
  have scattered : (if balanced then a else scatter low high a).Perm a := by
    split
    · exact .refl a
    · exact scatter_perm low high a
  rw [prepare]
  dsimp only
  generalize (if balanced then a else scatter low high a) = b at scattered ⊢
  refine .trans ?_ scattered
  split
  · exact (finishRun_perm ..).trans (ite_perm (reverseBetween_perm ..))
  · exact ite_perm (reverseBetween_perm ..)

theorem sortBetween_perm (before : α → α → Bool) (fuel limit : Nat) (balanced untouched : Bool)
    (low high : Nat) (a : Array α) :
    (sortBetween before fuel limit balanced untouched low high a).Perm a := by
  induction fuel generalizing limit balanced untouched low high a with
  | zero => exact .refl a
  | succ fuel ih =>
    have ready := prepare_perm before balanced untouched low high a
    rw [sortBetween]
    dsimp only
    split
    · exact insertionSort_perm ..
    split
    · exact heapSort_perm ..
    split
    · exact ready
    split
    · exact (ih ..).trans ((partitionEqual_perm ..).trans ready)
    split
    · exact (ih ..).trans ((ih ..).trans ((partition_perm ..).trans ready))
    · exact (ih ..).trans ((ih ..).trans ((partition_perm ..).trans ready))

/-- The quicksort loses no item and adds none. -/
theorem arrange_perm (before : α → α → Bool) (xs : List α) : (arrange before xs).Perm xs :=
  (sortBetween_perm before _ _ true true 0 xs.length xs.toArray).toList

/-- Sorting loses no item and adds none. -/
theorem sort_perm (before : α → α → Bool) (xs : List α) : (sort before xs).Perm xs :=
  (List.mergeSort_perm _ _).trans (arrange_perm before xs)

/-- No item comes before an earlier one, for an order that is asymmetric and whose complement is
transitive. -/
theorem sort_pairwise (before : α → α → Bool) (xs : List α)
    (trans : ∀ a b c, before b a = false → before c b = false → before c a = false)
    (asymm : ∀ a b, before a b → before b a = false) :
    (sort before xs).Pairwise fun x y => before y x = false := by
  have h := @List.pairwise_mergeSort α (fun x y => !before y x)
    (fun a b c => by simpa using trans a b c)
    (fun a b => by
      cases h : before a b with
      | true => simp [asymm a b h]
      | false => simp)
    (arrange before xs)
  simpa [sort] using h

end Sorting

end ClassSharing
