import Mathlib
import ClusterApi.Lib.Trace

/-!
# Go's `sort.Sort`

The pattern-defeating quicksort of Go's `sort` package (`zsortinterface.go`), over a
`sort.Interface`: `Less(i, j)` reads the data as it stands, positions included, and `Swap(i, j)`
exchanges two elements. The data is a function from positions, so that a swap is composition
with `Equiv.swap`.

When `Less` compares a key into a linear order wherever the keys differ, and answers ties in
any way, positions included (`LessByKey`), `sortSort` rearranges the first `n` elements into
increasing keys (`sortSort_spec`).
-/

namespace ClusterApi.Lib.Pdqsort

variable {α : Type*}

/-- `data.Swap(i, j)`. -/
def swap (data : ℕ → α) (i j : ℕ) : ℕ → α :=
  fun k => data (Equiv.swap i j k)

def maxInsertion : ℕ := 12

def shortestNinther : ℕ := 50

def maxSwaps : ℕ := 4 * 3

def maxSteps : ℕ := 5

def shortestShifting : ℕ := 50

inductive sortedHint
  | unknownHint
  | increasingHint
  | decreasingHint
  deriving DecidableEq, Repr

def xorshiftNext (r : UInt64) : UInt64 :=
  let r := r ^^^ (r <<< 13)
  let r := r ^^^ (r >>> 7)
  r ^^^ (r <<< 17)

def nextPowerOfTwo (length : ℕ) : ℕ :=
  2 ^ Nat.size length

def scanUp (p : ℕ → Bool) (j i : ℕ) : ℕ :=
  if i ≤ j ∧ p i = true then scanUp p j (i + 1) else i
termination_by j + 1 - i

def scanDown (q : ℕ → Bool) (i : ℕ) : ℕ → ℕ
  | 0 => 0
  | j + 1 => if i ≤ j + 1 ∧ q (j + 1) = true then scanDown q i j else j + 1

theorem le_scanUp (p : ℕ → Bool) (j i : ℕ) : i ≤ scanUp p j i := by
  fun_induction scanUp p j i <;> omega

theorem scanDown_le (q : ℕ → Bool) (i j : ℕ) : scanDown q i j ≤ j := by
  induction j with
  | zero => simp [scanDown]
  | succ j ih =>
    unfold scanDown
    split_ifs <;> omega

def reverseLoop (data : ℕ → α) (i j : ℕ) : ℕ → α :=
  if i < j then reverseLoop (swap data i j) (i + 1) (j - 1) else data
termination_by j - i

def reverseRange (data : ℕ → α) (a b : ℕ) : ℕ → α :=
  reverseLoop data a (b - 1)

def breakPatterns (data : ℕ → α) (a b : ℕ) : ℕ → α :=
  let length := b - a
  if length ≥ 8 then
    let modulus := nextPowerOfTwo length
    let idx := a + (length / 4) * 2 - 1
    let step := fun (state : (ℕ → α) × UInt64) (i : ℕ) =>
      let random := xorshiftNext state.2
      let other := random.toNat &&& (modulus - 1)
      let other := if other ≥ length then other - length else other
      (swap state.1 (idx - 1 + i) (a + other), random)
    ((List.range 3).foldl step (data, length.toUInt64)).1
  else data

section Algorithm

variable (Less : (ℕ → α) → ℕ → ℕ → Bool)

/-! ### Insertion sort and heapsort -/

/-- `for ; j > lo && data.Less(j, j-1); j-- { data.Swap(j, j-1) }`: the inner loop of
`insertionSort`, and with `lo = 0` the left shift of `partialInsertionSort`. -/
def shiftLeft (lo : ℕ) (data : ℕ → α) : ℕ → ℕ → α
  | 0 => data
  | j + 1 =>
    if lo < j + 1 ∧ Less data (j + 1) j = true then shiftLeft lo (swap data (j + 1) j) j
    else data

def insertionSort (data : ℕ → α) (a b : ℕ) : ℕ → α :=
  (List.range' (a + 1) (b - (a + 1))).foldl (fun data i => shiftLeft Less a data i) data

def greaterChild (data : ℕ → α) (root hi first : ℕ) : ℕ :=
  let child := 2 * root + 1
  if child + 1 < hi ∧ Less data (first + child) (first + child + 1) = true then child + 1 else child

theorem greaterChild_gt (data : ℕ → α) (root hi first : ℕ) :
    root < greaterChild Less data root hi first := by
  unfold greaterChild
  dsimp only
  split_ifs <;> omega

def siftDown (data : ℕ → α) (root hi first : ℕ) : ℕ → α :=
  if 2 * root + 1 ≥ hi then data
  else
    let child := greaterChild Less data root hi first
    if Less data (first + root) (first + child) = false then data
    else siftDown (swap data (first + root) (first + child)) child hi first
termination_by hi - root
decreasing_by
  have := greaterChild_gt Less data root hi first
  have : greaterChild Less data root hi first ≤ 2 * root + 1 + 1 := by
    unfold greaterChild
    dsimp only
    split_ifs <;> omega
  omega

def heapify (data : ℕ → α) (hi first : ℕ) : ℕ → ℕ → α
  | 0 => data
  | i + 1 => heapify (siftDown Less data i hi first) hi first i

def popHeap (data : ℕ → α) (first : ℕ) : ℕ → ℕ → α
  | 0 => data
  | i + 1 => popHeap (siftDown Less (swap data first (first + i)) 0 i first) first i

def heapSort (data : ℕ → α) (a b : ℕ) : ℕ → α :=
  let first := a
  let hi := b - a
  popHeap Less (heapify Less data hi first ((hi - 1) / 2 + 1)) first hi

/-! ### Pivots -/

def order2 (data : ℕ → α) (a b swaps : ℕ) : ℕ × ℕ × ℕ :=
  if Less data b a = true then (b, a, swaps + 1) else (a, b, swaps)

def median (data : ℕ → α) (a b c swaps : ℕ) : ℕ × ℕ :=
  let (a, b, swaps) := order2 Less data a b swaps
  let (b, _, swaps) := order2 Less data b c swaps
  let (_, b, swaps) := order2 Less data a b swaps
  (b, swaps)

def medianAdjacent (data : ℕ → α) (a swaps : ℕ) : ℕ × ℕ :=
  median Less data (a - 1) a (a + 1) swaps

def choosePivot (data : ℕ → α) (a b : ℕ) : ℕ × sortedHint :=
  let l := b - a
  let i := a + l / 4 * 1
  let j := a + l / 4 * 2
  let k := a + l / 4 * 3
  let (j, swaps) :=
    if l ≥ 8 then
      let (i, j, k, swaps) :=
        if l ≥ shortestNinther then
          let (i, swaps) := medianAdjacent Less data i 0
          let (j, swaps) := medianAdjacent Less data j swaps
          let (k, swaps) := medianAdjacent Less data k swaps
          (i, j, k, swaps)
        else (i, j, k, 0)
      median Less data i j k swaps
    else (j, 0)
  if swaps = 0 then (j, .increasingHint)
  else if swaps = maxSwaps then (j, .decreasingHint)
  else (j, .unknownHint)

/-! ### Partial insertion sort -/

def skipSorted (data : ℕ → α) (b i : ℕ) : ℕ :=
  if i < b ∧ Less data i (i - 1) = false then skipSorted data b (i + 1) else i
termination_by b - i

def shiftRight (data : ℕ → α) (b j : ℕ) : ℕ → α :=
  if j < b ∧ Less data j (j - 1) = true then shiftRight (swap data j (j - 1)) b (j + 1) else data
termination_by b - j

def partialInsertionSortLoop (data : ℕ → α) (a b i : ℕ) : ℕ → (ℕ → α) × Bool
  | 0 => (data, false)
  | steps + 1 =>
    let i := skipSorted Less data b i
    if i = b then (data, true)
    else if b - a < shortestShifting then (data, false)
    else
      let data := swap data i (i - 1)
      -- shift the smaller one to the left, the greater one to the right
      let data := if i - a ≥ 2 then shiftLeft Less 0 data (i - 1) else data
      let data := if b - i ≥ 2 then shiftRight Less data b (i + 1) else data
      partialInsertionSortLoop data a b i steps

def partialInsertionSort (data : ℕ → α) (a b : ℕ) : (ℕ → α) × Bool :=
  partialInsertionSortLoop Less data a b (a + 1) maxSteps

end Algorithm

/-! ### Partitions -/

/-- The `for { ... }` loop of `partition` and `partitionEqual`: scan up while `p`, down while
not `p`, swap the two and go on. It gives the data and the final `i` and `j`. -/
def partitionLoop (p : (ℕ → α) → ℕ → Bool) (data : ℕ → α) (i j : ℕ) : (ℕ → α) × ℕ × ℕ :=
  let i' := scanUp (p data) j i
  let j' := scanDown (fun j => !p data j) i' j
  if i' > j' then (data, i', j')
  else partitionLoop p (swap data i' j') (i' + 1) (j' - 1)
termination_by j + 1 - i
decreasing_by
  show j' - 1 + 1 - (i' + 1) < j + 1 - i
  have : i ≤ i' := le_scanUp (p data) j i
  have : j' ≤ j := scanDown_le _ i' j
  omega

theorem scanUp_le (p : ℕ → Bool) (j i : ℕ) (h : i ≤ j + 1) : scanUp p j i ≤ j + 1 := by
  fun_induction scanUp p j i <;> omega

theorem le_scanDown_add_one (q : ℕ → Bool) (i j : ℕ) (h : i ≤ j + 1) :
    i ≤ scanDown q i j + 1 := by
  induction j with
  | zero =>
    simp only [scanDown]
    omega
  | succ j ih =>
    unfold scanDown
    split_ifs with hq
    · exact ih (by omega)
    · omega

theorem scanUp_stop (p : ℕ → Bool) {j i : ℕ} (h : scanUp p j i ≤ j) : p (scanUp p j i) = false := by
  fun_induction scanUp p j i with
  | case1 i hcont ih => exact ih h
  | case2 i hstop =>
    simp only [not_and, Bool.not_eq_true] at hstop
    exact hstop h

theorem scanDown_stop (q : ℕ → Bool) {i : ℕ} (hi : 0 < i) {j : ℕ} (h : i ≤ scanDown q i j) :
    q (scanDown q i j) = false := by
  induction j with
  | zero =>
    simp only [scanDown] at h
    omega
  | succ j ih =>
    unfold scanDown at h ⊢
    split_ifs at h ⊢ with hq
    · exact ih h
    · simp only [not_and, Bool.not_eq_true] at hq
      exact hq h

theorem scanUp_lt_scanDown (p : ℕ → Bool) {i j : ℕ} (hi : 0 < i)
    (hle : scanUp p j i ≤ scanDown (fun j => !p j) (scanUp p j i) j) :
    scanUp p j i < scanDown (fun j => !p j) (scanUp p j i) j := by
  refine lt_of_le_of_ne hle fun heq => ?_
  have hup := scanUp_stop p (hle.trans (scanDown_le _ _ _))
  have hdown := scanDown_stop (fun j => !p j) (hi.trans_le (le_scanUp p j i)) hle
  rw [← heq, hup] at hdown
  exact absurd hdown (by decide)

theorem partitionLoop_bounds (p : (ℕ → α) → ℕ → Bool) (data : ℕ → α) (i j : ℕ) (hi : 0 < i)
    (hij : i ≤ j + 1) :
    i ≤ (partitionLoop p data i j).2.1 ∧
      (partitionLoop p data i j).2.2 + 1 = (partitionLoop p data i j).2.1 ∧
      (partitionLoop p data i j).2.2 ≤ j := by
  fun_induction partitionLoop p data i j with
  | case1 data i j i' j' hgt =>
    have : i ≤ i' := le_scanUp (p data) j i
    have : i' ≤ j + 1 := scanUp_le (p data) j i hij
    have : i' ≤ j' + 1 := le_scanDown_add_one _ i' j this
    have : j' ≤ j := scanDown_le _ i' j
    simp only
    omega
  | case2 data i j i' j' hle ih =>
    have : i ≤ i' := le_scanUp (p data) j i
    have : j' ≤ j := scanDown_le _ i' j
    have : i' < j' := scanUp_lt_scanDown (p data) hi (not_lt.mp hle)
    clear_value i' j'
    have := ih (by omega) (by omega)
    omega

section Partition

variable (Less : (ℕ → α) → ℕ → ℕ → Bool)

def partition (data : ℕ → α) (a b pivot : ℕ) : (ℕ → α) × ℕ × Bool :=
  let data := swap data a pivot
  let i := scanUp (fun i => Less data i a) (b - 1) (a + 1)
  let j := scanDown (fun j => !Less data j a) i (b - 1)
  if i > j then (swap data j a, j, true)
  else
    let r := partitionLoop (fun data i => Less data i a) (swap data i j) (i + 1) (j - 1)
    (swap r.1 r.2.2 a, r.2.2, false)

def partitionEqual (data : ℕ → α) (a b pivot : ℕ) : (ℕ → α) × ℕ :=
  let data := swap data a pivot
  let r := partitionLoop (fun data i => !Less data a i) data (a + 1) (b - 1)
  (r.1, r.2.1)

theorem partition_mid (data : ℕ → α) {a b : ℕ} (pivot : ℕ) (hab : a < b) :
    a ≤ (partition Less data a b pivot).2.1 ∧ (partition Less data a b pivot).2.1 < b := by
  unfold partition
  generalize swap data a pivot = data
  dsimp only
  have hi₁ : a + 1 ≤ scanUp (fun i => Less data i a) (b - 1) (a + 1) := le_scanUp _ _ _
  have hi₂ := scanUp_le (fun i => Less data i a) (b - 1) (a + 1) (by omega)
  have hj₁ := le_scanDown_add_one (fun j => !Less data j a)
    (scanUp (fun i => Less data i a) (b - 1) (a + 1)) (b - 1) (by omega)
  have hj₂ := scanDown_le (fun j => !Less data j a) (scanUp (fun i => Less data i a) (b - 1) (a + 1)) (b - 1)
  split_ifs with hgt
  · dsimp only
    omega
  · have hlt := scanUp_lt_scanDown (fun i => Less data i a) (i := a + 1) (j := b - 1) (by omega) (not_lt.mp hgt)
    generalize scanUp (fun i => Less data i a) (b - 1) (a + 1) = i at *
    generalize scanDown (fun j => !Less data j a) i (b - 1) = j at *
    have := partitionLoop_bounds (fun data i => Less data i a) (swap data i j) (i + 1) (j - 1)
      (by omega) (by omega)
    dsimp only
    omega

theorem partition_sub_lt_left (data : ℕ → α) {a b : ℕ} (pivot : ℕ) (hab : a < b) :
    (partition Less data a b pivot).2.1 - a < b - a := by
  have := partition_mid Less data pivot hab
  omega

theorem partition_sub_lt_right (data : ℕ → α) {a b : ℕ} (pivot : ℕ) (hab : a < b) :
    b - ((partition Less data a b pivot).2.1 + 1) < b - a := by
  have := partition_mid Less data pivot hab
  omega

theorem lt_partitionEqual (data : ℕ → α) {a b : ℕ} (pivot : ℕ) (hab : a < b) :
    a < (partitionEqual Less data a b pivot).2 := by
  have := partitionLoop_bounds (fun data i => !Less data a i) (swap data a pivot) (a + 1) (b - 1)
    (by omega) (by omega)
  unfold partitionEqual
  dsimp only
  omega

theorem partitionEqual_sub_lt (data : ℕ → α) {a b : ℕ} (pivot : ℕ) (hab : a < b) :
    b - (partitionEqual Less data a b pivot).2 < b - a := by
  have := lt_partitionEqual Less data pivot hab
  omega

/-! ### `pdqsort` -/

def pdqsort (data : ℕ → α) (a b limit : ℕ) (wasBalanced wasPartitioned : Bool) : ℕ → α :=
  let length := b - a
  if length ≤ maxInsertion then insertionSort Less data a b
  -- too many bad choices were made
  else if limit = 0 then heapSort Less data a b
  else
    -- the last partitioning was imbalanced
    let data := if wasBalanced then data else breakPatterns data a b
    let limit := if wasBalanced then limit else limit - 1
    let (pivot, hint) := choosePivot Less data a b
    let data := if hint = .decreasingHint then reverseRange data a b else data
    let pivot := if hint = .decreasingHint then (b - 1) - (pivot - a) else pivot
    let hint := if hint = .decreasingHint then .increasingHint else hint
    -- the slice is likely already sorted
    let (data, sorted) :=
      if wasBalanced ∧ wasPartitioned ∧ hint = .increasingHint then
        partialInsertionSort Less data a b
      else (data, false)
    if sorted then data
    -- the slice likely holds many elements equal to the pivot
    else if a > 0 ∧ Less data (a - 1) pivot = false then
      let r := partitionEqual Less data a b pivot
      pdqsort r.1 r.2 b limit wasBalanced wasPartitioned
    else
      let r := partition Less data a b pivot
      let mid := r.2.1
      let leftLen := mid - a
      let rightLen := b - mid
      let balanceThreshold := length / 8
      if leftLen < rightLen then
        pdqsort (pdqsort r.1 a mid limit true true) (mid + 1) b limit
          (leftLen ≥ balanceThreshold) r.2.2
      else
        pdqsort (pdqsort r.1 (mid + 1) b limit true true) a mid limit
          (rightLen ≥ balanceThreshold) r.2.2
termination_by b - a
decreasing_by
  all_goals
    have hab : a < b := by
      have : ¬b - a ≤ maxInsertion := ‹_›
      unfold maxInsertion at this
      omega
    first
    | exact partitionEqual_sub_lt Less _ _ hab
    | exact partition_sub_lt_left Less _ _ hab
    | exact partition_sub_lt_right Less _ _ hab

/-- `sort.Sort(data)`, on data of length `n`. -/
def sortSort (data : ℕ → α) (n : ℕ) : ℕ → α :=
  if n ≤ 1 then data else pdqsort Less data 0 n (Nat.size n) true true

end Partition

/-- `sort.Reverse(data)`: its `Less(i, j)` is the data's `Less(j, i)`. -/
def Reverse (Less : (ℕ → α) → ℕ → ℕ → Bool) : (ℕ → α) → ℕ → ℕ → Bool :=
  fun data i j => Less data j i

/-! ## Rearrangements -/

@[simp] theorem swap_apply_left (data : ℕ → α) (i j : ℕ) : swap data i j i = data j := by
  simp [swap]

@[simp] theorem swap_apply_right (data : ℕ → α) (i j : ℕ) : swap data i j j = data i := by
  simp [swap]

theorem swap_apply_of_ne (data : ℕ → α) {i j k : ℕ} (hi : k ≠ i) (hj : k ≠ j) :
    swap data i j k = data k := by
  simp [swap, Equiv.swap_apply_of_ne_of_ne hi hj]

def Shuffles (lo hi : ℕ) (data data' : ℕ → α) : Prop :=
  ∃ σ : Equiv.Perm ℕ, (∀ k, k < lo ∨ hi ≤ k → σ k = k) ∧ ∀ k, data' k = data (σ k)

theorem mem_range_of_fixes {σ : Equiv.Perm ℕ} {lo hi : ℕ} (hσ : ∀ k, k < lo ∨ hi ≤ k → σ k = k)
    {k : ℕ} (hk : lo ≤ k ∧ k < hi) : lo ≤ σ k ∧ σ k < hi := by
  by_contra hout
  have hfix := hσ (σ k) (by omega)
  have := σ.injective hfix
  omega

theorem fixes_symm {σ : Equiv.Perm ℕ} {lo hi : ℕ} (hσ : ∀ k, k < lo ∨ hi ≤ k → σ k = k) :
    ∀ k, k < lo ∨ hi ≤ k → σ.symm k = k := by
  intro k hk
  rw [Equiv.symm_apply_eq]
  exact (hσ k hk).symm

namespace Shuffles

variable {lo hi : ℕ} {data data' data'' : ℕ → α}

@[refl] theorem refl (lo hi : ℕ) (data : ℕ → α) : Shuffles lo hi data data :=
  ⟨1, fun _ _ => rfl, fun _ => rfl⟩

theorem trans (h : Shuffles lo hi data data') (h' : Shuffles lo hi data' data'') :
    Shuffles lo hi data data'' := by
  obtain ⟨σ, hσ, hd⟩ := h
  obtain ⟨τ, hτ, hd'⟩ := h'
  refine ⟨τ.trans σ, fun k hk => ?_, fun k => ?_⟩
  · simp [hτ k hk, hσ k hk]
  · simp [hd', hd]

theorem swap {i j : ℕ} (hi' : lo ≤ i ∧ i < hi) (hj' : lo ≤ j ∧ j < hi) :
    Shuffles lo hi data (swap data i j) := by
  refine ⟨Equiv.swap i j, fun k hk => Equiv.swap_apply_of_ne_of_ne ?_ ?_, fun _ => rfl⟩ <;> omega

theorem mono {lo' hi' : ℕ} (h : Shuffles lo hi data data') (hlo : lo' ≤ lo) (hhi : hi ≤ hi') :
    Shuffles lo' hi' data data' := by
  obtain ⟨σ, hσ, hd⟩ := h
  exact ⟨σ, fun k hk => hσ k (by omega), hd⟩

theorem apply_of_not_mem (h : Shuffles lo hi data data') {k : ℕ} (hk : k < lo ∨ hi ≤ k) :
    data' k = data k := by
  obtain ⟨σ, hσ, hd⟩ := h
  rw [hd, hσ k hk]

theorem exists_eq (h : Shuffles lo hi data data') {k : ℕ} (hk : lo ≤ k ∧ k < hi) :
    ∃ k', (lo ≤ k' ∧ k' < hi) ∧ data' k = data k' := by
  obtain ⟨σ, hσ, hd⟩ := h
  exact ⟨σ k, mem_range_of_fixes hσ hk, hd k⟩

theorem map_perm {β : Type*} (h : Shuffles lo hi data data') (f : α → β) :
    ((List.range' lo (hi - lo)).map (f ∘ data')).Perm ((List.range' lo (hi - lo)).map (f ∘ data)) := by
  obtain ⟨σ, hσ, hd⟩ := h
  have hpos : ((List.range' lo (hi - lo)).map σ).Perm (List.range' lo (hi - lo)) := by
    refine (List.perm_ext_iff_of_nodup (List.Nodup.map σ.injective List.nodup_range')
      List.nodup_range').mpr
      fun k => ?_
    simp only [List.mem_map, List.mem_range']
    constructor
    · rintro ⟨k', ⟨i, hi, rfl⟩, rfl⟩
      have := mem_range_of_fixes hσ (k := lo + 1 * i) (by omega)
      exact ⟨σ (lo + 1 * i) - lo, by omega, by omega⟩
    · rintro ⟨i, hi, rfl⟩
      have := mem_range_of_fixes (fixes_symm hσ) (k := lo + 1 * i) (by omega)
      exact ⟨σ.symm (lo + 1 * i), ⟨σ.symm (lo + 1 * i) - lo, by omega, by omega⟩, by simp⟩
  have hcomp : (List.range' lo (hi - lo)).map (f ∘ data') =
      ((List.range' lo (hi - lo)).map σ).map (f ∘ data) := by
    rw [List.map_map]
    exact List.map_congr_left fun k _ => by simp [hd]
  rw [hcomp]
  exact hpos.map _

end Shuffles

/-! ## Sorting by a key -/

section Rearrangement

variable {β : Type*} (key : α → β)

/-- What sorting `[a, b)` may do: rearrange the positions below `b`, keeping the keys below `a`. -/
def Moves (a b : ℕ) (data data' : ℕ → α) : Prop :=
  Shuffles 0 b data data' ∧ ∀ k < a, key (data' k) = key (data k)

namespace Moves

variable {key} {a b : ℕ} {data data' data'' : ℕ → α}

@[refl] theorem refl (a b : ℕ) (data : ℕ → α) : Moves key a b data data :=
  ⟨Shuffles.refl 0 b data, fun _ _ => rfl⟩

theorem trans (h : Moves key a b data data') (h' : Moves key a b data' data'') :
    Moves key a b data data'' :=
  ⟨h.1.trans h'.1, fun k hk => (h'.2 k hk).trans (h.2 k hk)⟩

theorem of_shuffles (h : Shuffles a b data data') : Moves key a b data data' :=
  ⟨h.mono (Nat.zero_le a) le_rfl, fun k hk => by rw [h.apply_of_not_mem (.inl hk)]⟩

theorem mono {a' : ℕ} (h : Moves key a b data data') (ha : a' ≤ a) : Moves key a' b data data' :=
  ⟨h.1, fun k hk => h.2 k (by omega)⟩

theorem mono_right {b' : ℕ} (h : Moves key a b data data') (hb : b ≤ b') :
    Moves key a b' data data' :=
  ⟨h.1.mono le_rfl hb, h.2⟩

theorem swap_of_key_eq {i j : ℕ} (hi : i < b) (hj : j < b) (heq : key (data i) = key (data j)) :
    Moves key a b data (swap data i j) := by
  refine ⟨Shuffles.swap (by omega) (by omega), fun k _ => ?_⟩
  by_cases hki : k = i
  · subst hki
    rw [swap_apply_left, heq]
  by_cases hkj : k = j
  · subst hkj
    rw [swap_apply_right, heq]
  rw [swap_apply_of_ne data hki hkj]

theorem keys_perm (h : Moves key a b data data') (hab : a ≤ b) :
    ((List.range' a (b - a)).map (key ∘ data')).Perm ((List.range' a (b - a)).map (key ∘ data)) := by
  have hall := h.1.map_perm key
  have hsplit : List.range' 0 (b - 0) = List.range' 0 a ++ List.range' a (b - a) := by
    have happend := @List.range'_append 0 a (b - a) 1
    rw [Nat.zero_add, Nat.one_mul] at happend
    rw [happend]
    congr 1
    omega
  have hbelow : (List.range' 0 a).map (key ∘ data') = (List.range' 0 a).map (key ∘ data) :=
    List.map_congr_left fun k hk => h.2 k (by simp [List.mem_range'] at hk; omega)
  rw [hsplit, List.map_append, List.map_append, hbelow] at hall
  exact List.perm_append_left_iff _ |>.mp hall

theorem exists_key_eq (h : Moves key a b data data') {k : ℕ} (hk : a ≤ k ∧ k < b) :
    ∃ k', (a ≤ k' ∧ k' < b) ∧ key (data' k) = key (data k') := by
  have hmem : key (data' k) ∈ (List.range' a (b - a)).map (key ∘ data') :=
    List.mem_map.mpr ⟨k, List.mem_range'.mpr ⟨k - a, by omega, by omega⟩, rfl⟩
  obtain ⟨k', hk', heq⟩ := List.mem_map.mp ((h.keys_perm (by omega)).subset hmem)
  obtain ⟨i, hi, rfl⟩ := List.mem_range'.mp hk'
  exact ⟨a + 1 * i, by omega, heq.symm⟩

end Moves

end Rearrangement

section Key

variable {β : Type*} [LinearOrder β] (key : α → β)

/-- `Less` compares the keys of the elements wherever they differ; on equal keys it may answer
either way, and may read the positions. -/
structure LessByKey (Less : (ℕ → α) → ℕ → ℕ → Bool) : Prop where
  lt : ∀ data i j, key (data i) < key (data j) → Less data i j = true
  le : ∀ data i j, Less data i j = true → key (data i) ≤ key (data j)

def Bounded (a b : ℕ) (data : ℕ → α) : Prop :=
  ∀ i < a, ∀ j, a ≤ j → j < b → key (data i) ≤ key (data j)

def SortedOn (a b : ℕ) (data : ℕ → α) : Prop :=
  ∀ i j, a ≤ i → i ≤ j → j < b → key (data i) ≤ key (data j)

variable {key}

theorem LessByKey.le_of_false {Less : (ℕ → α) → ℕ → ℕ → Bool} (h : LessByKey key Less)
    {data : ℕ → α} {i j : ℕ} (hf : Less data i j = false) : key (data j) ≤ key (data i) :=
  not_lt.mp fun hlt => by simp [h.lt data i j hlt] at hf

theorem LessByKey.reverse {Less : (ℕ → α) → ℕ → ℕ → Bool} (h : LessByKey key Less) :
    LessByKey (fun x => OrderDual.toDual (key x)) (Reverse Less) where
  lt data i j hlt := h.lt data j i hlt
  le data i j hle := h.le data j i hle

namespace Moves

variable {a b : ℕ} {data data' data'' : ℕ → α}

theorem bounded (h : Moves key a b data data') (hb : Bounded key a b data) :
    Bounded key a b data' := by
  intro i hi j hj₁ hj₂
  obtain ⟨j', hj', heq⟩ := h.exists_key_eq ⟨hj₁, hj₂⟩
  rw [h.2 i hi, heq]
  exact hb i hi j' hj'.1 hj'.2

end Moves

theorem sortedOn_of_adjacent {a b : ℕ} {data : ℕ → α}
    (h : ∀ k, a < k → k < b → key (data (k - 1)) ≤ key (data k)) : SortedOn key a b data := by
  intro i j hi hij hj
  induction j, hij using Nat.le_induction with
  | base => exact le_rfl
  | succ j hij ih => exact (ih (by omega)).trans (by simpa using h (j + 1) (by omega) hj)

end Key

/-! ## Insertion sort -/

section Insertion

variable {β : Type*} [LinearOrder β] {key : α → β} {Less : (ℕ → α) → ℕ → ℕ → Bool}

structure ShiftInv (key : α → β) (a b m j : ℕ) (data : ℕ → α) : Prop where
  bounded : Bounded key a b data
  sorted : ∀ p q, a ≤ p → p ≤ q → q ≤ m → p ≠ j → q ≠ j → key (data p) ≤ key (data q)
  le_after : ∀ q, j < q → a ≤ q → q ≤ m → key (data j) ≤ key (data q)
  ge_before : j < a → ∀ p < j, key (data p) ≤ key (data j)

theorem ShiftInv.sortedOn {a b m j : ℕ} {data : ℕ → α} (h : ShiftInv key a b m j data)
    (hstop : a < j → key (data (j - 1)) ≤ key (data j)) : SortedOn key a (m + 1) data := by
  intro p q hp hpq hq
  by_cases hpj : p = j
  · subst hpj
    rcases Nat.eq_or_lt_of_le hpq with rfl | hlt
    · exact le_rfl
    · exact h.le_after q hlt (by omega) (by omega)
  by_cases hqj : q = j
  · subst hqj
    exact (h.sorted p (q - 1) hp (by omega) (by omega) hpj (by omega)).trans (hstop (by omega))
  exact h.sorted p q hp hpq (by omega) hpj hqj

theorem ShiftInv.step {a b m j : ℕ} {data : ℕ → α} (h : ShiftInv key a b m (j + 1) data)
    (hm : m < b) (hj : j + 1 ≤ m) (hless : key (data (j + 1)) ≤ key (data j)) :
    Moves key a b data (swap data (j + 1) j) ∧ ShiftInv key a b m j (swap data (j + 1) j) := by
  by_cases haj : a ≤ j
  · -- a swap inside the range
    have hmoves : Moves key a b data (swap data (j + 1) j) :=
      .of_shuffles (Shuffles.swap (by omega) (by omega))
    refine ⟨hmoves, ⟨hmoves.bounded h.bounded, fun p q hp hpq hq hpj hqj => ?_, fun q hq hqa hqm => ?_,
      fun hja => absurd hja (by omega)⟩⟩
    · by_cases hp1 : p = j + 1
      · subst hp1
        rcases Nat.eq_or_lt_of_le hpq with rfl | hlt
        · exact le_rfl
        rw [swap_apply_left, swap_apply_of_ne data (show q ≠ j + 1 by omega) hqj]
        exact h.sorted j q haj (by omega) hq (by omega) (by omega)
      by_cases hq1 : q = j + 1
      · subst hq1
        rw [swap_apply_left, swap_apply_of_ne data (show p ≠ j + 1 by omega) hpj]
        exact h.sorted p j hp (by omega) (by omega) (by omega) (by omega)
      rw [swap_apply_of_ne data hp1 hpj, swap_apply_of_ne data hq1 hqj]
      exact h.sorted p q hp hpq hq hp1 hq1
    · rw [swap_apply_right]
      by_cases hq1 : q = j + 1
      · subst hq1
        rw [swap_apply_left]
        exact hless
      rw [swap_apply_of_ne data hq1 (by omega)]
      exact h.le_after q (by omega) hqa hqm
  · -- below `a` the moving element meets an element of its own key
    have hge : key (data j) ≤ key (data (j + 1)) := by
      by_cases hja : j + 1 < a
      · exact h.ge_before hja j (by omega)
      · exact h.bounded j (by omega) (j + 1) (by omega) (by omega)
    have heq : key (data (j + 1)) = key (data j) := le_antisymm hless hge
    have hmoves : Moves key a b data (swap data (j + 1) j) :=
      .swap_of_key_eq (by omega) (by omega) heq
    have hkey : ∀ k, key (swap data (j + 1) j k) = key (data k) := fun k => by
      by_cases hk1 : k = j + 1
      · subst hk1
        rw [swap_apply_left, heq]
      by_cases hk : k = j
      · subst hk
        rw [swap_apply_right, heq]
      rw [swap_apply_of_ne data hk1 hk]
    refine ⟨hmoves, ⟨hmoves.bounded h.bounded, fun p q hp hpq hq _ _ => ?_, fun q hq hqa hqm => ?_,
      fun _ p hp => ?_⟩⟩
    · rw [hkey, hkey]
      by_cases hp1 : p = j + 1
      · subst hp1
        rcases Nat.eq_or_lt_of_le hpq with rfl | hlt
        · exact le_rfl
        · exact h.le_after q hlt (by omega) hq
      exact h.sorted p q hp hpq hq hp1 (by omega)
    · rw [hkey, hkey, ← heq]
      rcases Nat.eq_or_lt_of_le (show j + 1 ≤ q by omega) with rfl | hlt
      · exact le_rfl
      · exact h.le_after q hlt hqa hqm
    · rw [hkey, hkey, ← heq]
      by_cases hja : j + 1 < a
      · exact h.ge_before hja p (by omega)
      · exact h.bounded p (by omega) (j + 1) (by omega) (by omega)

variable (hLess : LessByKey key Less)
include hLess

theorem shiftLeft_spec {lo a b m : ℕ} (hlo : lo ≤ a) (hm : m < b) :
    ∀ (j : ℕ) (data : ℕ → α), j ≤ m → ShiftInv key a b m j data →
      Moves key a b data (shiftLeft Less lo data j) ∧
        SortedOn key a (m + 1) (shiftLeft Less lo data j) := by
  intro j
  induction j with
  | zero =>
    intro data _ h
    exact ⟨.refl a b data, h.sortedOn fun h0 => absurd h0 (by omega)⟩
  | succ j ih =>
    intro data hj h
    unfold shiftLeft
    split_ifs with hcont
    · -- `Less(j+1, j)`: the moving element goes one to the left
      obtain ⟨hmoves, hinv⟩ := h.step hm hj (hLess.le data (j + 1) j hcont.2)
      obtain ⟨hmoves', hsorted⟩ := ih _ (by omega) hinv
      exact ⟨hmoves.trans hmoves', hsorted⟩
    · refine ⟨.refl a b data, h.sortedOn fun haj => ?_⟩
      simp only [not_and, Bool.not_eq_true] at hcont
      exact hLess.le_of_false (hcont (by omega))

theorem shiftLeft_insert {a b i : ℕ} {data : ℕ → α} (hai : a ≤ i) (hib : i < b)
    (hb : Bounded key a b data) (hs : SortedOn key a i data) :
    Moves key a b data (shiftLeft Less a data i) ∧ SortedOn key a (i + 1) (shiftLeft Less a data i) :=
  shiftLeft_spec hLess le_rfl hib i data le_rfl
    ⟨hb, fun p q hp hpq hq _ hqi => hs p q hp hpq (by omega), fun q hq _ hqi => absurd hq (by omega),
      fun hia => absurd hia (by omega)⟩

theorem foldl_shiftLeft {a b : ℕ} (n : ℕ) :
    ∀ (k : ℕ) (data : ℕ → α), a ≤ k → k + n ≤ b → Bounded key a b data → SortedOn key a k data →
      Moves key a b data ((List.range' k n).foldl (fun data i => shiftLeft Less a data i) data) ∧
        SortedOn key a (k + n)
          ((List.range' k n).foldl (fun data i => shiftLeft Less a data i) data) := by
  induction n with
  | zero => exact fun k data _ _ _ hs => ⟨.refl a b data, hs⟩
  | succ n ih =>
    intro k data hak hkn hb hs
    rw [List.range'_succ, List.foldl_cons]
    obtain ⟨hmoves, hsorted⟩ := shiftLeft_insert hLess hak (by omega) hb hs
    obtain ⟨hmoves', hsorted'⟩ := ih (k + 1) _ (by omega) (by omega) (hmoves.bounded hb) hsorted
    exact ⟨hmoves.trans hmoves', by rwa [show k + (n + 1) = k + 1 + n by omega]⟩

theorem insertionSort_spec {a b : ℕ} {data : ℕ → α} (hb : Bounded key a b data) :
    Moves key a b data (insertionSort Less data a b) ∧
      SortedOn key a b (insertionSort Less data a b) := by
  unfold insertionSort
  by_cases hab : a < b
  · have h := foldl_shiftLeft hLess (b - (a + 1)) (a + 1) data (by omega) (by omega) hb
      (fun p q hp hpq hq => by rw [show q = p by omega])
    rwa [show a + 1 + (b - (a + 1)) = b by omega] at h
  · rw [show b - (a + 1) = 0 by omega, List.range'_zero, List.foldl_nil]
    exact ⟨.refl a b data, fun p q hp hpq hq => absurd hq (by omega)⟩

end Insertion

/-! ## Heapsort -/

section Heap

variable {β : Type*} [LinearOrder β] {key : α → β} {Less : (ℕ → α) → ℕ → ℕ → Bool}

def HeapOn (key : α → β) (first lo hi : ℕ) (data : ℕ → α) : Prop :=
  ∀ c, 0 < c → c < hi → lo ≤ (c - 1) / 2 →
    key (data (first + c)) ≤ key (data (first + (c - 1) / 2))

structure SiftInv (key : α → β) (first lo hi root : ℕ) (data : ℕ → α) : Prop where
  except : ∀ c, 0 < c → c < hi → lo ≤ (c - 1) / 2 → (c - 1) / 2 ≠ root →
    key (data (first + c)) ≤ key (data (first + (c - 1) / 2))
  grand : lo < root → ∀ c, 0 < c → c < hi → (c - 1) / 2 = root →
    key (data (first + c)) ≤ key (data (first + (root - 1) / 2))

variable {first lo hi root : ℕ} {data : ℕ → α}

theorem SiftInv.heapOn (h : SiftInv key first lo hi root data)
    (hchildren : ∀ c, 0 < c → c < hi → (c - 1) / 2 = root →
      key (data (first + c)) ≤ key (data (first + root))) :
    HeapOn key first lo hi data := by
  intro c hc hchi hlo'
  by_cases hroot : (c - 1) / 2 = root
  · rw [hroot]
    exact hchildren c hc hchi hroot
  · exact h.except c hc hchi hlo' hroot

theorem SiftInv.step (h : SiftInv key first lo hi root data) (hlo : lo ≤ root) {child : ℕ}
    (hchild : child = 2 * root + 1 ∨ child = 2 * root + 2) (hchi : child < hi)
    (hmax : ∀ c, 0 < c → c < hi → (c - 1) / 2 = root →
      key (data (first + c)) ≤ key (data (first + child)))
    (hle : key (data (first + root)) ≤ key (data (first + child))) :
    SiftInv key first lo hi child (swap data (first + root) (first + child)) := by
  have hparent : (child - 1) / 2 = root := by omega
  constructor
  · intro c hc hchi' hlo' hne
    by_cases hcc : c = child
    · -- the old root, now below the child it was swapped with
      subst hcc
      rw [hparent, swap_apply_left, swap_apply_right]
      exact hle
    by_cases hsib : (c - 1) / 2 = root
    · -- a sibling of `child`, at most the greater child
      rw [hsib, swap_apply_left, swap_apply_of_ne data (by omega) (by omega)]
      exact hmax c hc hchi' hsib
    by_cases hcr : c = root
    · -- the root itself, whose new element was below its parent
      subst hcr
      rw [swap_apply_left, swap_apply_of_ne data (by omega) (by omega)]
      exact h.grand (by omega) child (by omega) hchi hparent
    rw [swap_apply_of_ne data (by omega) (by omega), swap_apply_of_ne data (by omega) (by omega)]
    exact h.except c hc hchi' hlo' hsib
  · intro _ c hc hchi' hc'
    rw [hparent, swap_apply_left, swap_apply_of_ne data (by omega) (by omega)]
    exact h.except c hc hchi' (by omega) (by omega) |>.trans_eq (by rw [hc'])

variable (hLess : LessByKey key Less)
include hLess

theorem greaterChild_spec (data : ℕ → α) (hnode : 2 * root + 1 < hi) :
    (greaterChild Less data root hi first = 2 * root + 1 ∨
        greaterChild Less data root hi first = 2 * root + 2) ∧
      greaterChild Less data root hi first < hi ∧
      ∀ c, 0 < c → c < hi → (c - 1) / 2 = root →
        key (data (first + c)) ≤ key (data (first + greaterChild Less data root hi first)) := by
  have hchildren : ∀ c, 0 < c → (c - 1) / 2 = root → c = 2 * root + 1 ∨ c = 2 * root + 2 := by
    intro c hc hroot
    omega
  unfold greaterChild
  dsimp only
  split_ifs with hright
  · refine ⟨.inr rfl, hright.1, fun c hc hchi hroot => ?_⟩
    rcases hchildren c hc hroot with rfl | rfl
    · simpa [Nat.add_assoc] using hLess.le data _ _ hright.2
    · exact le_rfl
  · refine ⟨.inl rfl, hnode, fun c hc hchi hroot => ?_⟩
    rcases hchildren c hc hroot with rfl | rfl
    · exact le_rfl
    · simp only [not_and, Bool.not_eq_true] at hright
      simpa [Nat.add_assoc] using hLess.le_of_false (hright (by omega))

theorem siftDown_spec : ∀ (data : ℕ → α) (root : ℕ), lo ≤ root → SiftInv key first lo hi root data →
    Shuffles first (first + hi) data (siftDown Less data root hi first) ∧
      HeapOn key first lo hi (siftDown Less data root hi first) := by
  intro data root
  fun_induction siftDown Less data root hi first with
  | case1 data root hleaf =>
    refine fun hlo h => ⟨.refl _ _ data, h.heapOn fun c hc hchi hroot => ?_⟩
    omega
  | case2 data root hnode child hstop =>
    refine fun hlo h => ⟨.refl _ _ data, h.heapOn fun c hc hchi hroot => ?_⟩
    obtain ⟨-, -, hmax⟩ := greaterChild_spec hLess data (not_le.mp hnode)
    exact (hmax c hc hchi hroot).trans (hLess.le_of_false hstop)
  | case3 data root hnode child hgo ih =>
    intro hlo h
    obtain ⟨hchild, hchi, hmax⟩ := greaterChild_spec hLess data (not_le.mp hnode)
    have hle := hLess.le data _ _ (by simpa using hgo)
    obtain ⟨hshuffle, hheap⟩ := ih (by omega) (h.step hlo hchild hchi hmax hle)
    exact ⟨(Shuffles.swap (by omega) (by omega)).trans hshuffle, hheap⟩

theorem heapify_spec : ∀ (k : ℕ) (data : ℕ → α), HeapOn key first k hi data →
    Shuffles first (first + hi) data (heapify Less data hi first k) ∧
      HeapOn key first 0 hi (heapify Less data hi first k) := by
  intro k
  induction k with
  | zero => exact fun data h => ⟨.refl _ _ data, h⟩
  | succ i ih =>
    intro data h
    obtain ⟨hshuffle, hheap⟩ := siftDown_spec hLess data i le_rfl
      ⟨fun c hc hchi hlo hne => h c hc hchi (by omega), fun hlt => absurd hlt (lt_irrefl i)⟩
    obtain ⟨hshuffle', hheap'⟩ := ih _ hheap
    exact ⟨hshuffle.trans hshuffle', hheap'⟩

omit hLess in
theorem HeapOn.le_top {m : ℕ} (h : HeapOn key first 0 m data) :
    ∀ c < m, key (data (first + c)) ≤ key (data first) := by
  intro c
  induction c using Nat.strong_induction_on with
  | _ c ih =>
    intro hc
    rcases Nat.eq_zero_or_pos c with rfl | hpos
    · rw [Nat.add_zero]
    · exact (h c hpos hc (Nat.zero_le _)).trans (ih _ (by omega) (by omega))

theorem popHeap_spec : ∀ (k : ℕ) (data : ℕ → α), k ≤ hi → HeapOn key first 0 k data →
    SortedOn key (first + k) (first + hi) data →
    (∀ p < k, ∀ q, k ≤ q → q < hi → key (data (first + p)) ≤ key (data (first + q))) →
    Shuffles first (first + hi) data (popHeap Less data first k) ∧
      SortedOn key first (first + hi) (popHeap Less data first k) := by
  intro k
  induction k with
  | zero => exact fun data _ _ hs _ => ⟨.refl _ _ data, by simpa [popHeap] using hs⟩
  | succ i ih =>
    intro data hk hheap hs hbelow
    simp only [popHeap]
    have hswap : Shuffles first (first + hi) data (swap data first (first + i)) :=
      Shuffles.swap (by omega) (by omega)
    -- the top goes to `i`, and the sift restores the heap `[0, i)`
    have hsift : SiftInv key first 0 i 0 (swap data first (first + i)) := by
      refine ⟨fun c hc hci _ hne => ?_, fun h0 => absurd h0 (lt_irrefl 0)⟩
      rw [swap_apply_of_ne data (by omega) (by omega), swap_apply_of_ne data (by omega) (by omega)]
      exact hheap c hc (by omega) (Nat.zero_le _)
    obtain ⟨hshuffle, hheap'⟩ := siftDown_spec hLess _ 0 le_rfl hsift
    set data' := siftDown Less (swap data first (first + i)) 0 i first
    have hat : data' (first + i) = data first := by
      rw [hshuffle.apply_of_not_mem (.inr le_rfl), swap_apply_right]
    have hafter : ∀ q, first + i < q → data' q = data q := by
      intro q hq
      rw [hshuffle.apply_of_not_mem (.inr (by omega)), swap_apply_of_ne data (by omega) (by omega)]
    have htop_le : ∀ q, first + i < q → q < first + hi → key (data first) ≤ key (data q) := by
      intro q hq hq'
      have := hbelow 0 (by omega) (q - first) (by omega) (by omega)
      rwa [Nat.add_zero, show first + (q - first) = q by omega] at this
    have hsorted' : SortedOn key (first + i) (first + hi) data' := by
      intro p q hp hpq hq
      rcases Nat.eq_or_lt_of_le hp with rfl | hlt
      · rcases Nat.eq_or_lt_of_le hpq with rfl | hlt'
        · exact le_rfl
        · rw [hat, hafter q hlt']
          exact htop_le q hlt' hq
      · rw [hafter p hlt, hafter q (by omega)]
        exact hs p q (by omega) hpq hq
    have hbelow' : ∀ p < i, ∀ q, i ≤ q → q < hi →
        key (data' (first + p)) ≤ key (data' (first + q)) := by
      intro p hp q hiq hq
      obtain ⟨p', hp', hpeq⟩ := hshuffle.exists_eq (k := first + p) (by omega)
      have hp'le : key (swap data first (first + i) p') ≤ key (data first) := by
        by_cases hp0 : p' = first
        · rw [hp0, swap_apply_left]
          exact hheap.le_top i (by omega)
        · rw [swap_apply_of_ne data hp0 (by omega)]
          have := hheap.le_top (p' - first) (by omega)
          rwa [show first + (p' - first) = p' by omega] at this
      have hq'ge : key (data first) ≤ key (data' (first + q)) := by
        rcases Nat.eq_or_lt_of_le hiq with rfl | hlt
        · rw [hat]
        · rw [hafter _ (by omega)]
          exact htop_le _ (by omega) (by omega)
      rw [hpeq]
      exact hp'le.trans hq'ge
    obtain ⟨hshuffle', hsorted⟩ := ih data' (by omega) hheap' hsorted' hbelow'
    exact ⟨(hswap.trans (hshuffle.mono le_rfl (by omega))).trans hshuffle', hsorted⟩

theorem heapSort_spec {a b : ℕ} (hab : a ≤ b) (data : ℕ → α) :
    Shuffles a b data (heapSort Less data a b) ∧ SortedOn key a b (heapSort Less data a b) := by
  unfold heapSort
  dsimp only
  obtain ⟨hshuffle, hheap⟩ := heapify_spec hLess ((b - a - 1) / 2 + 1) data
    (show HeapOn key a ((b - a - 1) / 2 + 1) (b - a) data from
      fun c hc hchi hlo => absurd hlo (by omega))
  obtain ⟨hshuffle', hsorted⟩ := popHeap_spec hLess (b - a) _ le_rfl hheap
    (fun p q hp hpq hq => absurd hq (by omega)) (fun p hp q hq hq' => absurd hq' (by omega))
  rw [show a + (b - a) = b by omega] at hshuffle hshuffle' hsorted
  exact ⟨hshuffle.trans hshuffle', hsorted⟩

end Heap

/-! ## Partitions -/

theorem scanUp_mem (p : ℕ → Bool) (j i : ℕ) : ∀ k, i ≤ k → k < scanUp p j i → p k = true := by
  fun_induction scanUp p j i with
  | case1 i hcont ih =>
    intro k hk hk'
    rcases Nat.eq_or_lt_of_le hk with rfl | hlt
    · exact hcont.2
    · exact ih k hlt hk'
  | case2 i _ =>
    intro k hk hk'
    omega

theorem scanDown_mem (q : ℕ → Bool) (i j : ℕ) : ∀ k, scanDown q i j < k → k ≤ j → q k = true := by
  induction j with
  | zero =>
    intro k hk hk'
    simp only [scanDown] at hk
    omega
  | succ j ih =>
    intro k hk hk'
    unfold scanDown at hk
    split_ifs at hk with hcont
    · rcases Nat.eq_or_lt_of_le hk' with rfl | hlt
      · exact hcont.2
      · exact ih k hk (by omega)
    · omega

section PartitionSpec

variable {β : Type*} [LinearOrder β] {key : α → β}

def Splits (key : α → β) (p : (ℕ → α) → ℕ → Bool) (a : ℕ) : Prop :=
  ∀ data k, (p data k = true → key (data k) ≤ key (data a)) ∧
    (p data k = false → key (data a) ≤ key (data k))

def PartitionedAt (key : α → β) (a b i j : ℕ) (data : ℕ → α) : Prop :=
  (∀ k, a < k → k < i → key (data k) ≤ key (data a)) ∧
    (∀ k, j < k → k < b → key (data a) ≤ key (data k))

variable {p : (ℕ → α) → ℕ → Bool} {a b : ℕ}

theorem PartitionedAt.scan (hp : Splits key p a) {i j : ℕ} {data : ℕ → α}
    (h : PartitionedAt key a b i j data) :
    PartitionedAt key a b (scanUp (p data) j i)
      (scanDown (fun k => !p data k) (scanUp (p data) j i) j) data := by
  refine ⟨fun k hak hk => ?_, fun k hk hkb => ?_⟩
  · by_cases hki : k < i
    · exact h.1 k hak hki
    · exact (hp data k).1 (scanUp_mem (p data) j i k (by omega) hk)
  · by_cases hkj : j < k
    · exact h.2 k hkj hkb
    · have := scanDown_mem _ _ j k hk (by omega)
      simp only [Bool.not_eq_eq_eq_not, Bool.not_true] at this
      exact (hp data k).2 this

theorem partitionLoop_spec (hp : Splits key p a) :
    ∀ (data : ℕ → α) (i j : ℕ), a < i → j < b → i ≤ j + 1 → PartitionedAt key a b i j data →
      Shuffles (a + 1) b data (partitionLoop p data i j).1 ∧
        PartitionedAt key a b (partitionLoop p data i j).2.1 (partitionLoop p data i j).2.2
          (partitionLoop p data i j).1 := by
  intro data i j
  fun_induction partitionLoop p data i j with
  | case1 data i j i' j' hgt =>
    exact fun _ _ _ h => ⟨.refl _ _ data, h.scan hp⟩
  | case2 data i j i' j' hle ih =>
    intro hai hjb hij h
    have hscan : PartitionedAt key a b i' j' data := h.scan hp
    have hii' : i ≤ i' := le_scanUp (p data) j i
    have hj'j : j' ≤ j := scanDown_le _ i' j
    have hlt : i' < j' := scanUp_lt_scanDown (p data) (by omega) (not_lt.mp hle)
    have hup : p data i' = false := scanUp_stop (p data) (by omega)
    have hdown : p data j' = true := by
      simpa using scanDown_stop (fun k => !p data k) (by omega) (not_lt.mp hle)
    clear_value i' j'
    have hswap : PartitionedAt key a b (i' + 1) (j' - 1) (swap data i' j') := by
      have ha : swap data i' j' a = data a := swap_apply_of_ne data (by omega) (by omega)
      refine ⟨fun k hak hk => ?_, fun k hk hkb => ?_⟩
      · rw [ha]
        rcases Nat.eq_or_lt_of_le (Nat.le_of_lt_succ hk) with rfl | hlt'
        · rw [swap_apply_left]
          exact (hp data j').1 hdown
        · rw [swap_apply_of_ne data (show k ≠ i' by omega) (show k ≠ j' by omega)]
          exact hscan.1 k hak hlt'
      · rw [ha]
        rcases Nat.eq_or_lt_of_le (show j' ≤ k by omega) with rfl | hlt'
        · rw [swap_apply_right]
          exact (hp data i').2 hup
        · rw [swap_apply_of_ne data (show k ≠ i' by omega) (show k ≠ j' by omega)]
          exact hscan.2 k hlt' hkb
    obtain ⟨hshuffle, hpart⟩ := ih (by omega) (by omega) (by omega) hswap
    exact ⟨(Shuffles.swap (by omega) (by omega)).trans hshuffle, hpart⟩

variable {Less : (ℕ → α) → ℕ → ℕ → Bool}

theorem partition_eq (data : ℕ → α) (a b pivot : ℕ) :
    (partition Less data a b pivot).1 =
        swap (partitionLoop (fun data i => Less data i a) (swap data a pivot) (a + 1) (b - 1)).1
          (partitionLoop (fun data i => Less data i a) (swap data a pivot) (a + 1) (b - 1)).2.2 a ∧
      (partition Less data a b pivot).2.1 =
        (partitionLoop (fun data i => Less data i a) (swap data a pivot) (a + 1) (b - 1)).2.2 := by
  unfold partition
  rw [partitionLoop]
  dsimp only
  split_ifs <;> exact ⟨rfl, rfl⟩

theorem PartitionedAt.swap_pivot {i j : ℕ} {data : ℕ → α} (h : PartitionedAt key a b i j data)
    (hij : j + 1 = i) (haj : a ≤ j) :
    (∀ k, a ≤ k → k < j → key (swap data j a k) ≤ key (swap data j a j)) ∧
      (∀ k, j < k → k < b → key (swap data j a j) ≤ key (swap data j a k)) := by
  rw [swap_apply_left]
  refine ⟨fun k hak hkj => ?_, fun k hjk hkb => ?_⟩
  · rcases Nat.eq_or_lt_of_le hak with rfl | hlt
    · rw [swap_apply_right]
      exact h.1 j (by omega) (by omega)
    · rw [swap_apply_of_ne data (by omega) (by omega)]
      exact h.1 k hlt (by omega)
  · rw [swap_apply_of_ne data (by omega) (by omega)]
    exact h.2 k hjk hkb

variable (hLess : LessByKey key Less)
include hLess

theorem splits_partition (a : ℕ) : Splits key (fun data i => Less data i a) a :=
  fun data k => ⟨hLess.le data k a, hLess.le_of_false⟩

theorem splits_partitionEqual (a : ℕ) : Splits key (fun data i => !Less data a i) a := by
  intro data k
  constructor
  · intro h
    exact hLess.le_of_false (by simpa using h)
  · intro h
    exact hLess.le data a k (by simpa using h)

theorem partition_spec (hab : a < b) {pivot : ℕ} (hpivot : a ≤ pivot ∧ pivot < b)
    (data : ℕ → α) :
    Shuffles a b data (partition Less data a b pivot).1 ∧
      (a ≤ (partition Less data a b pivot).2.1 ∧ (partition Less data a b pivot).2.1 < b) ∧
      (∀ k, a ≤ k → k < (partition Less data a b pivot).2.1 →
        key ((partition Less data a b pivot).1 k) ≤
          key ((partition Less data a b pivot).1 (partition Less data a b pivot).2.1)) ∧
      (∀ k, (partition Less data a b pivot).2.1 < k → k < b →
        key ((partition Less data a b pivot).1 (partition Less data a b pivot).2.1) ≤
          key ((partition Less data a b pivot).1 k)) := by
  obtain ⟨hdata, hmid⟩ := @partition_eq _ Less data a b pivot
  rw [hdata, hmid]
  have hbounds := partitionLoop_bounds (fun data i => Less data i a) (swap data a pivot)
    (a + 1) (b - 1) (by omega) (by omega)
  obtain ⟨hshuffle, hpart⟩ := partitionLoop_spec (b := b) (splits_partition hLess a) (swap data a pivot)
    (a + 1) (b - 1) (by omega) (by omega) (by omega)
    ⟨fun k hk hk' => absurd hk' (by omega), fun k hk hk' => absurd hk' (by omega)⟩
  generalize partitionLoop (fun data i => Less data i a) (swap data a pivot) (a + 1) (b - 1) = r
    at hbounds hshuffle hpart
  obtain ⟨hleft, hright⟩ := hpart.swap_pivot hbounds.2.1 (by omega)
  have hswap : Shuffles a b data (swap data a pivot) := Shuffles.swap (by omega) hpivot
  have hswap' : Shuffles a b r.1 (swap r.1 r.2.2 a) := Shuffles.swap (by omega) (by omega)
  exact ⟨(hswap.trans (hshuffle.mono (by omega) le_rfl)).trans hswap', by omega, hleft, hright⟩

theorem partitionEqual_spec (hab : a < b) {pivot : ℕ} (hpivot : a ≤ pivot ∧ pivot < b)
    (data : ℕ → α) :
    Shuffles a b data (partitionEqual Less data a b pivot).1 ∧
      (a < (partitionEqual Less data a b pivot).2 ∧ (partitionEqual Less data a b pivot).2 ≤ b) ∧
      ∀ k, a ≤ k → k < (partitionEqual Less data a b pivot).2 →
        key ((partitionEqual Less data a b pivot).1 k) ≤ key (data pivot) := by
  have hbounds := partitionLoop_bounds (fun data i => !Less data a i) (swap data a pivot)
    (a + 1) (b - 1) (by omega) (by omega)
  obtain ⟨hshuffle, hpart⟩ := partitionLoop_spec (b := b) (splits_partitionEqual hLess a)
    (swap data a pivot) (a + 1) (b - 1) (by omega) (by omega) (by omega)
    ⟨fun k hk hk' => absurd hk' (by omega), fun k hk hk' => absurd hk' (by omega)⟩
  unfold partitionEqual
  dsimp only
  generalize partitionLoop (fun data i => !Less data a i) (swap data a pivot) (a + 1) (b - 1) = r
    at hbounds hshuffle hpart
  have hpivot' : r.1 a = data pivot := by
    rw [hshuffle.apply_of_not_mem (.inl (by omega)), swap_apply_left]
  have hswap : Shuffles a b data (swap data a pivot) := Shuffles.swap (by omega) hpivot
  refine ⟨hswap.trans (hshuffle.mono (by omega) le_rfl), by omega, fun k hak hk => ?_⟩
  rcases Nat.eq_or_lt_of_le hak with rfl | hlt
  · rw [hpivot']
  · rw [← hpivot']
    exact hpart.1 k hlt hk

end PartitionSpec

/-! ## Pivots and pattern breaking -/

theorem reverseLoop_shuffles {lo hi : ℕ} (data : ℕ → α) (i j : ℕ) (hlo : lo ≤ i) (hhi : j < hi) :
    Shuffles lo hi data (reverseLoop data i j) := by
  fun_induction reverseLoop data i j with
  | case1 data i j hij ih => exact (Shuffles.swap (by omega) (by omega)).trans (ih (by omega) (by omega))
  | case2 data i j _ => exact .refl lo hi data

theorem reverseRange_shuffles {a b : ℕ} (data : ℕ → α) (hab : a < b) :
    Shuffles a b data (reverseRange data a b) :=
  reverseLoop_shuffles data a (b - 1) le_rfl (by omega)

theorem nextPowerOfTwo_le {n : ℕ} (hn : 0 < n) : nextPowerOfTwo n ≤ 2 * n := by
  unfold nextPowerOfTwo
  have hsize : 0 < Nat.size n := Nat.size_pos.mpr hn
  have hle : 2 ^ (Nat.size n - 1) ≤ n := Nat.lt_size.mp (by omega)
  calc 2 ^ Nat.size n = 2 * 2 ^ (Nat.size n - 1) := by
        rw [← Nat.pow_succ', Nat.succ_eq_add_one, Nat.sub_add_cancel hsize]
    _ ≤ 2 * n := by omega

theorem breakPatterns_shuffles {a b : ℕ} (data : ℕ → α) (hab : a ≤ b) :
    Shuffles a b data (breakPatterns data a b) := by
  unfold breakPatterns
  dsimp only
  split_ifs with hlen
  · apply Trace.foldl_invariant (fun state : (ℕ → α) × UInt64 => Shuffles a b data state.1) _
      (Shuffles.refl a b data)
    intro state i hi hstate
    have hi3 : i < 3 := List.mem_range.mp hi
    have hmod := nextPowerOfTwo_le (n := b - a) (by omega)
    have hother : (xorshiftNext state.2).toNat &&& (nextPowerOfTwo (b - a) - 1) ≤
        nextPowerOfTwo (b - a) - 1 := Nat.and_le_right
    refine hstate.trans (Shuffles.swap (by omega) ?_)
    split_ifs <;> omega
  · exact .refl a b data

section Pivot

variable (Less : (ℕ → α) → ℕ → ℕ → Bool)

theorem order2_cases (data : ℕ → α) (x y swaps : ℕ) :
    order2 Less data x y swaps = (x, y, swaps) ∨ order2 Less data x y swaps = (y, x, swaps + 1) := by
  unfold order2
  split_ifs
  · exact .inr rfl
  · exact .inl rfl

theorem median_mem (P : ℕ → Prop) (data : ℕ → α) {x y z : ℕ} (swaps : ℕ) (hx : P x) (hy : P y)
    (hz : P z) : P (median Less data x y z swaps).1 := by
  unfold median
  rcases order2_cases Less data x y swaps with h₁ | h₁ <;> rw [h₁] <;> dsimp only
  · rcases order2_cases Less data y z swaps with h₂ | h₂ <;> rw [h₂] <;> dsimp only
    · rcases order2_cases Less data x y swaps with h₃ | h₃ <;> rw [h₃] <;> assumption
    · rcases order2_cases Less data x z (swaps + 1) with h₃ | h₃ <;> rw [h₃] <;> assumption
  · rcases order2_cases Less data x z (swaps + 1) with h₂ | h₂ <;> rw [h₂] <;> dsimp only
    · rcases order2_cases Less data y x (swaps + 1) with h₃ | h₃ <;> rw [h₃] <;> assumption
    · rcases order2_cases Less data y z (swaps + 1 + 1) with h₃ | h₃ <;> rw [h₃] <;> assumption

theorem choosePivot_mem (data : ℕ → α) {a b : ℕ} (hlen : 8 ≤ b - a) :
    a ≤ (choosePivot Less data a b).1 ∧ (choosePivot Less data a b).1 < b := by
  have hmed := @median_mem _ Less (fun x => a ≤ x ∧ x < b) data
  unfold choosePivot medianAdjacent shortestNinther
  dsimp only
  split_ifs <;> dsimp only <;> first
    | exact hmed _ ⟨by omega, by omega⟩ ⟨by omega, by omega⟩ ⟨by omega, by omega⟩
    | exact hmed _ (hmed _ ⟨by omega, by omega⟩ ⟨by omega, by omega⟩ ⟨by omega, by omega⟩)
        (hmed _ ⟨by omega, by omega⟩ ⟨by omega, by omega⟩ ⟨by omega, by omega⟩)
        (hmed _ ⟨by omega, by omega⟩ ⟨by omega, by omega⟩ ⟨by omega, by omega⟩)

end Pivot

/-! ## Partial insertion sort -/

section Partial

variable (Less : (ℕ → α) → ℕ → ℕ → Bool)

theorem skipSorted_bounds (data : ℕ → α) {b i : ℕ} (hib : i ≤ b) :
    i ≤ skipSorted Less data b i ∧ skipSorted Less data b i ≤ b := by
  fun_induction skipSorted Less data b i <;> omega

theorem skipSorted_mem (data : ℕ → α) (b i : ℕ) :
    (∀ k, i ≤ k → k < skipSorted Less data b i → Less data k (k - 1) = false) ∧
      (skipSorted Less data b i < b →
        Less data (skipSorted Less data b i) (skipSorted Less data b i - 1) = true) := by
  fun_induction skipSorted Less data b i with
  | case1 i hcont ih =>
    refine ⟨fun k hk hk' => ?_, ih.2⟩
    rcases Nat.eq_or_lt_of_le hk with rfl | hlt
    · exact hcont.2
    · exact ih.1 k hlt hk'
  | case2 i hstop =>
    refine ⟨fun k hk hk' => absurd hk' (by omega), fun hib => ?_⟩
    simp only [not_and, Bool.not_eq_false] at hstop
    exact hstop hib

theorem shiftRight_shuffles (lo : ℕ) {b : ℕ} (data : ℕ → α) (j : ℕ) (hj : lo < j) :
    Shuffles lo b data (shiftRight Less data b j) := by
  fun_induction shiftRight Less data b j with
  | case1 data j hcont ih => exact (Shuffles.swap (by omega) (by omega)).trans (ih (by omega))
  | case2 data j _ => exact .refl lo b data

variable {β : Type*} [LinearOrder β] {key : α → β} {Less}
variable (hLess : LessByKey key Less)
include hLess

theorem sortedOn_skipSorted {a b i : ℕ} {data : ℕ → α} (hs : SortedOn key a i data) : SortedOn key a (skipSorted Less data b i) data := by
  apply sortedOn_of_adjacent
  intro k hak hk
  by_cases hki : k < i
  · exact hs (k - 1) k (by omega) (by omega) hki
  · exact hLess.le_of_false ((skipSorted_mem Less data b i).1 k (by omega) hk)

theorem partialInsertionSortLoop_spec {a b : ℕ} :
    ∀ (steps i : ℕ) (data : ℕ → α), a < i → i ≤ b → Bounded key a b data →
      SortedOn key a i data →
      Moves key a b data (partialInsertionSortLoop Less data a b i steps).1 ∧
        ((partialInsertionSortLoop Less data a b i steps).2 = true →
          SortedOn key a b (partialInsertionSortLoop Less data a b i steps).1) := by
  intro steps
  induction steps with
  | zero => exact fun i data _ _ _ _ => ⟨.refl a b data, fun h => absurd h (by simp [partialInsertionSortLoop])⟩
  | succ steps ih =>
    intro i data hai hib hb hs
    have ⟨hi₁, hi₂⟩ := skipSorted_bounds Less data hib
    have hstop := (skipSorted_mem Less data b i).2
    have hsorted := sortedOn_skipSorted hLess (b := b) hs
    simp only [partialInsertionSortLoop]
    generalize skipSorted Less data b i = i' at hi₁ hi₂ hstop hsorted
    by_cases hend : i' = b
    · -- sorted up to `b`
      subst hend
      rw [if_pos rfl]
      exact ⟨.refl a i' data, fun _ => hsorted⟩
    rw [if_neg hend]
    by_cases hshort : b - a < shortestShifting
    · rw [if_pos hshort]
      exact ⟨.refl a b data, fun h => absurd h (by simp)⟩
    rw [if_neg hshort]
    have hless := hLess.le data _ _ (hstop (by omega))
    have hmoves₁ : Moves key a b data (swap data i' (i' - 1)) :=
      .of_shuffles (Shuffles.swap (by omega) (by omega))
    have hb₁ := hmoves₁.bounded hb
    have hs₁ : ∀ p q, a ≤ p → p ≤ q → q < i' - 1 →
        key (swap data i' (i' - 1) p) ≤ key (swap data i' (i' - 1) q) := by
      intro p q hp hpq hq
      rw [swap_apply_of_ne data (show p ≠ i' by omega) (show p ≠ i' - 1 by omega),
        swap_apply_of_ne data (show q ≠ i' by omega) (show q ≠ i' - 1 by omega)]
      exact hsorted p q hp hpq (by omega)
    generalize swap data i' (i' - 1) = data₁ at hmoves₁ hb₁ hs₁
    obtain ⟨hmoves₂, hsorted₂⟩ : Moves key a b data₁
          (if i' - a ≥ 2 then shiftLeft Less 0 data₁ (i' - 1) else data₁) ∧
        SortedOn key a i' (if i' - a ≥ 2 then shiftLeft Less 0 data₁ (i' - 1) else data₁) := by
      split_ifs
      · have h := shiftLeft_spec hLess (Nat.zero_le a) (show i' - 1 < b by omega) (i' - 1) data₁
          le_rfl ⟨hb₁, fun p q hp hpq hq hpj hqj => hs₁ p q hp hpq (by omega),
            fun q hq _ hqm => absurd hq (by omega), fun hja => absurd hja (by omega)⟩
        rwa [Nat.sub_add_cancel (by omega)] at h
      · exact ⟨.refl a b data₁, fun p q hp hpq hq => by rw [show q = p by omega]⟩
    generalize (if i' - a ≥ 2 then shiftLeft Less 0 data₁ (i' - 1) else data₁) = data₂
      at hmoves₂ hsorted₂
    obtain ⟨hmoves₃, hsorted₃⟩ : Moves key a b data₂
          (if b - i' ≥ 2 then shiftRight Less data₂ b (i' + 1) else data₂) ∧
        SortedOn key a i' (if b - i' ≥ 2 then shiftRight Less data₂ b (i' + 1) else data₂) := by
      split_ifs
      · have hshuffle := shiftRight_shuffles Less i' (b := b) data₂ (i' + 1) (by omega)
        refine ⟨(Moves.of_shuffles hshuffle).mono (by omega), fun p q hp hpq hq => ?_⟩
        rw [hshuffle.apply_of_not_mem (.inl (by omega)), hshuffle.apply_of_not_mem (.inl hq)]
        exact hsorted₂ p q hp hpq hq
      · exact ⟨.refl a b data₂, hsorted₂⟩
    generalize (if b - i' ≥ 2 then shiftRight Less data₂ b (i' + 1) else data₂) = data₃
      at hmoves₃ hsorted₃
    obtain ⟨hmoves₄, hsorted₄⟩ := ih i' data₃ (by omega) (by omega)
      (hmoves₃.bounded (hmoves₂.bounded hb₁)) hsorted₃
    exact ⟨hmoves₁.trans (hmoves₂.trans (hmoves₃.trans hmoves₄)), hsorted₄⟩

theorem partialInsertionSort_spec {a b : ℕ} (hab : a < b) {data : ℕ → α}
    (hb : Bounded key a b data) :
    Moves key a b data (partialInsertionSort Less data a b).1 ∧
      ((partialInsertionSort Less data a b).2 = true →
        SortedOn key a b (partialInsertionSort Less data a b).1) :=
  partialInsertionSortLoop_spec hLess maxSteps (a + 1) data (by omega) hab hb
    fun p q hp hpq hq => by rw [show q = p by omega]

end Partial

section Pdq

variable {β : Type*} [LinearOrder β] {key : α → β} {Less : (ℕ → α) → ℕ → ℕ → Bool}

theorem sortedOn_around {a b : ℕ} (mid : ℕ) {data : ℕ → α} (hl : SortedOn key a mid data)
    (hr : SortedOn key (mid + 1) b data)
    (hleft : ∀ k, a ≤ k → k < mid → key (data k) ≤ key (data mid))
    (hright : ∀ k, mid < k → k < b → key (data mid) ≤ key (data k)) : SortedOn key a b data := by
  intro p q hp hpq hq
  by_cases hqm : q < mid
  · exact hl p q hp hpq hqm
  by_cases hpm : mid < p
  · exact hr p q hpm hpq hq
  have hp' : key (data p) ≤ key (data mid) := by
    rcases Nat.eq_or_lt_of_le (show p ≤ mid by omega) with rfl | hlt
    · exact le_rfl
    · exact hleft p hp hlt
  have hq' : key (data mid) ≤ key (data q) := by
    rcases Nat.eq_or_lt_of_le (show mid ≤ q by omega) with rfl | hlt
    · exact le_rfl
    · exact hright q hlt hq
  exact hp'.trans hq'

theorem sortedOn_of_const {a mid b : ℕ} {data : ℕ → α} {m : β} (hr : SortedOn key mid b data)
    (hconst : ∀ k, a ≤ k → k < mid → key (data k) = m)
    (habove : ∀ k, mid ≤ k → k < b → m ≤ key (data k)) : SortedOn key a b data := by
  intro p q hp hpq hq
  by_cases hpm : mid ≤ p
  · exact hr p q hpm hpq hq
  rw [hconst p hp (by omega)]
  by_cases hqm : q < mid
  · rw [hconst q (by omega) hqm]
  · exact habove q (by omega) hq

variable (key Less) in
def SortsBelow (n : ℕ) : Prop :=
  ∀ (data : ℕ → α) (a b limit : ℕ) (wasBalanced wasPartitioned : Bool), b - a < n → a ≤ b →
    Bounded key a b data →
      Moves key a b data (pdqsort Less data a b limit wasBalanced wasPartitioned) ∧
        SortedOn key a b (pdqsort Less data a b limit wasBalanced wasPartitioned)

variable {a b mid : ℕ} {data : ℕ → α}

omit [LinearOrder β] in
theorem Moves.apply_of_le {data' : ℕ → α} (h : Moves key a mid data data') {k : ℕ} (hk : mid ≤ k) :
    data' k = data k :=
  h.1.apply_of_not_mem (.inr hk)

theorem pdqsort_left_first (ih : SortsBelow key Less (b - a)) (hmid : a ≤ mid ∧ mid < b)
    (hb : Bounded key a b data)
    (hleft : ∀ k, a ≤ k → k < mid → key (data k) ≤ key (data mid))
    (hright : ∀ k, mid < k → k < b → key (data mid) ≤ key (data k)) (limit : ℕ)
    (wasBalanced wasPartitioned : Bool) :
    Moves key a b data (pdqsort Less (pdqsort Less data a mid limit true true) (mid + 1) b limit
        wasBalanced wasPartitioned) ∧
      SortedOn key a b (pdqsort Less (pdqsort Less data a mid limit true true) (mid + 1) b limit
        wasBalanced wasPartitioned) := by
  obtain ⟨hmoves, hsorted⟩ := ih data a mid limit true true (by omega) hmid.1
    fun i hi j hj hj' => hb i hi j hj (by omega)
  set data' := pdqsort Less data a mid limit true true
  have hleft' : ∀ k, a ≤ k → k < mid → key (data' k) ≤ key (data mid) := by
    intro k hk hk'
    obtain ⟨k', hk'', heq⟩ := hmoves.exists_key_eq ⟨hk, hk'⟩
    rw [heq]
    exact hleft k' hk''.1 hk''.2
  have hbounded : Bounded key (mid + 1) b data' := by
    intro i hi j hj hj'
    rw [hmoves.apply_of_le (show mid ≤ j by omega)]
    by_cases hia : i < a
    · rw [hmoves.2 i hia]
      exact hb i hia j (by omega) hj'
    rcases Nat.eq_or_lt_of_le (show i ≤ mid by omega) with rfl | him
    · rw [hmoves.apply_of_le le_rfl]
      exact hright j (by omega) hj'
    · exact (hleft' i (by omega) him).trans (hright j (by omega) hj')
  obtain ⟨hmoves', hsorted'⟩ := ih data' (mid + 1) b limit wasBalanced wasPartitioned (by omega)
    (by omega) hbounded
  refine ⟨(hmoves.mono_right (by omega)).trans (hmoves'.mono (by omega)), ?_⟩
  have hmid' : key (pdqsort Less data' (mid + 1) b limit wasBalanced wasPartitioned mid) =
      key (data mid) := by
    rw [hmoves'.2 mid (by omega), hmoves.apply_of_le le_rfl]
  refine sortedOn_around mid (fun p q hp hpq hq => ?_) hsorted' (fun k hk hk' => ?_)
    (fun k hk hk' => ?_)
  · rw [hmoves'.2 p (by omega), hmoves'.2 q (by omega)]
    exact hsorted p q hp hpq hq
  · rw [hmid', hmoves'.2 k (by omega)]
    exact hleft' k hk hk'
  · obtain ⟨k', hk'', heq⟩ := hmoves'.exists_key_eq ⟨hk, hk'⟩
    rw [hmid', heq, hmoves.apply_of_le (show mid ≤ k' by omega)]
    exact hright k' (by omega) hk''.2

theorem pdqsort_right_first (ih : SortsBelow key Less (b - a)) (hmid : a ≤ mid ∧ mid < b)
    (hb : Bounded key a b data)
    (hleft : ∀ k, a ≤ k → k < mid → key (data k) ≤ key (data mid))
    (hright : ∀ k, mid < k → k < b → key (data mid) ≤ key (data k)) (limit : ℕ)
    (wasBalanced wasPartitioned : Bool) :
    Moves key a b data (pdqsort Less (pdqsort Less data (mid + 1) b limit true true) a mid limit
        wasBalanced wasPartitioned) ∧
      SortedOn key a b (pdqsort Less (pdqsort Less data (mid + 1) b limit true true) a mid limit
        wasBalanced wasPartitioned) := by
  have hbounded : Bounded key (mid + 1) b data := by
    intro i hi j hj hj'
    by_cases hia : i < a
    · exact hb i hia j (by omega) hj'
    rcases Nat.eq_or_lt_of_le (show i ≤ mid by omega) with rfl | him
    · exact hright j (by omega) hj'
    · exact (hleft i (by omega) him).trans (hright j (by omega) hj')
  obtain ⟨hmoves, hsorted⟩ := ih data (mid + 1) b limit true true (by omega) (by omega) hbounded
  set data' := pdqsort Less data (mid + 1) b limit true true
  obtain ⟨hmoves', hsorted'⟩ := ih data' a mid limit wasBalanced wasPartitioned (by omega) hmid.1
    fun i hi j hj hj' => by
      rw [hmoves.2 i (by omega), hmoves.2 j (by omega)]
      exact hb i hi j hj (by omega)
  refine ⟨(hmoves.mono (by omega)).trans (hmoves'.mono_right (by omega)), ?_⟩
  have hmid' : key (pdqsort Less data' a mid limit wasBalanced wasPartitioned mid) =
      key (data mid) := by
    rw [hmoves'.apply_of_le le_rfl, hmoves.2 mid (by omega)]
  refine sortedOn_around mid hsorted' (fun p q hp hpq hq => ?_) (fun k hk hk' => ?_)
    (fun k hk hk' => ?_)
  · rw [hmoves'.apply_of_le (show mid ≤ p by omega), hmoves'.apply_of_le (show mid ≤ q by omega)]
    exact hsorted p q hp hpq hq
  · obtain ⟨k', hk'', heq⟩ := hmoves'.exists_key_eq ⟨hk, hk'⟩
    rw [hmid', heq, hmoves.2 k' (by omega)]
    exact hleft k' hk''.1 hk''.2
  · rw [hmid', hmoves'.apply_of_le (show mid ≤ k by omega)]
    obtain ⟨k', hk'', heq⟩ := hmoves.exists_key_eq ⟨(by omega : mid + 1 ≤ k), hk'⟩
    rw [heq]
    exact hright k' (by omega) hk''.2

variable (hLess : LessByKey key Less)
include hLess

theorem pdqsort_partitionEqual (ih : SortsBelow key Less (b - a)) (hab : a < b) (ha : 0 < a)
    {pivot : ℕ} (hpivot : a ≤ pivot ∧ pivot < b) (hb : Bounded key a b data)
    (hless : Less data (a - 1) pivot = false) (limit : ℕ) (wasBalanced wasPartitioned : Bool) :
    Moves key a b data (pdqsort Less (partitionEqual Less data a b pivot).1
        (partitionEqual Less data a b pivot).2 b limit wasBalanced wasPartitioned) ∧
      SortedOn key a b (pdqsort Less (partitionEqual Less data a b pivot).1
        (partitionEqual Less data a b pivot).2 b limit wasBalanced wasPartitioned) := by
  have hm : key (data pivot) = key (data (a - 1)) :=
    le_antisymm (hLess.le_of_false hless) (hb (a - 1) (by omega) pivot hpivot.1 hpivot.2)
  obtain ⟨hshuffle, hmid, hle⟩ := partitionEqual_spec hLess hab hpivot data
  generalize partitionEqual Less data a b pivot = r at hshuffle hmid hle
  have hmoves : Moves key a b data r.1 := .of_shuffles hshuffle
  have hb' := hmoves.bounded hb
  have hconst : ∀ k, a ≤ k → k < r.2 → key (r.1 k) = key (data (a - 1)) := by
    intro k hk hk'
    refine le_antisymm ((hle k hk hk').trans_eq hm) ?_
    rw [← hmoves.2 (a - 1) (by omega)]
    exact hb' (a - 1) (by omega) k hk (by omega)
  have hbounded : Bounded key r.2 b r.1 := by
    intro i hi j hj hj'
    by_cases hia : i < a
    · exact hb' i hia j (by omega) hj'
    rw [hconst i (by omega) hi, ← hmoves.2 (a - 1) (by omega)]
    exact hb' (a - 1) (by omega) j (by omega) hj'
  obtain ⟨hmoves', hsorted'⟩ := ih r.1 r.2 b limit wasBalanced wasPartitioned (by omega) hmid.2
    hbounded
  refine ⟨hmoves.trans (hmoves'.mono (by omega)), sortedOn_of_const hsorted'
    (fun k hk hk' => (hmoves'.2 k hk').trans (hconst k hk hk')) (fun k hk hk' => ?_)⟩
  obtain ⟨k', hk'', heq⟩ := hmoves'.exists_key_eq ⟨hk, hk'⟩
  rw [heq, ← hmoves.2 (a - 1) (by omega)]
  exact hb' (a - 1) (by omega) k' (by omega) hk''.2

theorem pdqsort_step (ih : SortsBelow key Less (b - a)) (hab : a ≤ b) (hb : Bounded key a b data)
    (limit : ℕ) (wasBalanced wasPartitioned : Bool) :
    Moves key a b data (pdqsort Less data a b limit wasBalanced wasPartitioned) ∧
      SortedOn key a b (pdqsort Less data a b limit wasBalanced wasPartitioned) := by
  rw [pdqsort]
  by_cases hsmall : b - a ≤ maxInsertion
  · rw [if_pos hsmall]
    exact insertionSort_spec hLess hb
  rw [if_neg hsmall]
  have hlen : 12 < b - a := by
    unfold maxInsertion at hsmall
    omega
  by_cases hlimit : limit = 0
  · rw [if_pos hlimit]
    exact ⟨.of_shuffles (heapSort_spec hLess hab data).1, (heapSort_spec hLess hab data).2⟩
  rw [if_neg hlimit]
  dsimp only
  -- the preparation: pattern breaking, the pivot, reversal and the partial insertion sort
  have h₁ : Shuffles a b data (if wasBalanced = true then data else breakPatterns data a b) := by
    split_ifs
    · exact .refl a b data
    · exact breakPatterns_shuffles data hab
  generalize (if wasBalanced = true then data else breakPatterns data a b) = data₁ at h₁ ⊢
  have hpivot₀ := choosePivot_mem Less data₁ (a := a) (b := b) (by omega)
  generalize choosePivot Less data₁ a b = cp at hpivot₀ ⊢
  have h₂ : Shuffles a b data₁
      (if cp.2 = sortedHint.decreasingHint then reverseRange data₁ a b else data₁) := by
    split_ifs
    · exact reverseRange_shuffles data₁ (by omega)
    · exact .refl a b data₁
  generalize (if cp.2 = sortedHint.decreasingHint then reverseRange data₁ a b else data₁) = data₂
    at h₂ ⊢
  have hpivot : a ≤ (if cp.2 = sortedHint.decreasingHint then b - 1 - (cp.1 - a) else cp.1) ∧
      (if cp.2 = sortedHint.decreasingHint then b - 1 - (cp.1 - a) else cp.1) < b := by
    split_ifs <;> omega
  generalize (if cp.2 = sortedHint.decreasingHint then b - 1 - (cp.1 - a) else cp.1) = pivot
    at hpivot ⊢
  generalize (if cp.2 = sortedHint.decreasingHint then sortedHint.increasingHint else cp.2) = hint
  generalize (if wasBalanced = true then limit else limit - 1) = limit'
  have hmoves₂ : Moves key a b data data₂ := .of_shuffles (h₁.trans h₂)
  have h₃ : Moves key a b data₂ (if wasBalanced = true ∧ wasPartitioned = true ∧
          hint = sortedHint.increasingHint then partialInsertionSort Less data₂ a b
        else (data₂, false)).1 ∧
      ((if wasBalanced = true ∧ wasPartitioned = true ∧ hint = sortedHint.increasingHint then
          partialInsertionSort Less data₂ a b else (data₂, false)).2 = true →
        SortedOn key a b (if wasBalanced = true ∧ wasPartitioned = true ∧
          hint = sortedHint.increasingHint then partialInsertionSort Less data₂ a b
        else (data₂, false)).1) := by
    split_ifs
    · exact partialInsertionSort_spec hLess (by omega) (hmoves₂.bounded hb)
    · exact ⟨.refl a b data₂, fun h => absurd h (by simp)⟩
  generalize (if wasBalanced = true ∧ wasPartitioned = true ∧ hint = sortedHint.increasingHint then
      partialInsertionSort Less data₂ a b else (data₂, false)) = ps at h₃ ⊢
  obtain ⟨hmoves₃, hsorted₃⟩ := h₃
  have hmoves := hmoves₂.trans hmoves₃
  have hb₃ := hmoves.bounded hb
  split_ifs with hsorted hequal hshorter
  · exact ⟨hmoves, hsorted₃ hsorted⟩
  · -- many elements equal to the pivot
    obtain ⟨hmoves', hsorted'⟩ := pdqsort_partitionEqual hLess ih (by omega) hequal.1 hpivot hb₃
      hequal.2 limit' wasBalanced wasPartitioned
    exact ⟨hmoves.trans hmoves', hsorted'⟩
  all_goals
    obtain ⟨hshuffle, hmid, hleft, hright⟩ := partition_spec hLess (by omega) hpivot ps.1
    have hmoves' : Moves key a b data (partition Less ps.1 a b pivot).1 :=
      hmoves.trans (.of_shuffles hshuffle)
  · obtain ⟨hmoves'', hsorted''⟩ := pdqsort_left_first ih hmid (hmoves'.bounded hb) hleft hright
      limit' _ _
    exact ⟨hmoves'.trans hmoves'', hsorted''⟩
  · obtain ⟨hmoves'', hsorted''⟩ := pdqsort_right_first ih hmid (hmoves'.bounded hb) hleft hright
      limit' _ _
    exact ⟨hmoves'.trans hmoves'', hsorted''⟩

theorem pdqsort_spec (n : ℕ) : SortsBelow key Less n := by
  induction n with
  | zero => exact fun _ _ _ _ _ _ h => absurd h (Nat.not_lt_zero _)
  | succ n ih =>
    intro data a b limit wasBalanced wasPartitioned hn hab hb
    exact pdqsort_step hLess (fun data' a' b' limit' wb wp h => ih data' a' b' limit' wb wp
      (by omega)) hab hb limit wasBalanced wasPartitioned

/-- `sort.Sort` rearranges the first `n` elements into increasing keys. -/
theorem sortSort_spec (data : ℕ → α) (n : ℕ) :
    Shuffles 0 n data (sortSort Less data n) ∧ SortedOn key 0 n (sortSort Less data n) := by
  unfold sortSort
  split_ifs with hn
  · exact ⟨.refl 0 n data, fun p q _ hpq hq => by rw [show p = q by omega]⟩
  · obtain ⟨hmoves, hsorted⟩ := pdqsort_spec hLess (n + 1) data 0 n (Nat.size n) true true
      (by omega) (Nat.zero_le n) (fun i hi => absurd hi (Nat.not_lt_zero i))
    exact ⟨hmoves.1, hsorted⟩

end Pdq

theorem lessByKey_unit (Less : (ℕ → α) → ℕ → ℕ → Bool) : LessByKey (fun _ : α => ()) Less :=
  ⟨fun _ _ _ h => absurd h (lt_irrefl _), fun _ _ _ _ => le_rfl⟩

/-! ## Slices -/

section Slice

variable [Inhabited α] (Less : (ℕ → α) → ℕ → ℕ → Bool)

def ofList (l : List α) : ℕ → α :=
  fun k => l.getD k default

/-- `sort.Sort` on a slice, read back in order. -/
def sortSlice (l : List α) : List α :=
  (List.range l.length).map (sortSort Less (ofList l) l.length)

theorem sortSlice_perm (l : List α) : (sortSlice Less l).Perm l := by
  have hshuffle := (sortSort_spec (lessByKey_unit Less) (ofList l) l.length).1
  have hperm := hshuffle.map_perm id
  have hlist : (List.range l.length).map (ofList l) = l := by
    refine List.ext_getElem (by simp) fun i h₁ h₂ => ?_
    simp only [List.getElem_map, List.getElem_range, ofList]
    exact List.getD_eq_getElem l default h₂
  rw [Nat.sub_zero, ← List.range_eq_range', Function.id_comp, Function.id_comp, hlist] at hperm
  exact hperm

variable {Less} {β : Type*} [LinearOrder β] {key : α → β}

theorem sortSlice_sorted (hLess : LessByKey key Less) (l : List α) :
    (sortSlice Less l).Pairwise fun x y => key x ≤ key y := by
  have hsorted := (sortSort_spec hLess (ofList l) l.length).2
  unfold sortSlice
  rw [List.pairwise_map]
  refine List.pairwise_lt_range.imp_of_mem fun {i j} _ hj hij => ?_
  exact hsorted i j (Nat.zero_le i) hij.le (List.mem_range.mp hj)

end Slice

end ClusterApi.Lib.Pdqsort
