import ClusterApi.Lib.GoSort
import ClusterApi.Lib.Pdqsort

/-!
# `sort.Sort` keeps the `Sorter` contract

`Lib.GoSort` states what a caller of `sort.Sort` relies on as `Sorter.Lawful`; `Lib.Pdqsort`
models the pattern-defeating quicksort itself. `Sorter.sortSort` runs that model on the elements
of a list, and `Sorter.sortSort_lawful` shows that it keeps the contract, so what is proved here
for every lawful `Sorter` holds for Go's `sort.Sort`.

On at most twelve elements `pdqsort` is its insertion sort, which swaps neighbours;
`insertionSort_ofList` reads those swaps as the list insertion sort of `Lib.GoSort`. A strict weak
ordering of the elements of `l` orders them as the number of elements of `l` below them does
(`lessCount`), but only on `l`: the model sorts the elements paired with their membership, where
that count is a key for every comparison the sort makes.
-/

namespace ClusterApi.Lib.GoSort

open ClusterApi.Lib.Pdqsort

variable {α β : Type*}

/-! ### The list insertion sort under a map -/

section Map

variable (f : α → β) (less : β → β → Bool)

theorem insertRev_map (x : α) (acc : List α) :
    (insertRev (fun a b => less (f a) (f b)) x acc).map f = insertRev less (f x) (acc.map f) := by
  induction acc with
  | nil => rfl
  | cons y ys ih =>
    by_cases h : less (f x) (f y) <;> simp [insertRev, h, ih]

theorem foldl_insertRev_map (l acc : List α) :
    (l.foldl (fun acc x => insertRev (fun a b => less (f a) (f b)) x acc) acc).map f =
      (l.map f).foldl (fun acc x => insertRev less x acc) (acc.map f) := by
  induction l generalizing acc with
  | nil => rfl
  | cons x xs ih => rw [List.foldl_cons, ih, insertRev_map, List.map_cons, List.foldl_cons]

theorem insertionSort_map (l : List α) :
    (GoSort.insertionSort (fun a b => less (f a) (f b)) l).map f =
      GoSort.insertionSort less (l.map f) := by
  unfold GoSort.insertionSort
  rw [List.map_reverse, foldl_insertRev_map, List.map_nil]

end Map

/-! ### Go's insertion sort read as the list insertion sort -/

/-- The `Less` of a slice whose elements `less` compares. -/
def sliceLess (less : α → α → Bool) : (ℕ → α) → ℕ → ℕ → Bool :=
  fun data i j => less (data i) (data j)

section Insertion

variable (less : α → α → Bool)

/-- The round of `insertionSort` that moves the element at `i` left is `insertRev` on the
positions below `i` read backwards; the positions above `i` are kept. -/
theorem shiftLeft_reverse (i : ℕ) (data : ℕ → α) :
    ((List.range (i + 1)).map (shiftLeft (sliceLess less) 0 data i)).reverse =
        insertRev less (data i) ((List.range i).map data).reverse ∧
      ∀ k, i < k → shiftLeft (sliceLess less) 0 data i k = data k := by
  induction i generalizing data with
  | zero => exact ⟨rfl, fun _ _ => rfl⟩
  | succ j ih =>
    have hrest : ((List.range (j + 1)).map data).reverse =
        data j :: ((List.range j).map data).reverse := by
      simp [List.range_succ]
    by_cases h : less (data (j + 1)) (data j)
    · -- the element moves past `data j`: the rest of the round starts one position lower
      have hshift : shiftLeft (sliceLess less) 0 data (j + 1) =
          shiftLeft (sliceLess less) 0 (swap data (j + 1) j) j := by
        simp [shiftLeft, sliceLess, h]
      have hbelow : (List.range j).map (swap data (j + 1) j) = (List.range j).map data :=
        List.map_congr_left fun k hk =>
          swap_apply_of_ne data (by simp at hk; omega) (by simp at hk; omega)
      obtain ⟨ih₁, ih₂⟩ := ih (swap data (j + 1) j)
      rw [swap_apply_right, hbelow] at ih₁
      refine ⟨?_, fun k hk => ?_⟩
      · rw [hshift, List.range_succ, List.map_append, List.reverse_append, ih₁, hrest,
          List.map_singleton, List.reverse_singleton, List.singleton_append,
          ih₂ (j + 1) (by omega), swap_apply_left]
        simp [insertRev, h]
      · rw [hshift, ih₂ k (by omega), swap_apply_of_ne data (by omega) (by omega)]
    · -- the element stays: the round ends at once
      have hshift : shiftLeft (sliceLess less) 0 data (j + 1) = data := by
        simp [shiftLeft, sliceLess, h]
      refine ⟨?_, fun k _ => by rw [hshift]⟩
      rw [hshift, List.range_succ, List.map_append, List.reverse_append, hrest]
      simp [insertRev, h]

variable [Inhabited α]

/-- The rounds `s, …, s + n - 1` of `insertionSort` on a slice read from `l`: the positions below
`s + n` read backwards are the accumulator of the list insertion sort on the first `s + n`
elements, and the positions from `s + n` on still hold `l`. -/
theorem foldl_shiftLeft_reverse (l : List α) (n : ℕ) :
    ∀ (s : ℕ) (data : ℕ → α), s + n ≤ l.length →
      ((List.range s).map data).reverse =
        (l.take s).foldl (fun acc x => insertRev less x acc) [] →
      (∀ k, s ≤ k → data k = ofList l k) →
      (((List.range (s + n)).map
          ((List.range' s n).foldl (fun data i => shiftLeft (sliceLess less) 0 data i) data)).reverse =
        (l.take (s + n)).foldl (fun acc x => insertRev less x acc) [] ∧
      ∀ k, s + n ≤ k →
        (List.range' s n).foldl (fun data i => shiftLeft (sliceLess less) 0 data i) data k =
          ofList l k) := by
  induction n with
  | zero => exact fun s data _ hacc hrest => ⟨hacc, hrest⟩
  | succ n ih =>
    intro s data hlen hacc hrest
    obtain ⟨hround, hframe⟩ := shiftLeft_reverse less s data
    have hs : s < l.length := by omega
    have hacc' : ((List.range (s + 1)).map (shiftLeft (sliceLess less) 0 data s)).reverse =
        (l.take (s + 1)).foldl (fun acc x => insertRev less x acc) [] := by
      rw [hround, hacc, hrest s le_rfl, List.take_add_one, List.getElem?_eq_getElem hs,
        Option.toList_some, List.foldl_append, List.foldl_cons, List.foldl_nil, ofList,
        List.getD_eq_getElem l default hs]
    have := ih (s + 1) (shiftLeft (sliceLess less) 0 data s) (by omega) hacc'
      fun k hk => (hframe k (by omega)).trans (hrest k (by omega))
    rw [show s + 1 + n = s + (n + 1) by omega] at this
    simpa only [List.range'_succ, List.foldl_cons] using this

/-- `insertionSort` of a slice read from `l`, read back in order, is the list insertion sort. -/
theorem insertionSort_ofList (l : List α) :
    (List.range l.length).map
        (Pdqsort.insertionSort (sliceLess less) (ofList l) 0 l.length) =
      GoSort.insertionSort less l := by
  cases l with
  | nil => rfl
  | cons x xs =>
    have hstart : ((List.range 1).map (ofList (x :: xs))).reverse =
        ((x :: xs).take 1).foldl (fun acc x => insertRev less x acc) [] := rfl
    obtain ⟨h, -⟩ := foldl_shiftLeft_reverse less (x :: xs) xs.length 1 (ofList (x :: xs))
      (by simp [Nat.add_comm]) hstart fun _ _ => rfl
    rw [show 1 + xs.length = (x :: xs).length by simp [Nat.add_comm], List.take_length] at h
    unfold Pdqsort.insertionSort GoSort.insertionSort
    rw [← h, List.reverse_reverse]
    simp

end Insertion

/-! ### `sort.Sort` on short data -/

theorem sortSort_of_le (Less : (ℕ → α) → ℕ → ℕ → Bool) (data : ℕ → α) {n : ℕ}
    (hn : n ≤ maxInsertion) : sortSort Less data n = Pdqsort.insertionSort Less data 0 n := by
  unfold sortSort
  split_ifs with h
  · -- one element or none: neither sort moves anything
    unfold Pdqsort.insertionSort
    rw [show n - (0 + 1) = 0 by omega]
    rfl
  · rw [pdqsort, if_pos (by omega)]

theorem sortSlice_of_le [Inhabited α] (less : α → α → Bool) (l : List α)
    (hl : l.length ≤ maxInsertion) :
    sortSlice (sliceLess less) l = GoSort.insertionSort less l := by
  unfold sortSlice
  rw [sortSort_of_le _ _ hl]
  exact insertionSort_ofList less l

/-! ### A strict weak ordering as a key -/

section Count

variable (less : α → α → Bool) (l : List α)

/-- The number of elements of `l` that `less` puts below `a`. -/
def lessCount (a : α) : ℕ := (l.filter fun b => less b a).length

variable {less l} (h : StrictWeakOn less l) {a b : α} (ha : a ∈ l) (hb : b ∈ l)
include h ha hb

theorem lessCount_lt (hab : less a b = true) : lessCount less l a < lessCount less l b := by
  -- what is below `a` is below `b`, and `a` is below `b` but not below itself
  have hfilter : l.filter (fun z => less z a) =
      (l.filter fun z => less z b).filter fun z => less z a := by
    rw [List.filter_filter]
    refine List.filter_congr fun z hz => ?_
    cases hza : less z a
    · simp
    · simp [h.trans hz ha hb hza hab]
  unfold lessCount
  rw [hfilter]
  exact List.length_filter_lt_length_iff_exists.mpr
    ⟨a, List.mem_filter.mpr ⟨ha, hab⟩, by simp [h.irrefl ha]⟩

theorem less_of_lessCount_lt (hlt : lessCount less l a < lessCount less l b) :
    less a b = true := by
  by_contra hab
  -- what is below `b` is then below `a`
  have hle : lessCount less l b ≤ lessCount less l a := by
    simp only [lessCount, ← List.countP_eq_length_filter]
    refine List.countP_mono_left fun z hz hzb => ?_
    rcases h.lt_or_lt hz ha hb hzb with hza | hab'
    · exact hza
    · exact absurd hab' hab
  omega

end Count

/-! ### `sort.Sort` as a `Sorter` -/

/-- `sort.Sort` on the elements of `l`, each paired with its membership; `x` fills the positions
past the end, which the sort never reads. -/
def sortMembers {β : Type} (less : β → β → Bool) (l : List β) (x : {y // y ∈ l}) : List β :=
  (@sortSlice _ ⟨x⟩ (sliceLess fun y z : {y // y ∈ l} => less y.1 z.1) l.attach).map Subtype.val

def sortList {β : Type} (less : β → β → Bool) : List β → List β
  | [] => []
  | x :: xs => sortMembers less (x :: xs) ⟨x, List.mem_cons_self⟩

/-- The model of `sort.Sort` as the `Sorter` the callers' models take. -/
def Sorter.sortSort : Sorter := ⟨sortList⟩

section Members

variable {β : Type} (less : β → β → Bool) (l : List β) (x : {y // y ∈ l})

theorem sortMembers_perm : (sortMembers less l x).Perm l := by
  have := (@sortSlice_perm _ ⟨x⟩ (sliceLess fun y z : {y // y ∈ l} => less y.1 z.1) l.attach).map
    Subtype.val
  rwa [List.attach_map_subtype_val] at this

theorem sortMembers_sorted (h : StrictWeakOn less l) :
    (sortMembers less l x).Pairwise fun a b => less b a = false := by
  have hLess : LessByKey (fun y : {y // y ∈ l} => lessCount less l y.1)
      (sliceLess fun y z : {y // y ∈ l} => less y.1 z.1) :=
    ⟨fun data i j hlt => less_of_lessCount_lt h (data i).2 (data j).2 hlt,
      fun data i j hij => (lessCount_lt h (data i).2 (data j).2 hij).le⟩
  unfold sortMembers
  rw [List.pairwise_map]
  refine (@sortSlice_sorted _ ⟨x⟩ _ _ _ _ hLess l.attach).imp fun {y z} hyz => ?_
  -- `z` below `y` would put fewer elements below `z` than below `y`
  exact Bool.eq_false_iff.mpr fun hzy => absurd hyz (not_le.mpr (lessCount_lt h z.2 y.2 hzy))

theorem sortMembers_short (hl : l.length ≤ 12) :
    sortMembers less l x = GoSort.insertionSort less l := by
  unfold sortMembers
  rw [@sortSlice_of_le _ ⟨x⟩ _ l.attach (by rw [List.length_attach]; exact hl)]
  rw [insertionSort_map Subtype.val less, List.attach_map_subtype_val]

end Members

/-- The model of `sort.Sort` keeps the contract callers rely on. -/
theorem Sorter.sortSort_lawful : Sorter.sortSort.Lawful where
  perm less l := by
    cases l with
    | nil => rfl
    | cons x xs => exact sortMembers_perm less (x :: xs) _
  sorted less l h := by
    cases l with
    | nil => exact List.Pairwise.nil
    | cons x xs => exact sortMembers_sorted less (x :: xs) _ h
  short less l hl := by
    cases l with
    | nil => rfl
    | cons x xs => exact sortMembers_short less (x :: xs) _ hl

end ClusterApi.Lib.GoSort
