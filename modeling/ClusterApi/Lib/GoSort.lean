import Mathlib

/-!
# Go's `sort.Sort`

`sort.Sort` is a pattern-defeating quicksort. A caller may rely on three things: it permutes
the data; when `Less` is a strict weak ordering of the elements, no element ends up before one
that is less than it; and on at most twelve elements it runs `insertionSort`, which moves each
element left past the elements it is less than. The last is what a `Less` that is not a strict
weak ordering gets on short data.

`Sorter` is a call of `sort.Sort` and `Sorter.Lawful` the three promises; `Sorter.sample`,
`insertionSort` on data of any length, keeps them, and so does the model of `sort.Sort` itself
(`Sorter.sortSort_lawful` in `Lib.SortLawful`).
-/

namespace ClusterApi.Lib.GoSort

variable {α : Type*}

/-- `less` is a strict weak ordering of the elements of `l`, which is what `sort.Sort` asks of
`Less` on the data it sorts. -/
def StrictWeakOn (less : α → α → Bool) (l : List α) : Prop :=
  IsStrictWeakOrder {x // x ∈ l} fun a b => less a.1 b.1

namespace StrictWeakOn

variable {less : α → α → Bool} {l : List α} {a b c : α}

theorem irrefl (h : StrictWeakOn less l) (ha : a ∈ l) : less a a = false := by
  simpa using h.toIsStrictOrder.toIrrefl.irrefl ⟨a, ha⟩

theorem trans (h : StrictWeakOn less l) (ha : a ∈ l) (hb : b ∈ l) (hc : c ∈ l)
    (hab : less a b) (hbc : less b c) : less a c :=
  h.toIsStrictOrder.toIsTrans.trans ⟨a, ha⟩ ⟨b, hb⟩ ⟨c, hc⟩ hab hbc

theorem incomp_trans (h : StrictWeakOn less l) (ha : a ∈ l) (hb : b ∈ l) (hc : c ∈ l)
    (hab : less a b = false ∧ less b a = false) (hbc : less b c = false ∧ less c b = false) :
    less a c = false ∧ less c a = false := by
  simpa using @IsStrictWeakOrder.incomp_trans _ _ h ⟨a, ha⟩ ⟨b, hb⟩ ⟨c, hc⟩ (by simp [hab])
    (by simp [hbc])

theorem asymm (h : StrictWeakOn less l) (ha : a ∈ l) (hb : b ∈ l) (hab : less a b) :
    less b a = false := by
  apply Bool.eq_false_iff.mpr
  intro hba
  have := h.irrefl ha
  simp_all [h.trans ha hb ha hab hba]

theorem lt_or_lt (h : StrictWeakOn less l) (ha : a ∈ l) (hb : b ∈ l) (hc : c ∈ l)
    (hac : less a c) : less a b ∨ less b c := by
  by_contra hno
  simp only [not_or, Bool.not_eq_true] at hno
  obtain ⟨hab, hbc⟩ := hno
  -- `a` and `c` are both incomparable with `b`, hence with each other
  have hba : less b a = false := by
    apply Bool.eq_false_iff.mpr
    intro hba
    simp [h.trans hb ha hc hba hac] at hbc
  have hcb : less c b = false := by
    apply Bool.eq_false_iff.mpr
    intro hcb
    simp [h.trans ha hc hb hac hcb] at hab
  have := (h.incomp_trans ha hb hc ⟨hab, hba⟩ ⟨hbc, hcb⟩).1
  simp [hac] at this

theorem not_less_trans (h : StrictWeakOn less l) (ha : a ∈ l) (hb : b ∈ l) (hc : c ∈ l)
    (hab : less a b = false) (hbc : less b c = false) : less a c = false := by
  apply Bool.eq_false_iff.mpr
  intro hac
  rcases h.lt_or_lt ha hb hc hac with h' | h' <;> simp_all

theorem of_key {β : Type*} [LinearOrder β] (key : α → β)
    (hless : ∀ a b, less a b = decide (key a < key b)) : StrictWeakOn less l where
  irrefl a := by simp [hless]
  trans a b c hab hbc := by
    simp only [hless, decide_eq_true_eq] at hab hbc ⊢
    exact hab.trans hbc
  incomp_trans a b c hab hbc := by
    simp only [hless, decide_eq_true_eq, not_lt] at hab hbc ⊢
    exact ⟨hbc.1.trans hab.1, hab.2.trans hbc.2⟩

theorem mono {l' : List α} (h : StrictWeakOn less l) (hsub : ∀ a ∈ l', a ∈ l) :
    StrictWeakOn less l' where
  irrefl a := by simpa using h.irrefl (hsub a.1 a.2)
  trans a b c hab hbc := h.trans (hsub a.1 a.2) (hsub b.1 b.2) (hsub c.1 c.2) hab hbc
  incomp_trans a b c hab hbc := by
    simpa using h.incomp_trans (hsub a.1 a.2) (hsub b.1 b.2) (hsub c.1 c.2) (by simpa using hab)
      (by simpa using hbc)

end StrictWeakOn

/-! ### `insertionSort` -/

/-- One round of `insertionSort`: `x` moves left past every element it is less than. The sorted
prefix is kept reversed, its last element first. -/
def insertRev (less : α → α → Bool) (x : α) : List α → List α
  | [] => [x]
  | y :: ys => if less x y then y :: insertRev less x ys else x :: y :: ys

def insertionSort (less : α → α → Bool) (l : List α) : List α :=
  (l.foldl (fun acc x => insertRev less x acc) []).reverse

section InsertionSort

variable {less : α → α → Bool}

theorem insertRev_perm (x : α) (l : List α) : (insertRev less x l).Perm (x :: l) := by
  induction l with
  | nil => rfl
  | cons y ys ih =>
    unfold insertRev
    split
    · exact (ih.cons y).trans (List.Perm.swap x y ys)
    · rfl

theorem foldl_insertRev_perm (l acc : List α) :
    (l.foldl (fun acc x => insertRev less x acc) acc).Perm (l.reverse ++ acc) := by
  induction l generalizing acc with
  | nil => rfl
  | cons x xs ih =>
    rw [List.foldl_cons]
    refine (ih _).trans ?_
    simpa using (insertRev_perm x acc).append_left xs.reverse

theorem insertionSort_perm (l : List α) : (insertionSort less l).Perm l := by
  have h := @foldl_insertRev_perm _ less l []
  rw [List.append_nil] at h
  exact (List.reverse_perm _).trans (h.trans (List.reverse_perm l))

variable {s : List α}

theorem pairwise_insertRev (h : StrictWeakOn less s) {x : α} (hx : x ∈ s) {l : List α}
    (hl : ∀ y ∈ l, y ∈ s) (hsorted : l.Pairwise fun a b => less a b = false) :
    (insertRev less x l).Pairwise fun a b => less a b = false := by
  induction l with
  | nil => simp [insertRev]
  | cons y ys ih =>
    obtain ⟨hy, hys⟩ := List.pairwise_cons.mp hsorted
    have hys_mem : ∀ z ∈ ys, z ∈ s := fun z hz => hl z (List.mem_cons_of_mem y hz)
    have hy_mem := hl y List.mem_cons_self
    unfold insertRev
    split_ifs with hxy
    · -- `x` moves past `y`, which stays the greatest
      refine List.pairwise_cons.mpr ⟨fun z hz => ?_, ih hys_mem hys⟩
      rcases List.mem_cons.mp ((insertRev_perm x ys).mem_iff.mp hz) with rfl | hz
      · exact h.asymm hx hy_mem hxy
      · exact hy z hz
    · -- `x` stops right after `y`
      have hxy' : less x y = false := by simpa using hxy
      refine List.pairwise_cons.mpr ⟨fun z hz => ?_, hsorted⟩
      rcases List.mem_cons.mp hz with rfl | hz
      · exact hxy'
      · exact h.not_less_trans hx hy_mem (hys_mem z hz) hxy' (hy z hz)

theorem pairwise_foldl_insertRev (h : StrictWeakOn less s) (l acc : List α)
    (hl : ∀ x ∈ l, x ∈ s) (hacc : ∀ y ∈ acc, y ∈ s)
    (hsorted : acc.Pairwise fun a b => less a b = false) :
    (l.foldl (fun acc x => insertRev less x acc) acc).Pairwise fun a b => less a b = false := by
  induction l generalizing acc with
  | nil => exact hsorted
  | cons x xs ih =>
    have hx := hl x List.mem_cons_self
    apply ih _ (fun y hy => hl y (List.mem_cons_of_mem x hy))
    · intro y hy
      rcases List.mem_cons.mp ((insertRev_perm x acc).mem_iff.mp hy) with rfl | hy
      · exact hx
      · exact hacc y hy
    · exact pairwise_insertRev h hx hacc hsorted

theorem insertionSort_sorted {l : List α} (h : StrictWeakOn less l) :
    (insertionSort less l).Pairwise fun a b => less b a = false := by
  rw [insertionSort, List.pairwise_reverse]
  exact pairwise_foldl_insertRev h l [] (fun _ hx => hx) (by simp) List.Pairwise.nil

/-! Mathlib's `List.insertionSort` by a strict `less` inserts each element before the first one it
is less than, which is the same sorted order read from the front. -/

theorem pairwise_orderedInsert (h : StrictWeakOn less s) {x : α} (hx : x ∈ s) {l : List α}
    (hl : ∀ y ∈ l, y ∈ s) (hsorted : l.Pairwise fun a b => less b a = false) :
    (l.orderedInsert (fun a b => less a b = true) x).Pairwise fun a b => less b a = false := by
  induction l with
  | nil => simp
  | cons y ys ih =>
    obtain ⟨hy, hys⟩ := List.pairwise_cons.mp hsorted
    have hys_mem : ∀ z ∈ ys, z ∈ s := fun z hz => hl z (List.mem_cons_of_mem y hz)
    have hy_mem := hl y List.mem_cons_self
    rw [List.orderedInsert_cons]
    split_ifs with hxy
    · -- `x` stops before `y`, and what comes after `y` is not less than `y`, so not less than `x`
      refine List.pairwise_cons.mpr ⟨fun z hz => ?_, hsorted⟩
      rcases List.mem_cons.mp hz with rfl | hz
      · exact h.asymm hx hy_mem hxy
      · apply Bool.eq_false_iff.mpr
        intro hzx
        have hzy := h.trans (hys_mem z hz) hx hy_mem hzx hxy
        simp [hy z hz] at hzy
    · -- `x` moves past `y`, which it is not less than
      have hxy' : less x y = false := by simpa using hxy
      refine List.pairwise_cons.mpr ⟨fun z hz => ?_, ih hys_mem hys⟩
      rcases List.mem_cons.mp ((List.perm_orderedInsert _ x ys).mem_iff.mp hz) with rfl | hz
      · exact hxy'
      · exact hy z hz

theorem pairwise_insertionSort {l : List α} (h : StrictWeakOn less l) :
    (l.insertionSort fun a b => less a b = true).Pairwise fun a b => less b a = false := by
  induction l with
  | nil => exact List.Pairwise.nil
  | cons x xs ih =>
    rw [List.insertionSort_cons]
    have hxs := h.mono fun a ha => List.mem_cons_of_mem x ha
    exact pairwise_orderedInsert h List.mem_cons_self
      (fun y hy => List.mem_cons_of_mem x (List.mem_insertionSort _ |>.mp hy)) (ih hxs)

end InsertionSort

/-! ### `sort.Sort` -/

structure Sorter where
  sort : {β : Type} → (β → β → Bool) → List β → List β

/-- `sort.Sort` permutes; with a strict weak ordering no element ends up before one that is
less than it; on at most twelve elements it is `insertionSort`. -/
structure Sorter.Lawful (S : Sorter) : Prop where
  perm : ∀ {β : Type} (less : β → β → Bool) (l : List β), (S.sort less l).Perm l
  sorted : ∀ {β : Type} (less : β → β → Bool) (l : List β), StrictWeakOn less l →
    (S.sort less l).Pairwise fun a b => less b a = false
  short : ∀ {β : Type} (less : β → β → Bool) (l : List β), l.length ≤ 12 →
    S.sort less l = insertionSort less l

def Sorter.sample : Sorter := ⟨insertionSort⟩

theorem Sorter.sample_lawful : Sorter.sample.Lawful where
  perm _ := insertionSort_perm
  sorted _ _ h := insertionSort_sorted h
  short _ _ _ := rfl

namespace Sorter.Lawful

variable {S : Sorter} (hS : S.Lawful) {β : Type} {less : β → β → Bool} {l : List β}
include hS

theorem length_sort : (S.sort less l).length = l.length :=
  (hS.perm less l).length_eq

theorem mem_sort {a : β} : a ∈ S.sort less l ↔ a ∈ l :=
  (hS.perm less l).mem_iff

theorem not_less_of_take_drop (h : StrictWeakOn less l) (k : Nat) :
    ∀ a ∈ (S.sort less l).take k, ∀ b ∈ (S.sort less l).drop k, less b a = false := by
  have hs := hS.sorted less l h
  rw [← List.take_append_drop k (S.sort less l)] at hs
  exact (List.pairwise_append.mp hs).2.2

theorem head_mem {m : β} {rest : List β} (hsort : S.sort less l = m :: rest) : m ∈ l :=
  hS.mem_sort.mp (hsort ▸ List.mem_cons_self)

theorem not_less_head (h : StrictWeakOn less l) {m : β} {rest : List β}
    (hsort : S.sort less l = m :: rest) : ∀ b ∈ l, less b m = false := by
  intro b hb
  have hs := hS.sorted less l h
  rw [hsort] at hs
  rw [← hS.mem_sort, hsort] at hb
  rcases List.mem_cons.mp hb with rfl | hb
  · exact h.irrefl (hS.head_mem hsort)
  · exact List.rel_of_pairwise_cons hs hb

end Sorter.Lawful

end ClusterApi.Lib.GoSort
