import Mathlib

/-!
# Lists keyed by a field

Lists of records looked up by a key field, as Kubernetes keeps conditions by type: the first
element with a key (`findKey`), replacing it (`replaceKey`), dropping every element with a key
(`eraseKey`). With unique keys a lookup does not depend on the order of the list.
-/

namespace ClusterApi.Lib.KeyedList

variable {α κ : Type*} [DecidableEq κ] (key : α → κ)

def findKey (l : List α) (k : κ) : Option α :=
  l.find? fun a => key a = k

def replaceKey : List α → κ → α → List α
  | [], _, _ => []
  | a :: l, k, b => if key a = k then b :: l else a :: replaceKey l k b

def eraseKey (l : List α) (k : κ) : List α :=
  l.filter fun a => key a ≠ k

variable {key} {l l' : List α} {k k' : κ} {a b : α}

theorem findKey_eq_none : findKey key l k = none ↔ k ∉ l.map key := by
  simp [findKey]

theorem key_of_findKey (h : findKey key l k = some a) : key a = k := by
  simpa using List.find?_some h

theorem mem_of_findKey (h : findKey key l k = some a) : a ∈ l :=
  List.mem_of_find?_eq_some h

theorem findKey_append_singleton (hb : findKey key l (key b) = none) :
    findKey key (l ++ [b]) k = if k = key b then some b else findKey key l k := by
  unfold findKey at *
  rw [List.find?_append]
  split_ifs with hk
  · subst hk
    simp [hb]
  · simp [Ne.symm hk]

theorem findKey_replaceKey (hb : key b = k) :
    findKey key (replaceKey key l k b) k' =
      if k' = k then (findKey key l k).map fun _ => b else findKey key l k' := by
  induction l with
  | nil => simp [replaceKey, findKey]
  | cons x l ih =>
    by_cases hx : key x = k
    · by_cases hk : k' = k
      · subst hk
        simp [replaceKey, findKey, hx, hb]
      · simp [replaceKey, findKey, hx, hb, hk, Ne.symm hk]
    · simp only [replaceKey, hx, if_false]
      unfold findKey at ih ⊢
      by_cases hk : key x = k'
      · subst hk
        simp [hx]
      · simpa [hk, hx] using ih

theorem map_key_replaceKey (hb : key b = k) : (replaceKey key l k b).map key = l.map key := by
  induction l with
  | nil => rfl
  | cons x l ih =>
    by_cases hx : key x = k
    · simp [replaceKey, hx, hb]
    · simp [replaceKey, hx, ih]

theorem findKey_eraseKey : findKey key (eraseKey key l k) k' =
    if k' = k then none else findKey key l k' := by
  unfold findKey eraseKey
  rw [List.find?_filter]
  split_ifs with hk
  · subst hk
    simp
  · congr 1
    funext a
    by_cases ha : key a = k'
    · simp [ha, hk]
    · simp [ha]

theorem nodup_map_eraseKey (h : (l.map key).Nodup) : ((eraseKey key l k).map key).Nodup := by
  unfold eraseKey
  exact (List.filter_sublist.map key).nodup h

theorem findKey_eq_some_iff (h : (l.map key).Nodup) :
    findKey key l k = some a ↔ a ∈ l ∧ key a = k := by
  constructor
  · intro hf
    exact ⟨mem_of_findKey hf, key_of_findKey hf⟩
  · rintro ⟨ha, rfl⟩
    cases hf : findKey key l (key a) with
    | none =>
      rw [findKey_eq_none] at hf
      exact absurd (List.mem_map_of_mem ha) hf
    | some a' =>
      have ha' := mem_of_findKey hf
      have hkey := key_of_findKey hf
      rw [List.inj_on_of_nodup_map h ha' ha hkey]

theorem findKey_perm (h : (l.map key).Nodup) (hp : l.Perm l') : findKey key l k = findKey key l' k := by
  have h' : (l'.map key).Nodup := (hp.map key).nodup_iff.mp h
  apply Option.ext
  intro a
  rw [findKey_eq_some_iff h, findKey_eq_some_iff h', hp.mem_iff]

theorem pairwise_mergeSort_key {β : Type*} [LinearOrder β] (f : α → β) {less : α → α → Bool}
    (hless : ∀ a b, less a b = true ↔ f a < f b) (l : List α) :
    (l.mergeSort fun a b => !less b a).Pairwise fun a b => f a ≤ f b := by
  have hle : ∀ a b, (!less b a) = true ↔ f a ≤ f b := by
    intro a b
    rw [Bool.not_eq_true', ← Bool.not_eq_true, hless, not_lt]
  have hsorted := @List.pairwise_mergeSort _ (fun a b => !less b a)
    (fun a b c hab hbc => (hle a c).mpr (((hle a b).mp hab).trans ((hle b c).mp hbc)))
    (fun a b => by
      rcases le_total (f a) (f b) with h | h
      · simp [(hle a b).mpr h]
      · simp [(hle b a).mpr h]) l
  exact hsorted.imp fun h => (hle _ _).mp h

omit [DecidableEq κ] in
theorem sum_map_of_eq_off_key {M : Type*} [AddCommGroup M] {g g' : α → M}
    (h : (l.map key).Nodup) (ha : a ∈ l) (hoff : ∀ b ∈ l, key b ≠ key a → g' b = g b) :
    (l.map g').sum = (l.map g).sum + (g' a - g a) := by
  induction l with
  | nil => cases ha
  | cons x rest ih =>
    rw [List.map_cons, List.nodup_cons] at h
    simp only [List.map_cons, List.sum_cons]
    rcases List.mem_cons.mp ha with rfl | hrest
    · -- every other element has another key, so the rest of the sum is unchanged
      have hsame : (rest.map g').sum = (rest.map g).sum := by
        congr 1
        refine List.map_congr_left fun b hb => hoff b (List.mem_cons_of_mem _ hb) ?_
        rintro hk
        exact h.1 (hk ▸ List.mem_map_of_mem hb)
      rw [hsame]
      abel
    · have hx : key x ≠ key a := fun hk => h.1 (hk ▸ List.mem_map_of_mem hrest)
      rw [hoff x List.mem_cons_self hx,
        ih h.2 hrest fun b hb => hoff b (List.mem_cons_of_mem _ hb)]
      abel

theorem mem_drop_iff_not_mem_take {l : List α} {a : α} (hl : l.Nodup) (ha : a ∈ l) (n : Nat) :
    a ∈ l.drop n ↔ a ∉ l.take n := by
  constructor
  · intro hd ht
    exact List.disjoint_take_drop hl le_rfl ht hd
  · intro ht
    rw [← List.take_append_drop n l] at ha
    exact (List.mem_append.mp ha).resolve_left ht

theorem mergeSort_pair (le : α → α → Bool) (a b : α) :
    [a, b].mergeSort le = if le a b then [a, b] else [b, a] := by
  rw [List.mergeSort]
  split_ifs with h <;> simp [h]

/-! ### The keys of a map filled in a loop

Go gives the keys of a map in no fixed order; a map filled in a loop is kept here with its keys
in the order they were first set. -/

def addKey (keys : List κ) (k : κ) : List κ := if k ∈ keys then keys else keys ++ [k]

section Keys

variable {keys : List κ}

theorem mem_addKey : k' ∈ addKey keys k ↔ k' = k ∨ k' ∈ keys := by
  unfold addKey
  split_ifs with hk
  · constructor
    · exact Or.inr
    · rintro (rfl | h)
      · exact hk
      · exact h
  · simp [or_comm]

theorem nodup_addKey (h : keys.Nodup) : (addKey keys k).Nodup := by
  unfold addKey
  split_ifs with hk
  · exact h
  · exact h.append (List.nodup_singleton k) (by simpa using hk)

theorem sum_length_filter {f : α → κ} (s : List α) (hkeys : keys.Nodup) :
    (keys.map fun k => (s.filter fun a => f a = k).length).sum =
      (s.filter fun a => f a ∈ keys).length := by
  induction keys with
  | nil => simp
  | cons k ks ih =>
    rw [List.nodup_cons] at hkeys
    have hsplit : ∀ t : List α, (t.filter fun a => f a = k ∨ f a ∈ ks).length =
        (t.filter fun a => f a = k).length + (t.filter fun a => f a ∈ ks).length := by
      intro t
      induction t with
      | nil => rfl
      | cons a t iht =>
        simp only [List.filter_cons]
        by_cases hk : f a = k
        · have hks : f a ∉ ks := hk ▸ hkeys.1
          rw [if_pos (by simp [hk]), if_pos (by simp [hk]), if_neg (by simpa using hks),
            List.length_cons, List.length_cons, iht]
          omega
        · by_cases hks : f a ∈ ks
          · rw [if_pos (by simp [hks]), if_neg (by simpa using hk), if_pos (by simpa using hks),
              List.length_cons, List.length_cons, iht]
            omega
          · rw [if_neg (by simp [hk, hks]), if_neg (by simpa using hk), if_neg (by simpa using hks),
              iht]
    simp only [List.map_cons, List.sum_cons, ih hkeys.2, List.mem_cons, hsplit]

end Keys

theorem sum_map_filterMap {β : Type*} (f : α → Option β) (g : β → Nat) (l : List α) :
    ((l.filterMap f).map g).sum = (l.map fun a => ((f a).map g).getD 0).sum := by
  induction l with
  | nil => rfl
  | cons a rest ih =>
    cases hf : f a <;> simp [hf, ih]

end ClusterApi.Lib.KeyedList
