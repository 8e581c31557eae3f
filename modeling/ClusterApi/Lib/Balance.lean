import Mathlib

/-!
# Balanced counts

A count per key is balanced over a list of keys when the counts of any two keys differ by at
most one. Adding one at a key of least count, or taking one from a key of greatest count, keeps
the counts balanced: these are the two moves of a policy that spreads items over keys.
-/

namespace ClusterApi.Lib.Balance

variable {ι : Type*} {keys : List ι} {u u' : ι → ℕ} {i : ι}

def Balanced (keys : List ι) (u : ι → ℕ) : Prop :=
  ∀ j ∈ keys, ∀ k ∈ keys, u j ≤ u k + 1

instance : Decidable (Balanced keys u) :=
  inferInstanceAs (Decidable (∀ j ∈ keys, ∀ k ∈ keys, u j ≤ u k + 1))

theorem Balanced.of_eq (h : Balanced keys u) (hu : ∀ j ∈ keys, u' j = u j) :
    Balanced keys u' := by
  intro j hj k hk
  rw [hu j hj, hu k hk]
  exact h j hj k hk

theorem Balanced.add_at_min [DecidableEq ι] (h : Balanced keys u) (hmin : ∀ k ∈ keys, u i ≤ u k)
    (hu : ∀ j, u' j = if j = i then u j + 1 else u j) : Balanced keys u' := by
  intro j hj k hk
  have hjk := h j hj k hk
  rw [hu j, hu k]
  by_cases hji : j = i
  · subst hji
    have := hmin k hk
    split_ifs <;> omega
  · rw [if_neg hji]
    split_ifs <;> omega

theorem Balanced.sub_at_max [DecidableEq ι] (h : Balanced keys u) (hmax : ∀ k ∈ keys, u k ≤ u i)
    (hu : ∀ j, u' j = if j = i then u j - 1 else u j) : Balanced keys u' := by
  intro j hj k hk
  have hjk := h j hj k hk
  rw [hu j, hu k]
  by_cases hki : k = i
  · subst hki
    have := hmax j hj
    split_ifs <;> omega
  · rw [if_neg hki]
    split_ifs <;> omega

end ClusterApi.Lib.Balance
