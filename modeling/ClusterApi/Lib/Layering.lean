import Mathlib

/-!
# Admission in rounds

Items, each with a list of dependencies. Every round admits, as one group, the items not yet
admitted whose dependencies have all been admitted in earlier rounds, and the loop stops at the
first empty round. The groups are disjoint and respect the dependencies. An item ends up
admitted exactly when it is `Admissible`: an item whose dependencies are, inductively,
admissible items. An item on a dependency cycle, or depending on something that is not an
item, is never admitted.
-/

namespace ClusterApi.Lib.Layering

variable {α : Type*} [DecidableEq α] (items : List α) (deps : α → List α)

def ready (placed : List α) : List α :=
  items.filter fun x => x ∉ placed ∧ ∀ d ∈ deps x, d ∈ placed

def unplacedCount (placed : List α) : Nat :=
  (items.filter (· ∉ placed)).length

theorem mem_ready {placed : List α} {x : α} :
    x ∈ ready items deps placed ↔ x ∈ items ∧ x ∉ placed ∧ ∀ d ∈ deps x, d ∈ placed := by
  simp [ready]

theorem unplacedCount_lt {placed : List α} (h : ready items deps placed ≠ []) :
    unplacedCount items (placed ++ ready items deps placed) < unplacedCount items placed := by
  obtain ⟨x, hx⟩ := List.exists_mem_of_ne_nil _ h
  have hx' := (mem_ready items deps).mp hx
  have hsplit : items.filter (· ∉ placed ++ ready items deps placed) =
      (items.filter (· ∉ placed)).filter (· ∉ ready items deps placed) := by
    rw [List.filter_filter]
    congr 1
    funext y
    simp [Bool.and_comm]
  unfold unplacedCount
  rw [hsplit, List.length_filter_lt_length_iff_exists]
  exact ⟨x, by simp [hx'.1, hx'.2.1], by simpa using hx⟩

def layersFrom (groups : List (List α)) : List (List α) :=
  if ready items deps groups.flatten = [] then groups
  else layersFrom (groups ++ [ready items deps groups.flatten])
termination_by unplacedCount items groups.flatten
decreasing_by simpa [List.flatten_append] using unplacedCount_lt items deps ‹_›

def layers : List (List α) := layersFrom items deps []

structure Layered (groups : List (List α)) : Prop where
  nonempty : ∀ g ∈ groups, g ≠ []
  sub : ∀ g ∈ groups, ∀ x ∈ g, x ∈ items
  nodup : groups.flatten.Nodup
  earlier : ∀ i (hi : i < groups.length), ∀ x ∈ groups[i], ∀ d ∈ deps x,
    d ∈ (groups.take i).flatten

omit [DecidableEq α] in
theorem layered_nil : Layered items deps [] :=
  ⟨by simp, by simp, by simp, by simp⟩

theorem Layered.step (hnodup : items.Nodup) {groups : List (List α)}
    (hl : Layered items deps groups) (h : ready items deps groups.flatten ≠ []) :
    Layered items deps (groups ++ [ready items deps groups.flatten]) := by
  refine ⟨?_, ?_, ?_, ?_⟩
  · intro g hg
    rcases List.mem_append.mp hg with hg | hg
    · exact hl.nonempty g hg
    · rw [List.mem_singleton.mp hg]
      exact h
  · intro g hg x hx
    rcases List.mem_append.mp hg with hg | hg
    · exact hl.sub g hg x hx
    · rw [List.mem_singleton.mp hg] at hx
      exact ((mem_ready items deps).mp hx).1
  · rw [List.flatten_append, List.flatten_singleton, List.nodup_append]
    refine ⟨hl.nodup, hnodup.filter _, ?_⟩
    intro a ha b hb hab
    subst hab
    exact ((mem_ready items deps).mp hb).2.1 ha
  · intro i hi x hx d hd
    rw [List.length_append, List.length_singleton] at hi
    rcases Nat.lt_succ_iff_lt_or_eq.mp hi with hlt | rfl
    · rw [List.getElem_append_left hlt] at hx
      rw [List.take_append_of_le_length hlt.le]
      exact hl.earlier i hlt x hx d hd
    · rw [List.getElem_append_right (le_refl _)] at hx
      simp only [Nat.sub_self, List.getElem_singleton] at hx
      rw [List.take_left' rfl]
      exact ((mem_ready items deps).mp hx).2.2 d hd

theorem layersFrom_spec (hnodup : items.Nodup) (groups : List (List α))
    (hl : Layered items deps groups) :
    Layered items deps (layersFrom items deps groups) ∧
      ready items deps (layersFrom items deps groups).flatten = [] := by
  fun_induction layersFrom items deps groups with
  | case1 groups h => exact ⟨hl, h⟩
  | case2 groups h ih => exact ih (hl.step items deps hnodup h)

theorem layers_layered (hnodup : items.Nodup) : Layered items deps (layers items deps) :=
  (layersFrom_spec items deps hnodup [] (layered_nil items deps)).1

theorem ready_layers (hnodup : items.Nodup) : ready items deps (layers items deps).flatten = [] :=
  (layersFrom_spec items deps hnodup [] (layered_nil items deps)).2

inductive Admissible : α → Prop
  | intro {x : α} : x ∈ items → (∀ d ∈ deps x, Admissible d) → Admissible x

omit [DecidableEq α] in
theorem Layered.admissible {groups : List (List α)} (hl : Layered items deps groups) :
    ∀ i (hi : i < groups.length), ∀ x ∈ groups[i], Admissible items deps x := by
  intro i
  induction i using Nat.strong_induction_on with
  | _ i ih =>
    intro hi x hx
    refine .intro (hl.sub _ (List.getElem_mem hi) x hx) fun d hd => ?_
    obtain ⟨g, hg, hdg⟩ := List.mem_flatten.mp (hl.earlier i hi x hx d hd)
    obtain ⟨j, hj, rfl⟩ := List.getElem_of_mem hg
    rw [List.length_take] at hj
    rw [List.getElem_take] at hdg
    exact ih j (by omega) (by omega) d hdg

theorem mem_layers_iff (hnodup : items.Nodup) {x : α} :
    x ∈ (layers items deps).flatten ↔ Admissible items deps x := by
  constructor
  · intro hx
    obtain ⟨g, hg, hxg⟩ := List.mem_flatten.mp hx
    obtain ⟨i, hi, rfl⟩ := List.getElem_of_mem hg
    exact (layers_layered items deps hnodup).admissible items deps i hi x hxg
  · intro hadm
    induction hadm with
    | @intro y hitem _ ih =>
      by_contra hy
      have hready : y ∈ ready items deps (layers items deps).flatten :=
        (mem_ready items deps).mpr ⟨hitem, hy, ih⟩
      rw [ready_layers items deps hnodup] at hready
      exact List.not_mem_nil hready

end ClusterApi.Lib.Layering
