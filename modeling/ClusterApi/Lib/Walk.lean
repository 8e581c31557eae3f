import Mathlib

/-!
# Walks with no visited set

A recursive depth-first walk that marks a node, then walks on from every node it has an edge to,
in the order of a list, and keeps no set of the nodes it has visited. `walk` bounds the depth of
its recursion by a fuel, and gives `none` for a walk deeper than the fuel, so "the walk returns"
is "some fuel gives a result".

From a node on a cycle the walk is deeper than every fuel. From a node where no infinite path
starts, some fuel suffices, every larger fuel gives the same result, and when a mark is a join
the result joins the marks of all nodes reachable, whatever the order of the list.
-/

namespace ClusterApi.Lib.Walk

variable {α σ : Type*} (nodes : List α) (edge : α → α → Bool) (mark : α → σ → σ)

def walk : Nat → α → σ → Option σ
  | 0, _, _ => none
  | fuel + 1, a, s =>
    nodes.foldlM (fun s b => if edge a b then walk fuel b s else some s) (mark a s)

def Next (a b : α) : Prop := b ∈ nodes ∧ edge a b = true

variable {nodes edge mark}

theorem walk_succ {fuel : Nat} {a : α} {s : σ} :
    walk nodes edge mark (fuel + 1) a s =
      nodes.foldlM (fun s b => if edge a b then walk nodes edge mark fuel b s else some s)
        (mark a s) := rfl

theorem foldlM_eq_none {β : Type*} {l : List β} {g : σ → β → Option σ} {b : β} (hb : b ∈ l)
    (hg : ∀ s, g s b = none) (s : σ) : l.foldlM g s = none := by
  induction l generalizing s with
  | nil => cases hb
  | cons x rest ih =>
    rw [List.foldlM_cons]
    rcases List.mem_cons.mp hb with rfl | hrest
    · rw [hg]
      rfl
    · cases g s x with
      | none => rfl
      | some s' => exact ih hrest s'

/-- From a set of nodes each of which has an edge into the set, the walk is deeper than every
fuel. -/
theorem walk_eq_none_of_cycle {C : Set α} (hC : ∀ a ∈ C, ∃ b ∈ C, Next nodes edge a b) :
    ∀ fuel, ∀ a ∈ C, ∀ s, walk nodes edge mark fuel a s = none := by
  intro fuel
  induction fuel with
  | zero => intro _ _ _; rfl
  | succ fuel ih =>
    intro a ha s
    obtain ⟨b, hbC, hb, hedge⟩ := hC a ha
    rw [walk_succ]
    exact foldlM_eq_none hb (fun s => by rw [if_pos hedge, ih b hbC s]) _

theorem exists_bound_of_forall_mem {β : Type*} {P : β → Prop} {Q : β → Nat → Prop}
    {l : List β} (h : ∀ b ∈ l, P b → ∃ f, ∀ f' ≥ f, Q b f') :
    ∃ F, ∀ b ∈ l, P b → ∀ f' ≥ F, Q b f' := by
  induction l with
  | nil => exact ⟨0, fun _ hb => absurd hb List.not_mem_nil⟩
  | cons x rest ih =>
    obtain ⟨F, hF⟩ := ih fun b hb => h b (List.mem_cons_of_mem _ hb)
    by_cases hx : P x
    · obtain ⟨f, hf⟩ := h x List.mem_cons_self hx
      refine ⟨max f F, fun b hb hPb f' hf' => ?_⟩
      rcases List.mem_cons.mp hb with rfl | hrest
      · exact hf f' (le_of_max_le_left hf')
      · exact hF b hrest hPb f' (le_of_max_le_right hf')
    · refine ⟨F, fun b hb hPb => ?_⟩
      rcases List.mem_cons.mp hb with rfl | hrest
      · exact absurd hPb hx
      · exact hF b hrest hPb

/-! ### Walks that join marks -/

section Join

variable [CompleteLattice σ] {δ : α → σ}

variable (nodes edge δ) in
noncomputable def reachMarks (a : α) : σ :=
  ⨆ (b) (_ : Relation.ReflTransGen (Next nodes edge) a b), δ b

theorem foldlM_join {β : Type*} {l : List β} {g : σ → β → Option σ} {F : β → σ}
    (hg : ∀ b ∈ l, ∀ s, g s b = some (s ⊔ F b)) (s : σ) :
    l.foldlM g s = some (s ⊔ ⨆ (b) (_ : b ∈ l), F b) := by
  induction l generalizing s with
  | nil => simp
  | cons x rest ih =>
    rw [List.foldlM_cons, hg x List.mem_cons_self]
    change rest.foldlM g (s ⊔ F x) = _
    rw [ih fun b hb => hg b (List.mem_cons_of_mem _ hb)]
    congr 1
    simp only [List.mem_cons, iSup_or, iSup_sup_eq, iSup_iSup_eq_left, sup_assoc]

theorem reachMarks_eq (a : α) :
    reachMarks nodes edge δ a = δ a ⊔ ⨆ (b) (_ : Next nodes edge a b), reachMarks nodes edge δ b := by
  apply le_antisymm
  · refine iSup₂_le fun c hc => ?_
    rcases Relation.ReflTransGen.cases_head hc with rfl | ⟨b, hab, hbc⟩
    · exact le_sup_left
    · exact le_sup_of_le_right (le_iSup₂_of_le b hab (le_iSup₂_of_le c hbc le_rfl))
  · refine sup_le (le_iSup₂_of_le a .refl le_rfl) (iSup₂_le fun b hab => iSup₂_le fun c hbc => ?_)
    exact le_iSup₂_of_le c (Relation.ReflTransGen.head hab hbc) le_rfl

theorem iSup_eq_true {ι : Sort*} (f : ι → Bool) : iSup f = true ↔ ∃ i, f i = true := by
  constructor
  · intro h
    by_contra hne
    simp only [not_exists, Bool.not_eq_true] at hne
    have hle : iSup f ≤ false := iSup_le fun i => le_of_eq (hne i)
    rw [h] at hle
    exact absurd hle (by decide)
  · rintro ⟨i, hi⟩
    have hle := le_iSup f i
    rw [hi] at hle
    cases h : iSup f
    · rw [h] at hle
      exact absurd hle (by decide)
    · rfl

variable (hmark : ∀ a s, mark a s = s ⊔ δ a)
include hmark

theorem walk_of_acc {a : α} (ha : Acc (fun b a => Next nodes edge a b) a) :
    ∃ f, ∀ fuel ≥ f, ∀ s, walk nodes edge mark fuel a s = some (s ⊔ reachMarks nodes edge δ a) := by
  induction ha with
  | intro a _ ih =>
    -- one fuel for all the nodes `a` has an edge to
    obtain ⟨F, hF⟩ := exists_bound_of_forall_mem (l := nodes)
      (Q := fun b f => ∀ s, walk nodes edge mark f b s = some (s ⊔ reachMarks nodes edge δ b))
      fun b hb hedge => ih b ⟨hb, hedge⟩
    refine ⟨F + 1, fun fuel hfuel s => ?_⟩
    obtain ⟨fuel, rfl⟩ : ∃ f, fuel = f + 1 := ⟨fuel - 1, by omega⟩
    rw [walk_succ, foldlM_join (F := fun b => if edge a b then reachMarks nodes edge δ b else ⊥)
      (fun b hb s => by
        split_ifs with hedge
        · exact hF b hb hedge fuel (by omega) s
        · rw [sup_bot_eq])]
    rw [hmark, reachMarks_eq a, sup_assoc]
    congr 3
    apply le_antisymm
    · refine iSup₂_le fun b hb => ?_
      split_ifs with hedge
      · exact le_iSup₂_of_le b ⟨hb, hedge⟩ le_rfl
      · exact bot_le
    · exact iSup₂_le fun b hab => le_iSup₂_of_le b hab.1 (by rw [if_pos hab.2])

end Join

end ClusterApi.Lib.Walk
