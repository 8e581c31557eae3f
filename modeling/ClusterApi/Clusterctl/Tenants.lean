import ClusterApi.Lib.Walk

/-!
# Tenants and the hierarchies of `clusterctl move`

`setTenants` and `setShouldNotDeleteHierarchy` (`cmd/clusterctl/client/cluster/objectgraph.go`)
walk from a node to every node it owns or soft-owns (`setTenantHierarchy`), or owns, recursing
with no set of the nodes visited: each is `Lib.Walk.walk`, its recursion bounded by a fuel. Owner
references are set by users, so the owner relation may have a cycle, and a walk into it never
returns. Where no cycle is reachable some fuel suffices, and the walks mark exactly the nodes
reachable. `getNodes` lists the nodes in the order `uidToNode` is iterated.
-/

namespace ClusterApi.Clusterctl
open ClusterApi.Lib

/-- What the hierarchy walks read of a `node`: the keys of `owners` and `softOwners`,
`forceMoveHierarchy` and `isGlobal`. -/
structure HierarchyNode (UID : Type) where
  owners : List UID
  softOwners : List UID
  forceMoveHierarchy : Bool
  isGlobal : Bool

structure HierarchyGraph (UID : Type) where
  uidToNode : List UID
  node : UID → HierarchyNode UID

abbrev Tenants (UID : Type) := (UID → UID → Bool) × (UID → Bool)

variable {UID : Type} [DecidableEq UID] (graph : HierarchyGraph UID)

def isOwnedBy (n other : UID) : Bool := other ∈ (graph.node n).owners

def isSoftOwnedBy (n other : UID) : Bool := other ∈ (graph.node n).softOwners

/-- `setTenantHierarchy` goes on from `node` to every `other` with
`other.isOwnedBy(node) || other.isSoftOwnedBy(node)`. -/
def isDependentOf (node other : UID) : Bool :=
  isOwnedBy graph other node || isSoftOwnedBy graph other node

def markTenant (tenant : UID) (isGlobalHierarchy : Bool) (node : UID) (s : Tenants UID) :
    Tenants UID :=
  (Function.update s.1 node (Function.update (s.1 node) tenant true),
    Function.update s.2 node (s.2 node || isGlobalHierarchy))

def setTenantHierarchy (fuel : Nat) (node tenant : UID) (isGlobalHierarchy : Bool)
    (s : Tenants UID) : Option (Tenants UID) :=
  Walk.walk graph.uidToNode (isDependentOf graph) (markTenant tenant isGlobalHierarchy) fuel node s

def setTenants (fuel : Nat) (s : Tenants UID) : Option (Tenants UID) :=
  graph.uidToNode.foldlM (fun s node =>
    if (graph.node node).forceMoveHierarchy then
      setTenantHierarchy graph fuel node node (graph.node node).isGlobal s
    else some s) s

def setShouldNotDeleteHierarchy (fuel : Nat) (node : UID) (shouldNotDelete : UID → Bool) :
    Option (UID → Bool) :=
  Walk.walk graph.uidToNode (fun node other => isOwnedBy graph other node)
    (fun node shouldNotDelete => Function.update shouldNotDelete node true) fuel node shouldNotDelete

/-! ### An owner cycle -/

/-- A Cluster and a Secret that own each other; Clusters move with their hierarchy. -/
def graphWithOwnerCycle : HierarchyGraph String where
  uidToNode := ["cluster", "secret"]
  node n := if n = "cluster" then ⟨["secret"], [], true, false⟩ else ⟨["cluster"], [], false, false⟩

/-- Neither walk returns on the owner cycle, whatever the fuel: `setTenants` recurses from the
Cluster to the Secret and back, and so does `setShouldNotDeleteHierarchy`. -/
theorem hierarchy_walks_never_return :
    (∀ fuel s, setTenants graphWithOwnerCycle fuel s = none) ∧
      ∀ fuel shouldNotDelete,
        setShouldNotDeleteHierarchy graphWithOwnerCycle fuel "cluster" shouldNotDelete = none := by
  have hcycle : ∀ (edge : String → String → Bool),
      (∀ a b, isOwnedBy graphWithOwnerCycle b a = true → edge a b = true) →
      ∀ a ∈ ({"cluster", "secret"} : Set String), ∃ b ∈ ({"cluster", "secret"} : Set String),
        Walk.Next graphWithOwnerCycle.uidToNode edge a b := by
    intro edge hedge a ha
    rcases ha with rfl | rfl
    · exact ⟨"secret", by simp, by decide, hedge _ _ (by decide)⟩
    · exact ⟨"cluster", by simp, by decide, hedge _ _ (by decide)⟩
  refine ⟨fun fuel s => ?_, fun fuel shouldNotDelete => ?_⟩
  · unfold setTenants
    refine Walk.foldlM_eq_none (b := "cluster") (by decide) (fun s => ?_) s
    exact Walk.walk_eq_none_of_cycle
      (hcycle _ fun a b h => by simp [isDependentOf, h]) fuel "cluster" (by simp) s
  · exact Walk.walk_eq_none_of_cycle (hcycle _ fun a b h => h) fuel "cluster" (by simp) _


/-! ### Graphs with no cycle below a hierarchy -/

def tenantMark (tenant : UID) (isGlobalHierarchy : Bool) (node : UID) : Tenants UID :=
  (fun n u => decide (n = node ∧ u = tenant), fun n => decide (n = node) && isGlobalHierarchy)

theorem markTenant_eq_sup (tenant : UID) (isGlobalHierarchy : Bool) (node : UID)
    (s : Tenants UID) :
    markTenant tenant isGlobalHierarchy node s = s ⊔ tenantMark tenant isGlobalHierarchy node := by
  refine Prod.ext (funext fun n => funext fun u => ?_) (funext fun n => ?_)
  · by_cases hn : n = node
    · subst hn
      by_cases hu : u = tenant
      · subst hu
        simp [markTenant, tenantMark]
      · simp [markTenant, tenantMark, hu]
    · simp [markTenant, tenantMark, hn]
  · by_cases hn : n = node
    · subst hn
      simp [markTenant, tenantMark]
    · simp [markTenant, tenantMark, hn]

def Reaches (t n : UID) : Prop :=
  Relation.ReflTransGen (Walk.Next graph.uidToNode (isDependentOf graph)) t n

theorem reachMarks_tenantMark (t : UID) (isGlobalHierarchy : Bool) (n u : UID) :
    ((Walk.reachMarks graph.uidToNode (isDependentOf graph) (tenantMark t isGlobalHierarchy) t).1 n u =
        true ↔ u = t ∧ Reaches graph t n) ∧
      ((Walk.reachMarks graph.uidToNode (isDependentOf graph) (tenantMark t isGlobalHierarchy) t).2 n =
        true ↔ isGlobalHierarchy = true ∧ Reaches graph t n) := by
  unfold Walk.reachMarks
  simp only [Prod.fst_iSup, Prod.snd_iSup, iSup_apply, Walk.iSup_eq_true, tenantMark]
  constructor
  · constructor
    · rintro ⟨b, hb, h⟩
      simp only [decide_eq_true_eq] at h
      obtain ⟨rfl, rfl⟩ := h
      exact ⟨rfl, hb⟩
    · rintro ⟨rfl, hn⟩
      exact ⟨n, hn, by simp⟩
  · constructor
    · rintro ⟨b, hb, h⟩
      simp only [Bool.and_eq_true, decide_eq_true_eq] at h
      obtain ⟨rfl, hg⟩ := h
      exact ⟨hg, hb⟩
    · rintro ⟨hg, hn⟩
      exact ⟨n, hn, by simp [hg]⟩

theorem setTenants_spec
    (hacc : ∀ t ∈ graph.uidToNode, (graph.node t).forceMoveHierarchy = true →
      Acc (fun b a => Walk.Next graph.uidToNode (isDependentOf graph) a b) t) :
    ∃ f, ∀ fuel ≥ f, ∃ s, setTenants graph fuel ⊥ = some s ∧
      (∀ n t, s.1 n t = true ↔ t ∈ graph.uidToNode ∧ (graph.node t).forceMoveHierarchy = true ∧
        Reaches graph t n) ∧
      (∀ n, s.2 n = true ↔ ∃ t ∈ graph.uidToNode, (graph.node t).forceMoveHierarchy = true ∧
        (graph.node t).isGlobal = true ∧ Reaches graph t n) := by
  -- one fuel for every walk from a node moved with its hierarchy
  obtain ⟨F, hF⟩ := Walk.exists_bound_of_forall_mem (l := graph.uidToNode)
    (Q := fun t f => ∀ s, setTenantHierarchy graph f t t (graph.node t).isGlobal s =
      some (s ⊔ Walk.reachMarks graph.uidToNode (isDependentOf graph)
        (tenantMark t (graph.node t).isGlobal) t))
    fun t ht hmove => Walk.walk_of_acc (markTenant_eq_sup t _) (hacc t ht hmove)
  refine ⟨F, fun fuel hfuel => ?_⟩
  rw [setTenants, Walk.foldlM_join (F := fun t => if (graph.node t).forceMoveHierarchy then
      Walk.reachMarks graph.uidToNode (isDependentOf graph) (tenantMark t (graph.node t).isGlobal) t
    else ⊥) fun t ht s => by
      split_ifs with hmove
      · exact hF t ht hmove fuel hfuel s
      · rw [sup_bot_eq]]
  refine ⟨_, rfl, fun n u => ?_, fun n => ?_⟩
  · simp only [bot_sup_eq, Prod.fst_iSup, iSup_apply, Walk.iSup_eq_true]
    constructor
    · rintro ⟨t, ht, h⟩
      split_ifs at h with hmove
      obtain ⟨rfl, hn⟩ := ((reachMarks_tenantMark graph t _ n u).1).mp h
      exact ⟨ht, hmove, hn⟩
    · rintro ⟨ht, hmove, hn⟩
      refine ⟨u, ht, ?_⟩
      rw [if_pos hmove]
      exact ((reachMarks_tenantMark graph u _ n u).1).mpr ⟨rfl, hn⟩
  · simp only [bot_sup_eq, Prod.snd_iSup, iSup_apply, Walk.iSup_eq_true]
    constructor
    · rintro ⟨t, ht, h⟩
      split_ifs at h with hmove
      obtain ⟨hglobal, hn⟩ := ((reachMarks_tenantMark graph t _ n n).2).mp h
      exact ⟨t, ht, hmove, hglobal, hn⟩
    · rintro ⟨t, ht, hmove, hglobal, hn⟩
      refine ⟨t, ht, ?_⟩
      rw [if_pos hmove]
      exact ((reachMarks_tenantMark graph t _ n n).2).mpr ⟨hglobal, hn⟩


theorem setShouldNotDeleteHierarchy_spec {node : UID}
    (hacc : Acc (fun b a => Walk.Next graph.uidToNode (fun node other => isOwnedBy graph other node)
      a b) node) :
    ∃ f, ∀ fuel ≥ f, ∀ shouldNotDelete, ∃ s,
      setShouldNotDeleteHierarchy graph fuel node shouldNotDelete = some s ∧
      ∀ n, s n = true ↔ shouldNotDelete n = true ∨ Relation.ReflTransGen
        (Walk.Next graph.uidToNode (fun node other => isOwnedBy graph other node)) node n := by
  have hmark : ∀ (m : UID) (s : UID → Bool),
      Function.update s m true = s ⊔ fun n => decide (n = m) := by
    intro m s
    funext n
    by_cases hn : n = m
    · subst hn
      simp
    · simp [hn]
  obtain ⟨f, hf⟩ := Walk.walk_of_acc hmark hacc
  refine ⟨f, fun fuel hfuel shouldNotDelete => ⟨_, hf fuel hfuel shouldNotDelete, fun n => ?_⟩⟩
  simp only [Walk.reachMarks, Pi.sup_apply, iSup_apply, Bool.sup_eq_bor, Bool.or_eq_true,
    Walk.iSup_eq_true, decide_eq_true_eq]
  constructor
  · rintro (h | ⟨b, hb, rfl⟩)
    · exact .inl h
    · exact .inr hb
  · rintro (h | h)
    · exact .inl h
    · exact .inr ⟨n, h, rfl⟩

end ClusterApi.Clusterctl
