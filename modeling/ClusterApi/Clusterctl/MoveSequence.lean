import ClusterApi.Lib.Layering

/-!
# The order of `clusterctl move`

`getMoveSequence` (`cmd/clusterctl/client/cluster/mover.go`) groups the move nodes of the object
graph (`getMoveNodes`, `objectgraph.go`): each round admits the move nodes not yet in the
sequence whose owners and soft owners are all in it, and the loop stops at the first empty
round. That is `Lib.Layering` over the move nodes, with owners and soft owners as dependencies.
A node is identified by its UID, and `uidToNode` lists the graph's nodes in the order the map
is iterated; Go iterates the map afresh in every round, which only reorders a group.
-/

namespace ClusterApi.Clusterctl
open ClusterApi.Lib

/-- What the move sequence reads of a `node`: the keys of `owners`, `softOwners` and `tenant`,
and `forceMove`. -/
structure Node (UID : Type) where
  owners : List UID
  softOwners : List UID
  tenant : List UID
  forceMove : Bool

structure ObjectGraph (UID : Type) where
  uidToNode : List UID
  node : UID → Node UID
  nodup : uidToNode.Nodup

variable {UID : Type} [DecidableEq UID] (graph : ObjectGraph UID)

def getMoveNodes : List UID :=
  graph.uidToNode.filter fun n => (graph.node n).tenant ≠ [] ∨ (graph.node n).forceMove = true

def allOwners (n : UID) : List UID :=
  (graph.node n).owners ++ (graph.node n).softOwners

def getMoveSequence : List (List UID) :=
  Layering.layers (getMoveNodes graph) (allOwners graph)

omit [DecidableEq UID] in
theorem getMoveNodes_nodup : (getMoveNodes graph).Nodup :=
  graph.nodup.filter _

theorem getMoveSequence_layered :
    Layering.Layered (getMoveNodes graph) (allOwners graph) (getMoveSequence graph) :=
  Layering.layers_layered _ _ (getMoveNodes_nodup graph)

theorem mem_getMoveSequence_iff {n : UID} :
    n ∈ (getMoveSequence graph).flatten ↔ Layering.Admissible (getMoveNodes graph) (allOwners graph) n :=
  Layering.mem_layers_iff _ _ (getMoveNodes_nodup graph)

theorem getMoveSequence_complete
    (hwf : WellFounded fun o n => o ∈ allOwners graph n)
    (hclosed : ∀ n ∈ getMoveNodes graph, ∀ o ∈ allOwners graph n, o ∈ getMoveNodes graph)
    {n : UID} (hn : n ∈ getMoveNodes graph) : n ∈ (getMoveSequence graph).flatten := by
  rw [mem_getMoveSequence_iff]
  induction n using hwf.induction with
  | _ n ih => exact .intro hn fun o ho => ih o ho (hclosed n hn o ho)

theorem not_mem_getMoveSequence {n o : UID} (ho : o ∈ allOwners graph n)
    (hmove : o ∉ getMoveNodes graph) : n ∉ (getMoveSequence graph).flatten := by
  rw [mem_getMoveSequence_iff]
  rintro ⟨-, hdeps⟩
  cases hdeps o ho with
  | intro hitem _ => exact hmove hitem

/-- A Cluster (tenant of itself), a Machine owned by the Cluster and by a virtual node of a kind
outside the discovery types (no owners, no tenant). -/
def graphWithVirtualOwner : ObjectGraph String where
  uidToNode := ["cluster", "machine", "virtual"]
  node n :=
    if n = "cluster" then ⟨[], [], ["cluster"], false⟩
    else if n = "machine" then ⟨["cluster", "virtual"], [], ["cluster"], false⟩
    else ⟨[], [], [], false⟩
  nodup := by decide

theorem getMoveSequence_drops_machine :
    "machine" ∈ getMoveNodes graphWithVirtualOwner ∧
    "machine" ∉ (getMoveSequence graphWithVirtualOwner).flatten :=
  ⟨by decide, not_mem_getMoveSequence graphWithVirtualOwner
    (show "virtual" ∈ allOwners graphWithVirtualOwner "machine" by decide) (by decide)⟩

end ClusterApi.Clusterctl
