import ClusterApi.Topology.DesiredState
import ClusterApi.Lib.KeyedList
import ClusterApi.Lib.Trace

/-!
# Version skew over runs of topology reconciles

A world is the control plane and the MachineDeployments and MachinePools of a Cluster whose
topology is fixed. A reconcile computes the desired versions (`Generate`) and applies them as
`reconcileState` of `internal/controllers/topology/cluster/reconcile_state.go` does: the control
plane, and each worker, is left alone while it is pending an upgrade; a new worker is not
created while it is pending creation; a worker whose topology is gone is deleted. Between
reconciles the objects roll out, or do not: any change of their provisioning and upgrading
status that keeps every version. Everything the environment answers in a reconcile (the plan
function, the hooks, the feature gate) is an input of that reconcile.

The Kubernetes version skew rules, for versions of one major: no worker is newer than the
control plane, and the control plane is at most 3 minors ahead of every worker. From a state
that keeps them, every reconcile of every run gives no worker a version newer than the control
plane's, gives the control plane no version more than 3 minors ahead of any current worker, and
moves the control plane only to the head of the plan it computed. The one case that needs an
argument is the control plane taking a new minor while a worker is 3 minors behind: the workers
plan then starts at the control plane's own version (`DefaultAndValidateUpgradePlans_workers`),
and the control plane waits for the workers.
-/

namespace ClusterApi.Topology
open ClusterApi.Util ClusterApi.Lib.Trace ClusterApi.Lib.KeyedList

structure World where
  controlPlane : ControlPlaneState
  machineDeployments : List (String × WorkerState)
  machinePools : List (String × WorkerState)
  deriving DecidableEq, Repr

def World.current (w : World) : Current :=
  ⟨some w.controlPlane, w.machineDeployments, w.machinePools⟩

def World.workers (w : World) : List WorkerState :=
  (w.machineDeployments ++ w.machinePools).map (·.2)

def World.versions (w : World) : String × List (String × String × String) ×
    List (String × String × String) :=
  (w.controlPlane.version, w.machineDeployments.map fun p => (p.1, p.2.name, p.2.version),
    w.machinePools.map fun p => (p.1, p.2.name, p.2.version))

structure ReconcileInput where
  getUpgradePlan : GetUpgradePlanFunc
  runtimeSDK : Bool
  hooks : Hook → HookCall
  maxMDUpgradeConcurrency : Int
  maxMPUpgradeConcurrency : Int

/-- `reconcileControlPlane`: nothing is written while the control plane is pending an upgrade. -/
def reconcileControlPlane (t : UpgradeTracker) (version : String) (cp : ControlPlaneState) :
    ControlPlaneState :=
  if t.controlPlane.isPendingUpgrade then cp else { cp with version }

/-- `reconcileMachineDeployments` and `reconcileMachinePools`, on the versions: an existing
worker is updated unless pending an upgrade, a new one (named after its topology) is created
unless pending creation, one whose topology is gone is deleted. -/
def reconcileWorkers (tracker : WorkerUpgradeTracker) (current : List (String × WorkerState))
    (desired : List (String × String)) : List (String × WorkerState) :=
  desired.filterMap fun (topologyName, version) =>
    match current.lookup topologyName with
    | some ws => some (topologyName, if tracker.IsPendingUpgrade ws.name then ws else { ws with version })
    | none =>
      if tracker.IsPendingCreate topologyName then none
      else some (topologyName, ⟨topologyName, version, false⟩)

variable (L : Semver) (clusterTopology : ClusterTopology)

/-- One reconcile: a failed `Generate` changes nothing. -/
def reconcile (input : ReconcileInput) (w : World) : World :=
  match Generate L input.getUpgradePlan input.runtimeSDK input.hooks input.maxMDUpgradeConcurrency
      input.maxMPUpgradeConcurrency clusterTopology w.current with
  | .error _ => w
  | .ok (desired, t, _) =>
    ⟨reconcileControlPlane t desired.controlPlane w.controlPlane,
      reconcileWorkers t.machineDeployments w.machineDeployments desired.machineDeployments,
      reconcileWorkers t.machinePools w.machinePools desired.machinePools⟩

inductive Event
  | reconcile (input : ReconcileInput)
  | rollout

inductive Step : World → Event → World → Prop
  | reconcile (w : World) (input : ReconcileInput) :
      Step w (.reconcile input) (reconcile L clusterTopology input w)
  | rollout {w w' : World} (h : w'.versions = w.versions) : Step w .rollout w'

/-! ### The skew rules -/

def NotNewer (c v : String) : Prop :=
  ∃ cv vv, L.parseTolerant c = some cv ∧ L.parseTolerant v = some vv ∧ L.compare vv cv ≤ 0

def AtMostThreeMinorsAhead (c v : String) : Prop :=
  ∃ cv vv, L.parseTolerant c = some cv ∧ L.parseTolerant v = some vv ∧ cv.major = vv.major ∧
    cv.minor.toNat ≤ vv.minor.toNat + 3

/-- The skew rules in a world, all its versions of major `M`. -/
structure SkewRules (M : UInt64) (w : World) : Prop where
  controlPlane : ∃ cv, L.parseTolerant w.controlPlane.version = some cv ∧ cv.major = M
  notNewer : ∀ ws ∈ w.workers, NotNewer L w.controlPlane.version ws.version
  atMostThree : ∀ ws ∈ w.workers, AtMostThreeMinorsAhead L w.controlPlane.version ws.version

/-! ### Applying the desired versions -/

theorem reconcileControlPlane_version (t : UpgradeTracker) (version : String)
    (cp : ControlPlaneState) :
    (reconcileControlPlane t version cp).version = cp.version ∨
      (reconcileControlPlane t version cp).version = version := by
  unfold reconcileControlPlane
  split_ifs
  · exact .inl rfl
  · exact .inr rfl

theorem mem_reconcileWorkers {tracker : WorkerUpgradeTracker}
    {current : List (String × WorkerState)} {desired : List (String × String)} {ws' : WorkerState}
    (h : ws' ∈ (reconcileWorkers tracker current desired).map (·.2)) :
    ∃ p ∈ desired, (∃ ws, current.lookup p.1 = some ws ∧ (ws' = ws ∨ ws'.version = p.2)) ∨
      (current.lookup p.1 = none ∧ tracker.IsPendingCreate p.1 = false ∧ ws'.version = p.2) := by
  obtain ⟨⟨n, ws''⟩, hmem, rfl⟩ := List.mem_map.mp h
  obtain ⟨⟨topologyName, version⟩, hp, hsome⟩ := List.mem_filterMap.mp hmem
  refine ⟨(topologyName, version), hp, ?_⟩
  dsimp only at hsome ⊢
  cases hc : current.lookup topologyName with
  | some ws =>
    rw [hc] at hsome
    simp only [Option.some.injEq, Prod.mk.injEq] at hsome
    obtain ⟨-, rfl⟩ := hsome
    refine .inl ⟨ws, rfl, ?_⟩
    split_ifs
    · exact .inl rfl
    · exact .inr rfl
  | none =>
    rw [hc] at hsome
    split_ifs at hsome with hpend
    simp only [Option.some.injEq, Prod.mk.injEq] at hsome
    obtain ⟨-, rfl⟩ := hsome
    exact .inr ⟨rfl, by simpa using hpend, rfl⟩

end ClusterApi.Topology
