import ClusterApi.Topology.UpgradePlan

/-!
# The versions of a topology reconcile's desired state

The version part of `Generate` of `exp/topology/desiredstate/desired_state.go`.
`ComputeUpgradePlan` (upgrade_plan.go) sets the plans of the `UpgradeTracker` of
`exp/topology/scope/upgradetracker.go`; `computeControlPlaneVersion` picks the control plane's
version and sets the tracker's control plane flags; `computeMachineDeploymentVersion` and
`computeMachinePoolVersion` read those flags and the workers plan. What else `Generate`
computes (templates, patches, health checks) sets no version and is left out.

Lifecycle hooks are answered by the environment: `hooks h` is what calling hook `h` gives in this
reconcile. Whether an intent to call it is tracked and whether an extension is registered only
decide whether the hook is called, so "not called" is one of the answers.
-/

namespace ClusterApi.Topology
open ClusterApi.Util

inductive Hook
  | BeforeClusterUpgrade
  | BeforeControlPlaneUpgrade
  | AfterControlPlaneUpgrade
  | BeforeWorkersUpgrade
  | AfterWorkersUpgrade
  deriving DecidableEq, Repr

/-- The outcome of a `call...Hook` of lifecycle_hooks.go: the hook is not called, its extensions
answer with a `RetryAfterSeconds`, or the call fails. -/
inductive HookCall
  | notCalled
  | response (retryAfterSeconds : Nat)
  | failed (message : String)
  deriving DecidableEq, Repr

structure HookResponseTracker where
  responses : List (Hook × Nat)
  deriving DecidableEq, Repr

def HookResponseTracker.Add (t : HookResponseTracker) (hook : Hook) (retryAfterSeconds : Nat) :
    HookResponseTracker :=
  ⟨(hook, retryAfterSeconds) :: t.responses⟩

def HookResponseTracker.IsBlocking (t : HookResponseTracker) (hook : Hook) : Bool :=
  match t.responses.lookup hook with
  | none => false
  | some retryAfterSeconds => retryAfterSeconds != 0

def callHook (runtimeSDK : Bool) (hooks : Hook → HookCall) (hook : Hook) (r : HookResponseTracker) :
    Except String (Bool × HookResponseTracker) :=
  if runtimeSDK then
    match hooks hook with
    | .notCalled => .ok (true, r)
    | .response retryAfterSeconds => .ok (retryAfterSeconds == 0, r.Add hook retryAfterSeconds)
    | .failed message => .error message
  else .ok (true, r)

/-! ### The upgrade tracker -/

structure ControlPlaneUpgradeTracker where
  isPendingUpgrade : Bool
  isWaitingForWorkersUpgrade : Bool
  upgradePlan : List String
  isProvisioning : Bool
  isUpgrading : Bool
  isStartingUpgrade : Bool
  deriving DecidableEq, Repr

structure WorkerUpgradeTracker where
  pendingCreateTopologyNames : List String
  pendingUpgradeNames : List String
  upgradePlan : List String
  deferredNames : List String
  upgradingNames : List String
  maxUpgradeConcurrency : Nat
  deriving DecidableEq, Repr

structure UpgradeTracker where
  controlPlane : ControlPlaneUpgradeTracker
  machineDeployments : WorkerUpgradeTracker
  machinePools : WorkerUpgradeTracker
  minWorkersVersion : String
  deriving DecidableEq, Repr

/-- A concurrency below 1 is raised to 1. -/
def WorkerUpgradeTracker.new (maxUpgradeConcurrency : Int) : WorkerUpgradeTracker :=
  ⟨[], [], [], [], [], if maxUpgradeConcurrency < 1 then 1 else maxUpgradeConcurrency.toNat⟩

def NewUpgradeTracker (maxMDUpgradeConcurrency maxMPUpgradeConcurrency : Int) : UpgradeTracker :=
  ⟨⟨false, false, [], false, false, false⟩, .new maxMDUpgradeConcurrency,
    .new maxMPUpgradeConcurrency, ""⟩

def ControlPlaneUpgradeTracker.IsControlPlaneStable (t : ControlPlaneUpgradeTracker) : Bool :=
  if t.isProvisioning then false
  else if t.isUpgrading then false
  else if t.isStartingUpgrade then false
  else if t.isPendingUpgrade then false
  else true

/-- `IsControlPlaneStable`, except that a control plane pending an upgrade while it waits for
the workers counts as stable. -/
def ControlPlaneUpgradeTracker.IsControlPlaneStableOrWaitingForWorkersUpgrade
    (t : ControlPlaneUpgradeTracker) : Bool :=
  if t.isProvisioning then false
  else if t.isUpgrading then false
  else if t.isStartingUpgrade then false
  else if t.isPendingUpgrade && !t.isWaitingForWorkersUpgrade then false
  else true

namespace WorkerUpgradeTracker

variable (m : WorkerUpgradeTracker)

def MarkUpgrading (names : List String) : WorkerUpgradeTracker :=
  { m with upgradingNames := names.foldl (fun s name => s.insert name) m.upgradingNames }

def IsAnyUpgrading : Bool := m.upgradingNames != []

def UpgradeConcurrencyReached : Bool := m.maxUpgradeConcurrency ≤ m.upgradingNames.length

def MarkPendingCreate (mdTopologyName : String) : WorkerUpgradeTracker :=
  { m with pendingCreateTopologyNames := m.pendingCreateTopologyNames.insert mdTopologyName }

def IsPendingCreate (mdTopologyName : String) : Bool :=
  mdTopologyName ∈ m.pendingCreateTopologyNames

def MarkPendingUpgrade (name : String) : WorkerUpgradeTracker :=
  { m with pendingUpgradeNames := m.pendingUpgradeNames.insert name }

def IsPendingUpgrade (name : String) : Bool := name ∈ m.pendingUpgradeNames

def MarkDeferredUpgrade (name : String) : WorkerUpgradeTracker :=
  { m with deferredNames := m.deferredNames.insert name }

end WorkerUpgradeTracker

/-! ### The scope -/

structure ControlPlaneState where
  version : String
  isProvisioning : Bool
  isUpgrading : Bool
  deriving DecidableEq, Repr

structure WorkerState where
  name : String
  version : String
  isUpgrading : Bool
  deriving DecidableEq, Repr

structure WorkerTopology where
  name : String
  deferUpgrade : Bool
  holdUpgradeSequence : Bool
  deriving DecidableEq, Repr

structure ClusterTopology where
  version : String
  machineDeployments : List WorkerTopology
  machinePools : List WorkerTopology
  deriving DecidableEq, Repr

structure Current where
  controlPlane : Option ControlPlaneState
  machineDeployments : List (String × WorkerState)
  machinePools : List (String × WorkerState)
  deriving DecidableEq, Repr

abbrev GetUpgradePlanFunc := String → String → String → Except String (List String × List String)

variable (L : Semver)

/-! ### `ComputeUpgradePlan` -/

def isLowerThanMinVersion (v minVersion controlPlaneSemVer : Version) : Bool :=
  let cmp := Compare L v minVersion [WithBuildTags]
  if cmp = -1 then true
  -- an order that cannot be told: the control plane's version is not lower
  else if cmp = 2 then L.toString v != L.toString controlPlaneSemVer
  else false

/-- The loop of `ComputeUpgradePlan` over the MachineDeployments or over the MachinePools;
a worker with no version is skipped. -/
def minWorkersSemVerOf (kind : String) (controlPlaneSemVer : Version) :
    Option Version → List (String × WorkerState) → Except String (Option Version)
  | minWorkersSemVer, [] => .ok minWorkersSemVer
  | minWorkersSemVer, (_, w) :: rest =>
    if w.version ≠ "" then
      match L.parseTolerant w.version with
      | none => .error ("failed to parse version " ++ w.version ++ " of " ++ kind ++ " " ++ w.name)
      | some currentSemVer =>
        -- `minWorkersSemVer == nil || isLowerThanMinVersion(...)`
        let minWorkersSemVer :=
          if minWorkersSemVer.all (isLowerThanMinVersion L currentSemVer · controlPlaneSemVer) then
            some currentSemVer
          else minWorkersSemVer
        minWorkersSemVerOf kind controlPlaneSemVer minWorkersSemVer rest
    else minWorkersSemVerOf kind controlPlaneSemVer minWorkersSemVer rest

def minWorkersVersionOf : Option Version → String
  | none => ""
  | some m => render L m

/-- The plans are set only when an upgrade is needed; the workers plan goes to the
MachineDeployments and to the MachinePools, each when there is one. -/
def ComputeUpgradePlan (getUpgradePlan : GetUpgradePlanFunc) (desiredVersion : String)
    (current : Current) (t : UpgradeTracker) : Except String UpgradeTracker :=
  match current.controlPlane with
  | none => .ok t
  | some cp =>
  match L.parseTolerant desiredVersion with
  | none => .error ("failed to parse Cluster version " ++ desiredVersion)
  | some desiredSemVer =>
  let controlPlaneVersion := cp.version
  match L.parseTolerant controlPlaneVersion with
  | none => .error ("failed to parse ControlPlane version " ++ controlPlaneVersion)
  | some controlPlaneSemVer =>
  match minWorkersSemVerOf L "MachineDeployment" controlPlaneSemVer none current.machineDeployments with
  | .error e => .error e
  | .ok minWorkersSemVer =>
  match minWorkersSemVerOf L "MachinePool" controlPlaneSemVer minWorkersSemVer current.machinePools with
  | .error e => .error e
  | .ok minWorkersSemVer =>
  let minWorkersVersion := minWorkersVersionOf L minWorkersSemVer
  let t := { t with minWorkersVersion }
  if L.toString controlPlaneSemVer = L.toString desiredSemVer ∧
      minWorkersSemVer.all (fun m => L.toString m = L.toString desiredSemVer) then .ok t
  else
  match getUpgradePlan desiredVersion controlPlaneVersion minWorkersVersion with
  | .error e => .error e
  | .ok (controlPlaneUpgradePlan, workersUpgradePlan) =>
  match DefaultAndValidateUpgradePlans L desiredVersion controlPlaneVersion minWorkersVersion
      controlPlaneUpgradePlan workersUpgradePlan with
  | .error e => .error e.message
  | .ok workersUpgradePlan =>
    .ok { t with
      controlPlane.upgradePlan := controlPlaneUpgradePlan
      machineDeployments.upgradePlan := if current.machineDeployments ≠ [] then workersUpgradePlan
        else t.machineDeployments.upgradePlan
      machinePools.upgradePlan := if current.machinePools ≠ [] then workersUpgradePlan
        else t.machinePools.upgradePlan }

/-! ### `computeControlPlaneVersion` -/

/-- Lines 511-704. The workers are waited for when the head of their plan is the control
plane's version, for the MachineDeployments or the MachinePools. `hooks.MarkAsPending` only
records intents, whose effect is which hooks get called; it is not modelled. -/
def computeControlPlaneVersion (runtimeSDK : Bool) (hooks : Hook → HookCall)
    (topologyVersion : String) (controlPlane : Option ControlPlaneState) (t : UpgradeTracker)
    (r : HookResponseTracker) : Except String (String × UpgradeTracker × HookResponseTracker) :=
  match controlPlane with
  | none => .ok (topologyVersion, t, r)
  | some cp =>
  let currentVersion := cp.version
  let t := { t with controlPlane.isPendingUpgrade := currentVersion != topologyVersion }
  if cp.isProvisioning then .ok (currentVersion, { t with controlPlane.isProvisioning := true }, r)
  else if cp.isUpgrading then .ok (currentVersion, { t with controlPlane.isUpgrading := true }, r)
  else
  match callHook runtimeSDK hooks .AfterControlPlaneUpgrade r with
  | .error e => .error e
  | .ok (false, r) => .ok (currentVersion, t, r)
  | .ok (true, r) =>
  match callHook runtimeSDK hooks .BeforeWorkersUpgrade r with
  | .error e => .error e
  | .ok (false, r) => .ok (currentVersion, t, r)
  | .ok (true, r) =>
  if t.machineDeployments.upgradePlan.head? = some currentVersion ∨
      t.machinePools.upgradePlan.head? = some currentVersion then
    .ok (currentVersion, { t with controlPlane.isWaitingForWorkersUpgrade := true }, r)
  else if t.machineDeployments.IsAnyUpgrading || t.machinePools.IsAnyUpgrading then
    .ok (currentVersion, t, r)
  else
  match callHook runtimeSDK hooks .AfterWorkersUpgrade r with
  | .error e => .error e
  | .ok (false, r) => .ok (currentVersion, t, r)
  | .ok (true, r) =>
  if !t.controlPlane.isPendingUpgrade then .ok (currentVersion, t, r)
  else
  match callHook runtimeSDK hooks .BeforeClusterUpgrade r with
  | .error e => .error e
  | .ok (false, r) => .ok (currentVersion, t, r)
  | .ok (true, r) =>
  match t.controlPlane.upgradePlan with
  | [] => .error ("cannot compute the control plane version if the control plane is pending " ++
      "upgrade and the upgrade plan is not set")
  | nextVersion :: _ =>
  match callHook runtimeSDK hooks .BeforeControlPlaneUpgrade r with
  | .error e => .error e
  | .ok (false, r) => .ok (currentVersion, t, r)
  | .ok (true, r) =>
    .ok (nextVersion,
      { t with controlPlane.isStartingUpgrade := true, controlPlane.isPendingUpgrade := false }, r)

/-! ### The MachineDeployment and MachinePool versions -/

/-- `isMachineDeploymentDeferred` and `isMachinePoolDeferred`, over the topologies of one kind:
an annotation on the topology itself, or a hold on one listed before it. -/
def isDeferred (topologies : List WorkerTopology) (wt : WorkerTopology) : Bool :=
  wt.deferUpgrade || wt.holdUpgradeSequence || heldBefore topologies
where
  heldBefore : List WorkerTopology → Bool
    | [] => false
    | w :: rest => if w.holdUpgradeSequence then true else if w.name = wt.name then false
      else heldBefore rest

def isMachineDeploymentDeferred (clusterTopology : ClusterTopology) (mdTopology : WorkerTopology) :
    Bool :=
  isDeferred clusterTopology.machineDeployments mdTopology

def isMachinePoolDeferred (clusterTopology : ClusterTopology) (mpTopology : WorkerTopology) : Bool :=
  isDeferred clusterTopology.machinePools mpTopology

/-- `computeMachineDeploymentVersion` and `computeMachinePoolVersion`, on the tracker of their
kind: they differ in nothing else than the deferral check and the text of one error. -/
def computeWorkerVersion (noUpgradePlanMessage : String) (controlPlane : ControlPlaneUpgradeTracker)
    (hookResponses : HookResponseTracker) (topologyVersion : String) (deferred : Bool)
    (topologyName : String) (workers : WorkerUpgradeTracker) :
    Option WorkerState → Except String (String × WorkerUpgradeTracker)
  | none =>
    -- a new one is created only once the control plane is stable
    if !controlPlane.IsControlPlaneStable || hookResponses.IsBlocking .AfterControlPlaneUpgrade ||
        hookResponses.IsBlocking .BeforeWorkersUpgrade then
      .ok (topologyVersion, workers.MarkPendingCreate topologyName)
    else .ok (topologyVersion, workers)
  | some current =>
    let currentVersion := current.version
    if currentVersion = topologyVersion then .ok (currentVersion, workers)
    else if deferred then
      .ok (currentVersion, (workers.MarkDeferredUpgrade current.name).MarkPendingUpgrade current.name)
    else if hookResponses.IsBlocking .AfterControlPlaneUpgrade then
      .ok (currentVersion, workers.MarkPendingUpgrade current.name)
    else if hookResponses.IsBlocking .BeforeWorkersUpgrade then
      .ok (currentVersion, workers.MarkPendingUpgrade current.name)
    else if workers.UpgradeConcurrencyReached then
      .ok (currentVersion, workers.MarkPendingUpgrade current.name)
    else if !controlPlane.IsControlPlaneStableOrWaitingForWorkersUpgrade then
      .ok (currentVersion, workers.MarkPendingUpgrade current.name)
    else
    match workers.upgradePlan with
    | [] => .error noUpgradePlanMessage
    | nextVersion :: _ =>
      -- at the head of the plan already: wait for the control plane's next version
      if nextVersion = currentVersion then .ok (currentVersion, workers.MarkPendingUpgrade current.name)
      else .ok (nextVersion, workers.MarkUpgrading [current.name])

def computeMachineDeploymentVersion (t : UpgradeTracker) (hookResponses : HookResponseTracker)
    (clusterTopology : ClusterTopology) (machineDeploymentTopology : WorkerTopology)
    (currentMDState : Option WorkerState) : Except String (String × UpgradeTracker) :=
  (computeWorkerVersion
      ("cannot compute the machine deployment version if the machine deployment is pending " ++
        "upgrade and the upgrade plan is not set")
      t.controlPlane hookResponses clusterTopology.version
      (isMachineDeploymentDeferred clusterTopology machineDeploymentTopology)
      machineDeploymentTopology.name t.machineDeployments currentMDState).map
    fun (version, m) => (version, { t with machineDeployments := m })

def computeMachinePoolVersion (t : UpgradeTracker) (hookResponses : HookResponseTracker)
    (clusterTopology : ClusterTopology) (machinePoolTopology : WorkerTopology)
    (currentMPState : Option WorkerState) : Except String (String × UpgradeTracker) :=
  (computeWorkerVersion
      ("cannot compute the machine pool version if the machine pool is pending upgrade and " ++
        "the upgrade plan is not set")
      t.controlPlane hookResponses clusterTopology.version
      (isMachinePoolDeferred clusterTopology machinePoolTopology)
      machinePoolTopology.name t.machinePools currentMPState).map
    fun (version, m) => (version, { t with machinePools := m })

def computeWorkerVersions (kind : String)
    (computeVersion : UpgradeTracker → WorkerTopology → Option WorkerState →
      Except String (String × UpgradeTracker))
    (current : List (String × WorkerState)) :
    UpgradeTracker → List WorkerTopology → Except String (List (String × String) × UpgradeTracker)
  | t, [] => .ok ([], t)
  | t, wt :: rest =>
    match computeVersion t wt (current.lookup wt.name) with
    | .error e => .error ("failed to compute " ++ kind ++ " for topology \"" ++ wt.name ++ "\": " ++ e)
    | .ok (version, t) =>
    match computeWorkerVersions kind computeVersion current t rest with
    | .error e => .error e
    | .ok (versions, t) => .ok ((wt.name, version) :: versions, t)

/-! ### `Generate` -/

structure DesiredVersions where
  controlPlane : String
  machineDeployments : List (String × String)
  machinePools : List (String × String)
  deriving DecidableEq, Repr

def upgradingNames (workers : List (String × WorkerState)) : List String :=
  (workers.filter (·.2.isUpgrading)).map (·.2.name)

def Generate (getUpgradePlan : GetUpgradePlanFunc) (runtimeSDK : Bool) (hooks : Hook → HookCall)
    (maxMDUpgradeConcurrency maxMPUpgradeConcurrency : Int) (clusterTopology : ClusterTopology)
    (current : Current) : Except String (DesiredVersions × UpgradeTracker × HookResponseTracker) :=
  match ComputeUpgradePlan L getUpgradePlan clusterTopology.version current
      (NewUpgradeTracker maxMDUpgradeConcurrency maxMPUpgradeConcurrency) with
  | .error e => .error e
  | .ok t =>
  let t := { t with
    machineDeployments := t.machineDeployments.MarkUpgrading (upgradingNames current.machineDeployments)
    machinePools := t.machinePools.MarkUpgrading (upgradingNames current.machinePools) }
  match computeControlPlaneVersion runtimeSDK hooks clusterTopology.version current.controlPlane t
      ⟨[]⟩ with
  | .error e => .error ("failed to compute ControlPlane: failed to compute version of ControlPlane: " ++ e)
  | .ok (controlPlaneVersion, t, r) =>
  match computeWorkerVersions "MachineDepoyment"
      (fun t wt => computeMachineDeploymentVersion t r clusterTopology wt)
      current.machineDeployments t clusterTopology.machineDeployments with
  | .error e => .error ("failed to compute MachineDeployments: " ++ e)
  | .ok (machineDeploymentVersions, t) =>
  match computeWorkerVersions "MachinePool"
      (fun t wt => computeMachinePoolVersion t r clusterTopology wt)
      current.machinePools t clusterTopology.machinePools with
  | .error e => .error ("failed to compute MachinePools: " ++ e)
  | .ok (machinePoolVersions, t) =>
    .ok (⟨controlPlaneVersion, machineDeploymentVersions, machinePoolVersions⟩, t, r)

/-! ### What each function can do -/

section Spec

variable {L}

theorem isLowerThanMinVersion_minor (hL : L.Lawful) {v m cv : Version} (hmaj : v.major = m.major) :
    (isLowerThanMinVersion L v m cv = true → v.minor.toNat ≤ m.minor.toNat) ∧
    (isLowerThanMinVersion L v m cv = false → m.minor.toNat ≤ v.minor.toNat) := by
  by_cases hcore : coreCompare v m = 0
  · have hle := coreCompare_le_minor (le_of_eq hcore) hmaj
    have hge := coreCompare_le_minor (a := m) (b := v) (by rw [coreCompare_swap]; omega)
      hmaj.symm
    exact ⟨fun _ => hle, fun _ => hge⟩
  · have hcmp := hL.Compare_withBuildTags_of_coreCompare_ne hcore
    have hone : coreCompare v m = -1 ∨ coreCompare v m = 1 := by
      rw [coreCompare_eq] at hcore ⊢
      split_ifs at hcore ⊢ <;> omega
    rcases hone with h1 | h1
    · refine ⟨fun _ => coreCompare_le_minor (by omega) hmaj, fun hlow => ?_⟩
      simp [isLowerThanMinVersion, hcmp, h1] at hlow
    · refine ⟨fun hlow => ?_, fun _ => coreCompare_le_minor (a := m) (b := v)
        (by rw [coreCompare_swap]; omega) hmaj.symm⟩
      simp [isLowerThanMinVersion, hcmp, h1] at hlow

theorem minWorkersStep_spec (hL : L.Lawful) {controlPlaneSemVer wv : Version} {M : UInt64}
    {init : Option Version} (hinit : ∀ m ∈ init, m.major = M) (hwM : wv.major = M) :
    ∀ m ∈ (if init.all (isLowerThanMinVersion L wv · controlPlaneSemVer) then some wv else init),
      m.major = M ∧ (m ∈ init ∨ m = wv) ∧ m.minor.toNat ≤ wv.minor.toNat ∧
        ∀ m₀ ∈ init, m.minor.toNat ≤ m₀.minor.toNat := by
  intro m hm
  cases init with
  | none => simp at hm; subst hm; simp [hwM]
  | some m₀ =>
    have hlow := @isLowerThanMinVersion_minor _ hL _ _ controlPlaneSemVer
      (hwM.trans (hinit m₀ rfl).symm)
    by_cases hl : isLowerThanMinVersion L wv m₀ controlPlaneSemVer = true
    · simp only [Option.all_some, hl, if_true, Option.mem_def, Option.some.injEq] at hm
      subst hm
      exact ⟨hwM, .inr rfl, le_rfl, fun m₁ hm₁ => by cases hm₁; exact hlow.1 hl⟩
    · simp only [Option.all_some, hl, if_false, Bool.false_eq_true, Option.mem_def,
        Option.some.injEq] at hm
      subst hm
      exact ⟨hinit _ rfl, .inl rfl, hlow.2 (by simpa using hl), fun m₁ hm₁ => by cases hm₁; exact le_rfl⟩

theorem minWorkersStep_ne_none {controlPlaneSemVer wv : Version} {init : Option Version} :
    ∃ m₁, m₁ ∈ (if init.all (isLowerThanMinVersion L wv · controlPlaneSemVer) then some wv
      else init) := by
  split_ifs with hl
  · exact ⟨wv, rfl⟩
  · cases init with
    | none => simp at hl
    | some m₀ => exact ⟨m₀, rfl⟩

theorem minWorkersSemVerOf_spec (hL : L.Lawful) {kind : String} {controlPlaneSemVer : Version}
    {M : UInt64} : ∀ {init : Option Version} {ws : List (String × WorkerState)} {res : Option Version},
    minWorkersSemVerOf L kind controlPlaneSemVer init ws = .ok res →
    (∀ m ∈ init, m.major = M) →
    (∀ p ∈ ws, ∃ v, L.parseTolerant p.2.version = some v ∧ v.major = M) →
    ((ws ≠ [] ∨ init ≠ none) → res ≠ none) ∧
    ∀ m ∈ res, m.major = M ∧ (m ∈ init ∨ ∃ p ∈ ws, L.parseTolerant p.2.version = some m) ∧
      (∀ m₀ ∈ init, m.minor.toNat ≤ m₀.minor.toNat) ∧
      ∀ p ∈ ws, ∀ v, L.parseTolerant p.2.version = some v → m.minor.toNat ≤ v.minor.toNat
  | init, [], res, h, hinit, _ => by
    simp only [minWorkersSemVerOf, Except.ok.injEq] at h
    subst h
    refine ⟨fun hne => by simpa using hne, fun m hm => ⟨hinit m hm, .inl hm, fun m₀ hm₀ => ?_, by simp⟩⟩
    rw [Option.mem_def] at hm hm₀
    rw [hm] at hm₀
    cases hm₀
    exact le_rfl
  | init, (n, w) :: rest, res, h, hinit, hws => by
    obtain ⟨wv, hwv, hwM⟩ := hws (n, w) List.mem_cons_self
    have hne : w.version ≠ "" := hL.ne_empty_of_parseTolerant hwv
    simp only [minWorkersSemVerOf, ne_eq, hne, not_false_eq_true, if_true, hwv] at h
    have hnext := @minWorkersStep_spec L hL controlPlaneSemVer wv M init hinit hwM
    obtain ⟨m₁, hm₁⟩ := @minWorkersStep_ne_none L controlPlaneSemVer wv init
    obtain ⟨hsome, hres⟩ := minWorkersSemVerOf_spec hL h (fun m hm => (hnext m hm).1)
      (fun p hp => hws p (List.mem_cons_of_mem _ hp))
    refine ⟨fun _ => hsome (.inr (by rw [Option.mem_def] at hm₁; simp [hm₁])), fun m hm => ?_⟩
    obtain ⟨hM, hfrom, hle₀, hle⟩ := hres m hm
    have hm₁le := hle₀ m₁ hm₁
    refine ⟨hM, ?_, fun m₀ hm₀ => hm₁le.trans ((hnext m₁ hm₁).2.2.2 m₀ hm₀), fun p hp v hv => ?_⟩
    · rcases hfrom with hfrom | ⟨p, hp, hpv⟩
      · rcases (hnext _ hfrom).2.1 with h' | rfl
        · exact .inl h'
        · exact .inr ⟨(n, w), List.mem_cons_self, hwv⟩
      · exact .inr ⟨p, List.mem_cons_of_mem _ hp, hpv⟩
    · rcases List.mem_cons.mp hp with rfl | hp
      · rw [hwv] at hv
        cases hv
        exact hm₁le.trans (hnext m₁ hm₁).2.2.1
      · exact hle p hp v hv

theorem ComputeUpgradePlan_spec {getUpgradePlan : GetUpgradePlanFunc} {desiredVersion : String}
    {current : Current} {cp : ControlPlaneState} {t t' : UpgradeTracker}
    (h : ComputeUpgradePlan L getUpgradePlan desiredVersion current t = .ok t')
    (hcp : current.controlPlane = some cp) :
    t'.controlPlane = { t.controlPlane with upgradePlan := t'.controlPlane.upgradePlan } ∧
    t'.machineDeployments =
      { t.machineDeployments with upgradePlan := t'.machineDeployments.upgradePlan } ∧
    t'.machinePools = { t.machinePools with upgradePlan := t'.machinePools.upgradePlan } ∧
    ((t'.controlPlane.upgradePlan = t.controlPlane.upgradePlan ∧
      t'.machineDeployments.upgradePlan = t.machineDeployments.upgradePlan ∧
      t'.machinePools.upgradePlan = t.machinePools.upgradePlan) ∨
    ∃ desiredSemVer controlPlaneSemVer mdMin minWorkersSemVer workersUpgradePlan workersPlan,
      L.parseTolerant desiredVersion = some desiredSemVer ∧
      L.parseTolerant cp.version = some controlPlaneSemVer ∧
      minWorkersSemVerOf L "MachineDeployment" controlPlaneSemVer none current.machineDeployments =
        .ok mdMin ∧
      minWorkersSemVerOf L "MachinePool" controlPlaneSemVer mdMin current.machinePools =
        .ok minWorkersSemVer ∧
      getUpgradePlan desiredVersion cp.version (minWorkersVersionOf L minWorkersSemVer) =
        .ok (t'.controlPlane.upgradePlan, workersUpgradePlan) ∧
      DefaultAndValidateUpgradePlans L desiredVersion cp.version
        (minWorkersVersionOf L minWorkersSemVer) t'.controlPlane.upgradePlan workersUpgradePlan =
        .ok workersPlan ∧
      t'.machineDeployments.upgradePlan = (if current.machineDeployments ≠ [] then workersPlan
        else t.machineDeployments.upgradePlan) ∧
      t'.machinePools.upgradePlan = (if current.machinePools ≠ [] then workersPlan
        else t.machinePools.upgradePlan)) := by
  unfold ComputeUpgradePlan at h
  rw [hcp] at h
  dsimp only at h
  split at h
  · cases h
  rename_i desiredSemVer hd
  split at h
  · cases h
  rename_i controlPlaneSemVer hc
  split at h
  · cases h
  rename_i mdMin hmd
  split at h
  · cases h
  rename_i minWorkersSemVer hmin
  by_cases hearly : L.toString controlPlaneSemVer = L.toString desiredSemVer ∧
      minWorkersSemVer.all (fun m => L.toString m = L.toString desiredSemVer)
  · rw [if_pos hearly] at h
    cases h
    exact ⟨rfl, rfl, rfl, .inl ⟨rfl, rfl, rfl⟩⟩
  rw [if_neg hearly] at h
  split at h
  · cases h
  rename_i controlPlaneUpgradePlan workersUpgradePlan hplan
  rcases hdav : DefaultAndValidateUpgradePlans L desiredVersion cp.version
    (minWorkersVersionOf L minWorkersSemVer) controlPlaneUpgradePlan workersUpgradePlan with
    e | workersPlan
  · rw [hdav] at h
    cases h
  · rw [hdav] at h
    cases h
    exact ⟨rfl, rfl, rfl, .inr ⟨desiredSemVer, controlPlaneSemVer, mdMin, minWorkersSemVer,
      workersUpgradePlan, workersPlan, hd, hc, hmd, hmin, hplan, hdav, rfl, rfl⟩⟩

theorem minWorkersSemVerOf_cons_none {kind : String} {controlPlaneSemVer v : Version}
    {name : String} {w : WorkerState} {rest : List (String × WorkerState)} (hne : w.version ≠ "")
    (hv : L.parseTolerant w.version = some v) :
    minWorkersSemVerOf L kind controlPlaneSemVer none ((name, w) :: rest) =
      minWorkersSemVerOf L kind controlPlaneSemVer (some v) rest := by
  simp only [minWorkersSemVerOf, ne_eq, hne, not_false_eq_true, if_true, hv]
  rfl

theorem minWorkersSemVerOf_cons_tied {kind : String} {controlPlaneSemVer m v : Version}
    {name : String} {w : WorkerState} {rest : List (String × WorkerState)} (hne : w.version ≠ "")
    (hv : L.parseTolerant w.version = some v) (htie : Compare L v m [WithBuildTags] = 2)
    (hcp : L.toString v ≠ L.toString controlPlaneSemVer) :
    minWorkersSemVerOf L kind controlPlaneSemVer (some m) ((name, w) :: rest) =
      minWorkersSemVerOf L kind controlPlaneSemVer (some v) rest := by
  have hlow : isLowerThanMinVersion L v m controlPlaneSemVer = true := by
    simp [isLowerThanMinVersion, htie, hcp]
  simp only [minWorkersSemVerOf, ne_eq, hne, not_false_eq_true, if_true, hv, Option.all_some,
    hlow]

theorem ComputeUpgradePlan_minWorkersVersion {getUpgradePlan : GetUpgradePlanFunc}
    {desiredVersion : String} {current : Current} {cp : ControlPlaneState} {t t' : UpgradeTracker}
    (h : ComputeUpgradePlan L getUpgradePlan desiredVersion current t = .ok t')
    (hcp : current.controlPlane = some cp) :
    ∃ controlPlaneSemVer mdMin minWorkersSemVer,
      L.parseTolerant cp.version = some controlPlaneSemVer ∧
      minWorkersSemVerOf L "MachineDeployment" controlPlaneSemVer none current.machineDeployments =
        .ok mdMin ∧
      minWorkersSemVerOf L "MachinePool" controlPlaneSemVer mdMin current.machinePools =
        .ok minWorkersSemVer ∧
      t'.minWorkersVersion = minWorkersVersionOf L minWorkersSemVer := by
  unfold ComputeUpgradePlan at h
  rw [hcp] at h
  dsimp only at h
  split at h
  · cases h
  rename_i desiredSemVer _
  split at h
  · cases h
  rename_i controlPlaneSemVer hc
  split at h
  · cases h
  rename_i mdMin hmd
  split at h
  · cases h
  rename_i minWorkersSemVer hmin
  refine ⟨controlPlaneSemVer, mdMin, minWorkersSemVer, hc, hmd, hmin, ?_⟩
  by_cases hearly : L.toString controlPlaneSemVer = L.toString desiredSemVer ∧
      minWorkersSemVer.all (fun m => L.toString m = L.toString desiredSemVer)
  · rw [if_pos hearly] at h
    cases h
    rfl
  rw [if_neg hearly] at h
  split at h
  · cases h
  split at h
  · cases h
  · cases h
    rfl

theorem Generate_ok {getUpgradePlan : GetUpgradePlanFunc} {runtimeSDK : Bool}
    {hooks : Hook → HookCall} {maxMD maxMP : Int} {clusterTopology : ClusterTopology}
    {current : Current} {desired : DesiredVersions} {t : UpgradeTracker} {r : HookResponseTracker}
    (h : Generate L getUpgradePlan runtimeSDK hooks maxMD maxMP clusterTopology current =
      .ok (desired, t, r)) :
    ∃ t₀ t₁ t₂, ComputeUpgradePlan L getUpgradePlan clusterTopology.version current
        (NewUpgradeTracker maxMD maxMP) = .ok t₀ ∧
      computeControlPlaneVersion runtimeSDK hooks clusterTopology.version current.controlPlane
        { t₀ with
          machineDeployments :=
            t₀.machineDeployments.MarkUpgrading (upgradingNames current.machineDeployments)
          machinePools := t₀.machinePools.MarkUpgrading (upgradingNames current.machinePools) }
        ⟨[]⟩ = .ok (desired.controlPlane, t₁, r) ∧
      computeWorkerVersions "MachineDepoyment"
        (fun t wt => computeMachineDeploymentVersion t r clusterTopology wt)
        current.machineDeployments t₁ clusterTopology.machineDeployments =
          .ok (desired.machineDeployments, t₂) ∧
      computeWorkerVersions "MachinePool"
        (fun t wt => computeMachinePoolVersion t r clusterTopology wt)
        current.machinePools t₂ clusterTopology.machinePools = .ok (desired.machinePools, t) := by
  unfold Generate at h
  split at h
  · cases h
  rename_i t₀ hplan
  dsimp only at h
  split at h
  · cases h
  rename_i controlPlaneVersion t₁ r₁ hcp
  split at h
  · cases h
  rename_i mdVersions t₂ hmd
  split at h
  · cases h
  rename_i mpVersions t₃ hmp
  cases h
  exact ⟨t₀, t₁, t₂, hplan, hcp, hmd, hmp⟩

theorem computeWorkerVersions_spec {kind : String}
    {computeVersion : UpgradeTracker → WorkerTopology → Option WorkerState →
      Except String (String × UpgradeTracker)}
    {current : List (String × WorkerState)}
    (R : UpgradeTracker → UpgradeTracker → Prop)
    (Q : UpgradeTracker → WorkerTopology → String → UpgradeTracker → Prop)
    (hrefl : ∀ t, R t t) (htrans : ∀ a b c, R a b → R b c → R a c)
    (hstep : ∀ t wt v t', computeVersion t wt (current.lookup wt.name) = .ok (v, t') →
      R t t' ∧ Q t wt v t') :
    ∀ {ts : List WorkerTopology} {t t' : UpgradeTracker} {out : List (String × String)},
      computeWorkerVersions kind computeVersion current t ts = .ok (out, t') →
      R t t' ∧ ∀ p ∈ out, ∃ wt ∈ ts, p.1 = wt.name ∧ ∃ a b, R t a ∧ Q a wt p.2 b ∧ R b t'
  | [], t, t', out, h => by
    simp only [computeWorkerVersions, Except.ok.injEq, Prod.mk.injEq] at h
    obtain ⟨rfl, rfl⟩ := h
    exact ⟨hrefl t, by simp⟩
  | wt :: rest, t, t', out, h => by
    simp only [computeWorkerVersions] at h
    split at h
    · cases h
    rename_i version t₁ hcall
    split at h
    · cases h
    rename_i versions t₂ hrest
    cases h
    obtain ⟨hR₁, hQ⟩ := hstep t wt version t₁ hcall
    obtain ⟨hR₂, hout⟩ := computeWorkerVersions_spec R Q hrefl htrans hstep hrest
    refine ⟨htrans _ _ _ hR₁ hR₂, fun p hp => ?_⟩
    rcases List.mem_cons.mp hp with rfl | hp
    · exact ⟨wt, List.mem_cons_self, rfl, t, t₁, hrefl t, hQ, hR₂⟩
    · obtain ⟨wt', hwt', hname, a, b, hta, hQ', hbt⟩ := hout p hp
      exact ⟨wt', List.mem_cons_of_mem _ hwt', hname, a, b, htrans _ _ _ hR₁ hta, hQ', hbt⟩

theorem computeControlPlaneVersion_cases {runtimeSDK : Bool} {hooks : Hook → HookCall}
    {topologyVersion v : String} {cp : ControlPlaneState} {t t' : UpgradeTracker}
    {r r' : HookResponseTracker}
    (h : computeControlPlaneVersion runtimeSDK hooks topologyVersion (some cp) t r = .ok (v, t', r')) :
    t'.machineDeployments = t.machineDeployments ∧ t'.machinePools = t.machinePools ∧
    t'.controlPlane.upgradePlan = t.controlPlane.upgradePlan ∧
    ((v = cp.version ∧ t'.controlPlane.isStartingUpgrade = t.controlPlane.isStartingUpgrade ∧
      t'.controlPlane.isPendingUpgrade = (cp.version != topologyVersion) ∧
      (t'.controlPlane.isWaitingForWorkersUpgrade = t.controlPlane.isWaitingForWorkersUpgrade ∨
        t.machineDeployments.upgradePlan.head? = some cp.version ∨
        t.machinePools.upgradePlan.head? = some cp.version)) ∨
    (t.controlPlane.upgradePlan.head? = some v ∧ t'.controlPlane.isStartingUpgrade = true ∧
      t.machineDeployments.upgradePlan.head? ≠ some cp.version ∧
      t.machinePools.upgradePlan.head? ≠ some cp.version)) := by
  simp only [computeControlPlaneVersion] at h
  -- one goal per return statement of the source
  repeat' split at h
  all_goals (cases h <;> simp_all)

theorem computeWorkerVersion_some {msg T name : String} {cp : ControlPlaneUpgradeTracker}
    {r : HookResponseTracker} {deferred : Bool} {workers workers' : WorkerUpgradeTracker}
    {current : WorkerState} {v : String}
    (h : computeWorkerVersion msg cp r T deferred name workers (some current) = .ok (v, workers')) :
    workers'.upgradePlan = workers.upgradePlan ∧
    workers'.pendingCreateTopologyNames = workers.pendingCreateTopologyNames ∧
    (v = current.version ∨
      (cp.IsControlPlaneStableOrWaitingForWorkersUpgrade = true ∧ workers.upgradePlan.head? = some v)) := by
  simp only [computeWorkerVersion] at h
  repeat' split at h
  all_goals (cases h <;> simp_all [WorkerUpgradeTracker.MarkPendingUpgrade,
    WorkerUpgradeTracker.MarkDeferredUpgrade, WorkerUpgradeTracker.MarkUpgrading])

theorem computeWorkerVersion_none {msg T name : String} {cp : ControlPlaneUpgradeTracker}
    {r : HookResponseTracker} {deferred : Bool} {workers workers' : WorkerUpgradeTracker} {v : String}
    (h : computeWorkerVersion msg cp r T deferred name workers none = .ok (v, workers')) :
    v = T ∧ workers'.upgradePlan = workers.upgradePlan ∧
    (∀ n, workers.IsPendingCreate n = true → workers'.IsPendingCreate n = true) ∧
    (workers'.IsPendingCreate name = false → cp.IsControlPlaneStable = true) := by
  simp only [computeWorkerVersion] at h
  split at h
  · cases h
    refine ⟨rfl, rfl, fun n hn => ?_, fun hn => ?_⟩
    · simp_all [WorkerUpgradeTracker.MarkPendingCreate, WorkerUpgradeTracker.IsPendingCreate]
    · simp [WorkerUpgradeTracker.MarkPendingCreate, WorkerUpgradeTracker.IsPendingCreate] at hn
  · cases h
    simp_all

theorem computeWorkerVersion_map_ok {α : Type} {f : String × WorkerUpgradeTracker → String × α}
    {x : Except String (String × WorkerUpgradeTracker)} {v : String} {a : α}
    (h : x.map f = .ok (v, a)) : ∃ y, x = .ok y ∧ f y = (v, a) := by
  cases x with
  | error e => cases h
  | ok y => exact ⟨y, rfl, by simpa [Except.map] using h⟩

section KindLoop

variable {β : Type} (get : UpgradeTracker → WorkerUpgradeTracker) (keep : UpgradeTracker → β)

def KindFrame (a b : UpgradeTracker) : Prop :=
  b.controlPlane = a.controlPlane ∧ (get b).upgradePlan = (get a).upgradePlan ∧
    keep b = keep a ∧ ∀ n, (get a).IsPendingCreate n = true → (get b).IsPendingCreate n = true

def KindVersion (current : List (String × WorkerState)) (T : String) (a : UpgradeTracker)
    (wt : WorkerTopology) (v : String) (b : UpgradeTracker) : Prop :=
  (∀ ws, current.lookup wt.name = some ws → v = ws.version ∨
      (a.controlPlane.IsControlPlaneStableOrWaitingForWorkersUpgrade = true ∧
        (get a).upgradePlan.head? = some v)) ∧
    (current.lookup wt.name = none → v = T ∧
      ((get b).IsPendingCreate wt.name = false → a.controlPlane.IsControlPlaneStable = true))

theorem KindFrame.refl (a : UpgradeTracker) : KindFrame get keep a a :=
  ⟨rfl, rfl, rfl, fun _ hn => hn⟩

theorem KindFrame.trans {a b c : UpgradeTracker} (hab : KindFrame get keep a b)
    (hbc : KindFrame get keep b c) : KindFrame get keep a c :=
  ⟨hbc.1.trans hab.1, hbc.2.1.trans hab.2.1, hbc.2.2.1.trans hab.2.2.1,
    fun n hn => hbc.2.2.2 n (hab.2.2.2 n hn)⟩

variable {get keep} {set : UpgradeTracker → WorkerUpgradeTracker → UpgradeTracker}
  (hget : ∀ t m, get (set t m) = m) (hcp : ∀ t m, (set t m).controlPlane = t.controlPlane)
  (hkeep : ∀ t m, keep (set t m) = keep t)
include hget hcp hkeep

theorem computeWorkerVersion_kind_step {msg T : String} {r : HookResponseTracker}
    {deferred : WorkerTopology → Bool} {current : List (String × WorkerState)}
    {a b : UpgradeTracker} {wt : WorkerTopology} {v : String}
    (hmap : ((computeWorkerVersion msg a.controlPlane r T (deferred wt) wt.name (get a)
      (current.lookup wt.name)).map fun (v, m) => (v, set a m)) = .ok (v, b)) :
    KindFrame get keep a b ∧ KindVersion get current T a wt v b := by
  obtain ⟨⟨v', m⟩, hcall, hvm⟩ := computeWorkerVersion_map_ok hmap
  simp only [Prod.mk.injEq] at hvm
  obtain ⟨rfl, rfl⟩ := hvm
  cases hc : current.lookup wt.name with
  | none =>
    rw [hc] at hcall
    obtain ⟨rfl, hplan, hpend, hstable⟩ := computeWorkerVersion_none hcall
    refine ⟨⟨hcp a m, by rw [hget, hplan], hkeep a m, fun n hn => by rw [hget]; exact hpend n hn⟩,
      fun ws hws => ?_, fun _ => ⟨rfl, fun hn => hstable (by rwa [hget] at hn)⟩⟩
    rw [hc] at hws
    cases hws
  | some ws =>
    rw [hc] at hcall
    obtain ⟨hplan, hpend, hv⟩ := computeWorkerVersion_some hcall
    refine ⟨⟨hcp a m, by rw [hget, hplan], hkeep a m, fun n hn => ?_⟩,
      fun ws' hws' => ?_, fun hnone => ?_⟩
    · simpa [hget, WorkerUpgradeTracker.IsPendingCreate, hpend] using hn
    · rw [hc, Option.some.injEq] at hws'
      subst hws'
      exact hv
    · rw [hc] at hnone
      cases hnone

theorem computeKindVersions_spec {kind msg T : String} {r : HookResponseTracker}
    {deferred : WorkerTopology → Bool} {current : List (String × WorkerState)}
    {ts : List WorkerTopology} {t t' : UpgradeTracker} {out : List (String × String)}
    (h : computeWorkerVersions kind (fun t wt c =>
      (computeWorkerVersion msg t.controlPlane r T (deferred wt) wt.name (get t) c).map
        fun (v, m) => (v, set t m)) current t ts = .ok (out, t')) :
    t'.controlPlane = t.controlPlane ∧ (get t').upgradePlan = (get t).upgradePlan ∧
    keep t' = keep t ∧
    ∀ p ∈ out, ∃ wt ∈ ts, p.1 = wt.name ∧
      (∀ ws, current.lookup wt.name = some ws → p.2 = ws.version ∨
        (t.controlPlane.IsControlPlaneStableOrWaitingForWorkersUpgrade = true ∧
          (get t).upgradePlan.head? = some p.2)) ∧
      (current.lookup wt.name = none → p.2 = T ∧
        ((get t').IsPendingCreate wt.name = false → t.controlPlane.IsControlPlaneStable = true)) := by
  obtain ⟨⟨hcp', hplan', hkeep', -⟩, hout⟩ := computeWorkerVersions_spec (KindFrame get keep)
    (KindVersion get current T) (KindFrame.refl get keep) (fun _ _ _ => KindFrame.trans get keep)
    (fun _ _ _ _ hmap => computeWorkerVersion_kind_step hget hcp hkeep hmap) h
  refine ⟨hcp', hplan', hkeep', fun p hp => ?_⟩
  obtain ⟨wt, hwt, hname, a, b, ⟨hacp, haplan, -, -⟩, ⟨hQs, hQn⟩, ⟨-, -, -, hbt⟩⟩ := hout p hp
  refine ⟨wt, hwt, hname, fun ws hws => ?_, fun hnone => ?_⟩
  · rw [← hacp, ← haplan]
    exact hQs ws hws
  · obtain ⟨hv, hstable⟩ := hQn hnone
    refine ⟨hv, fun hn => ?_⟩
    rw [← hacp]
    apply hstable
    cases hb : (get b).IsPendingCreate wt.name
    · rfl
    · rw [hbt _ hb] at hn
      cases hn

end KindLoop

end Spec

/-! ### The order of the workers

Two MachineDeployments at one patch release that differ only in build metadata cannot be ordered
by `version.Compare`; `isLowerThanMinVersion` then prefers whichever is not the control plane's
version, so the minimum is the one met last. -/

def machineDeployment1290a : String × WorkerState := ("md-a", ⟨"md-a", "v1.29.0+a", false⟩)

def machineDeployment1290b : String × WorkerState := ("md-b", ⟨"md-b", "v1.29.0+b", false⟩)

def upgradedControlPlane (machineDeployments : List (String × WorkerState)) : Current :=
  ⟨some ⟨"v1.30.0", false, false⟩, machineDeployments, []⟩

theorem ComputeUpgradePlan_minWorkersVersion_order_dependent (getUpgradePlan : GetUpgradePlanFunc)
    (hplan : ∀ minWorkersVersion,
      getUpgradePlan "v1.30.0" "v1.30.0" minWorkersVersion = .ok ([], []))
    (t : UpgradeTracker) :
    (ComputeUpgradePlan Semver.sample getUpgradePlan "v1.30.0"
        (upgradedControlPlane [machineDeployment1290a, machineDeployment1290b]) t).map
        UpgradeTracker.minWorkersVersion = .ok "v1.29.0+b" ∧
      (ComputeUpgradePlan Semver.sample getUpgradePlan "v1.30.0"
        (upgradedControlPlane [machineDeployment1290b, machineDeployment1290a]) t).map
        UpgradeTracker.minWorkersVersion = .ok "v1.29.0+a" := by
  have hcp : Semver.sample.parseTolerant "v1.30.0" = some ⟨1, 30, 0, [], []⟩ := by decide
  have ha : Semver.sample.parseTolerant "v1.29.0+a" = some ⟨1, 29, 0, [], ["a"]⟩ := by decide
  have hb : Semver.sample.parseTolerant "v1.29.0+b" = some ⟨1, 29, 0, [], ["b"]⟩ := by decide
  -- the two builds cannot be ordered, and neither is the control plane's version
  have hab : Compare Semver.sample ⟨1, 29, 0, [], ["b"]⟩ ⟨1, 29, 0, [], ["a"]⟩ [WithBuildTags] = 2 := by
    decide
  have hba : Compare Semver.sample ⟨1, 29, 0, [], ["a"]⟩ ⟨1, 29, 0, [], ["b"]⟩ [WithBuildTags] = 2 := by
    decide
  have hminAB : minWorkersSemVerOf Semver.sample "MachineDeployment" ⟨1, 30, 0, [], []⟩ none
      [machineDeployment1290a, machineDeployment1290b] = .ok (some ⟨1, 29, 0, [], ["b"]⟩) := by
    rw [machineDeployment1290a, minWorkersSemVerOf_cons_none (by decide) ha, machineDeployment1290b,
      minWorkersSemVerOf_cons_tied (by decide) hb hab (by decide)]
    rfl
  have hminBA : minWorkersSemVerOf Semver.sample "MachineDeployment" ⟨1, 30, 0, [], []⟩ none
      [machineDeployment1290b, machineDeployment1290a] = .ok (some ⟨1, 29, 0, [], ["a"]⟩) := by
    rw [machineDeployment1290b, minWorkersSemVerOf_cons_none (by decide) hb, machineDeployment1290a,
      minWorkersSemVerOf_cons_tied (by decide) ha hba (by decide)]
    rfl
  have hplanB : DefaultAndValidateUpgradePlans Semver.sample "v1.30.0" "v1.30.0" "v1.29.0+b" [] [] =
      .ok ["v1.30.0"] := by decide
  have hplanA : DefaultAndValidateUpgradePlans Semver.sample "v1.30.0" "v1.30.0" "v1.29.0+a" [] [] =
      .ok ["v1.30.0"] := by decide
  have hrenderB : minWorkersVersionOf Semver.sample (some ⟨1, 29, 0, [], ["b"]⟩) = "v1.29.0+b" := by
    decide
  have hrenderA : minWorkersVersionOf Semver.sample (some ⟨1, 29, 0, [], ["a"]⟩) = "v1.29.0+a" := by
    decide
  have hpendingB : Semver.sample.toString ⟨1, 29, 0, [], ["b"]⟩ ≠
      Semver.sample.toString ⟨1, 30, 0, [], []⟩ := by decide
  have hpendingA : Semver.sample.toString ⟨1, 29, 0, [], ["a"]⟩ ≠
      Semver.sample.toString ⟨1, 30, 0, [], []⟩ := by decide
  constructor
  · simp [ComputeUpgradePlan, upgradedControlPlane, hcp, hminAB, minWorkersSemVerOf, hrenderB,
      hpendingB, hplan, hplanB]
    rfl
  · simp [ComputeUpgradePlan, upgradedControlPlane, hcp, hminBA, minWorkersSemVerOf, hrenderA,
      hpendingA, hplan, hplanA]
    rfl

theorem ComputeUpgradePlan_minWorkersVersion_order_dependent_sample :
    (ComputeUpgradePlan Semver.sample (fun _ _ _ => .ok ([], [])) "v1.30.0"
        (upgradedControlPlane [machineDeployment1290a, machineDeployment1290b])
        (NewUpgradeTracker 1 1)).map UpgradeTracker.minWorkersVersion = .ok "v1.29.0+b" ∧
      (ComputeUpgradePlan Semver.sample (fun _ _ _ => .ok ([], [])) "v1.30.0"
        (upgradedControlPlane [machineDeployment1290b, machineDeployment1290a])
        (NewUpgradeTracker 1 1)).map UpgradeTracker.minWorkersVersion = .ok "v1.29.0+a" :=
  ComputeUpgradePlan_minWorkersVersion_order_dependent _ (fun _ => rfl) _

end ClusterApi.Topology
