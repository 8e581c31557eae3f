import Mathlib
import ClusterApi.Lib.Trace
import ClusterApi.Lib.SortLawful

/-!
# Remediation of unhealthy control plane machines

`reconcileUnhealthyMachines` (`controlplane/kubeadm/internal/controllers/remediation.go`) deletes
at most one unhealthy machine per reconcile. Before it deletes, it checks that no remediation is
in flight, runs the preflight checks, applies `checkRetryLimits`, and, once the control plane is
initialized with managed etcd, runs `canSafelyRemoveEtcdMember`. The deletion is recorded in the
`RemediationInProgress` annotation of the KubeadmControlPlane. `ComputeDesiredMachine` copies
that annotation into the `RemediationFor` annotation of the next machine, and `createMachine`
drops it. The annotation keeps its `RemediationData` as JSON, so its timestamp is in whole
seconds, as are creation timestamps.

Times are nanoseconds. The workload cluster answers every call. `sort.Slice` is a parameter whose
contract is that it permutes; `SortSlice.sortSlice`, the model of Go's sort, keeps it.
The system is a labelled transition relation over the control plane and the clock. Its steps
are reconciles, machine creation, the end of a deletion, and changes made by other actors: health
checks, etcd membership, initialization and the passing of time.
-/

namespace ClusterApi.Kubeadm.Remediation

open ClusterApi.Lib.Trace

def second : Nat := 1000000000

/-- A `metav1.Time` after a round trip through JSON (RFC 3339): whole seconds. -/
def toRFC3339 (t : Nat) : Nat := t / second * second

def DefaultMinHealthyPeriodSeconds : Nat := 60 * 60

structure RemediationStrategy where
  maxRetry : Option Int
  retryPeriodSeconds : Option Nat
  minHealthyPeriodSeconds : Option Nat
  deriving DecidableEq, Repr

structure RemediationData where
  machine : String
  timestamp : Nat
  retryCount : Nat
  deriving DecidableEq, Repr

def RemediationData.Marshal (r : RemediationData) : RemediationData :=
  { r with timestamp := toRFC3339 r.timestamp }

structure Condition where
  status : Bool
  reason : String
  message : String
  deriving DecidableEq, Repr

/-- What remediation reads of a Machine. The conditions of the control plane components are
whether `conditions.IsTrue` holds; `healthCheckSucceeded` is the status of
`HealthCheckSucceeded`, absent or `Unknown` being `none`. -/
structure Machine where
  name : String
  creationTimestamp : Nat
  deleting : Bool
  nodeRef : Option String
  healthCheckSucceeded : Option Bool
  ownerRemediated : Option Condition
  remediateMachine : Bool
  etcdMemberHealthy : Bool
  etcdPodHealthy : Bool
  apiServerPodHealthy : Bool
  controllerManagerPodHealthy : Bool
  schedulerPodHealthy : Bool
  remediationFor : Option RemediationData
  deriving DecidableEq, Repr

structure KubeadmControlPlane where
  version : String
  remediation : RemediationStrategy
  controlPlaneInitialized : Bool
  etcdExternal : Bool
  remediationInProgress : Option RemediationData
  deriving DecidableEq, Repr

structure ControlPlane where
  kcp : KubeadmControlPlane
  topologyVersion : Option String
  machines : List Machine
  etcdMembers : List String
  deriving DecidableEq, Repr

/-! ## The filters of `collections` and `ControlPlane` -/

def Machine.IsUnhealthy (m : Machine) : Bool := m.healthCheckSucceeded == some false

def Machine.IsUnhealthyAndOwnerRemediated (m : Machine) : Bool :=
  m.IsUnhealthy && m.ownerRemediated.any (!·.status)

namespace ControlPlane

variable (c : ControlPlane)

def IsEtcdManaged : Bool := !c.kcp.etcdExternal

def MachinesToBeRemediatedByKCP : List Machine := c.machines.filter Machine.IsUnhealthyAndOwnerRemediated

def HealthyMachines : List Machine := c.machines.filter fun m => !m.IsUnhealthy

def HasHealthyMachineStillProvisioning : Bool := c.HealthyMachines.any fun m => m.nodeRef.isNone

def HasDeletingMachine : Bool := c.machines.any Machine.deleting

end ControlPlane

/-! ## Choosing the machine -/

structure SortSlice where
  sort : (Machine → Machine → Bool) → List Machine → List Machine

structure SortSlice.Lawful (S : SortSlice) : Prop where
  perm : ∀ less l, (S.sort less l).Perm l

def SortSlice.sample : SortSlice := ⟨fun less l => l.insertionSort fun a b => less a b⟩

theorem SortSlice.sample_lawful : SortSlice.sample.Lawful :=
  ⟨fun _ l => List.perm_insertionSort _ l⟩

/-- `sort.Slice` runs `pdqsort_func`, the pattern-defeating quicksort of `sort.Sort` written for a
less function of two positions, so it is the model of `sort.Sort` of `Lib.SortLawful`. -/
def SortSlice.sortSlice : SortSlice := ⟨Lib.GoSort.sortList⟩

theorem SortSlice.sortSlice_lawful : SortSlice.sortSlice.Lawful :=
  ⟨fun less l => Lib.GoSort.Sorter.sortSort_lawful.perm less l⟩

def pickMachineToBeRemediatedByConditionState (i j : Machine) (conditionType : Machine → Bool) :
    Option Bool :=
  if !conditionType i && conditionType j then some true
  else if conditionType i && !conditionType j then some false
  else none

def pickMachineToBeRemediated (i j : Machine) (isEtcdManaged : Bool) : Bool :=
  if i.remediateMachine && !j.remediateMachine then true
  else if !i.remediateMachine && j.remediateMachine then false
  else if i.nodeRef.isNone && j.nodeRef.isSome then true
  else if i.nodeRef.isSome && j.nodeRef.isNone then false
  else
    let byEtcd := if isEtcdManaged then
      (pickMachineToBeRemediatedByConditionState i j Machine.etcdMemberHealthy).orElse
        fun _ => pickMachineToBeRemediatedByConditionState i j Machine.etcdPodHealthy
    else none
    let byComponents := byEtcd.orElse fun _ =>
      (pickMachineToBeRemediatedByConditionState i j Machine.apiServerPodHealthy).orElse fun _ =>
        (pickMachineToBeRemediatedByConditionState i j Machine.controllerManagerPodHealthy).orElse
          fun _ => pickMachineToBeRemediatedByConditionState i j Machine.schedulerPodHealthy
    match byComponents with
    | some p => p
    -- the oldest machine first, the name breaking ties
    | none =>
      if i.creationTimestamp = j.creationTimestamp then decide (i.name < j.name)
      else decide (i.creationTimestamp < j.creationTimestamp)

def getMachineToBeRemediated (S : SortSlice) (unhealthyMachines : List Machine)
    (isEtcdManaged : Bool) : Option Machine :=
  match unhealthyMachines with
  | [] => none
  | [m] => some m
  | machines => (S.sort (fun i j => pickMachineToBeRemediated i j isEtcdManaged) machines).head?

/-! ## The checks -/

def durationString (seconds : Nat) : String :=
  if seconds < 60 then toString seconds ++ "s"
  else if seconds < 3600 then toString (seconds / 60) ++ "m" ++ toString (seconds % 60) ++ "s"
  else toString (seconds / 3600) ++ "h" ++ toString (seconds / 60 % 60) ++ "m" ++
    toString (seconds % 60) ++ "s"

def minHealthyPeriodSeconds (r : RemediationStrategy) : Nat :=
  r.minHealthyPeriodSeconds.getD DefaultMinHealthyPeriodSeconds

def retryPeriodSeconds (r : RemediationStrategy) : Nat := r.retryPeriodSeconds.getD 0

/-- When the last remediation happened: its recorded time, or, when that is missing, a time far
enough back for both periods to have passed. -/
def lastRemediationTime (r : RemediationStrategy) (lastRemediationData : RemediationData)
    (reconciliationTime : Nat) : Int :=
  if lastRemediationData.timestamp ≠ 0 then lastRemediationData.timestamp
  else (reconciliationTime : Int) -
    2 * max (minHealthyPeriodSeconds r * second) (retryPeriodSeconds r * second)

/-- `checkRetryLimits`: the data of this remediation, and the condition set on the machine when
the limits forbid it. -/
def checkRetryLimits (kcp : KubeadmControlPlane) (machineToBeRemediated : Machine)
    (reconciliationTime : Nat) : RemediationData × Option Condition :=
  let remediationInProgressData : RemediationData := ⟨machineToBeRemediated.name, reconciliationTime, 0⟩
  match machineToBeRemediated.remediationFor with
  | none => (remediationInProgressData, none)
  | some lastRemediationData =>
    let lastRemediationTime := lastRemediationTime kcp.remediation lastRemediationData reconciliationTime
    -- a remediation within the minimum healthy period retries the previous one
    if ¬lastRemediationTime + (minHealthyPeriodSeconds kcp.remediation * second : Nat) >
        reconciliationTime then
      (remediationInProgressData, none)
    else
      let remediationInProgressData :=
        { remediationInProgressData with retryCount := lastRemediationData.retryCount }
      if lastRemediationTime + (retryPeriodSeconds kcp.remediation * second : Nat) >
          reconciliationTime then
        (remediationInProgressData, some ⟨false, "RemediationDeferred",
          "KubeadmControlPlane can't remediate this machine because the operation already failed in the latest " ++
            durationString (retryPeriodSeconds kcp.remediation) ++ " (RetryPeriodSeconds)"⟩)
      else
        match kcp.remediation.maxRetry with
        | some maxRetry =>
          if (remediationInProgressData.retryCount : Int) ≥ maxRetry then
            (remediationInProgressData, some ⟨false, "CannotBeRemediated",
              "KubeadmControlPlane can't remediate this machine because the operation already failed " ++
                toString maxRetry ++ " times (MaxRetry)"⟩)
          else ({ remediationInProgressData with retryCount := remediationInProgressData.retryCount + 1 }, none)
        | none => ({ remediationInProgressData with retryCount := remediationInProgressData.retryCount + 1 }, none)

def targetMembers (c : ControlPlane) (machineToBeRemediated : Machine) : List String :=
  c.etcdMembers.filter fun etcdMember => machineToBeRemediated.nodeRef != some etcdMember

def memberUnhealthy (c : ControlPlane) (etcdMember : String) : Bool :=
  match c.machines.find? fun m => m.nodeRef == some etcdMember with
  | none => true
  | some machine => !machine.etcdMemberHealthy

def canSafelyRemoveEtcdMember (c : ControlPlane) (machineToBeRemediated : Machine) : Bool :=
  let targetTotalMembers := (targetMembers c machineToBeRemediated).length
  let targetUnhealthyMembers := (targetMembers c machineToBeRemediated).countP (memberUnhealthy c)
  let targetQuorum := targetTotalMembers / 2 + 1
  decide (targetTotalMembers - targetUnhealthyMembers ≥ targetQuorum)

def initializedChecks (c : ControlPlane) (machineToBeRemediated : Machine) : Option Condition :=
  if !c.kcp.controlPlaneInitialized then none
  else if c.machines.length ≤ 1 then some ⟨false, "CannotBeRemediated",
    "KubeadmControlPlane can't remediate if current replicas are less or equal to 1"⟩
  else if c.HasHealthyMachineStillProvisioning then some ⟨false, "RemediationDeferred",
    "KubeadmControlPlane waiting for control plane Machine provisioning to complete before triggering remediation"⟩
  else if c.HasDeletingMachine then some ⟨false, "RemediationDeferred",
    "KubeadmControlPlane waiting for control plane Machine deletion to complete before triggering remediation"⟩
  else if c.IsEtcdManaged && !canSafelyRemoveEtcdMember c machineToBeRemediated then
    some ⟨false, "CannotBeRemediated",
      "KubeadmControlPlane can't remediate this Machine because this could result in etcd loosing quorum"⟩
  else if c.IsEtcdManaged && c.HealthyMachines.isEmpty then some ⟨false, "CannotBeRemediated",
    "KubeadmControlPlane can't remediate this Machine because there is no healthy Machine to forward etcd leadership to"⟩
  else none

def topologyUpgradePending (clusterTopology : Bool) (c : ControlPlane) : Option String :=
  if clusterTopology then
    match c.topologyVersion with
    | some version => if version ≠ c.kcp.version then some version else none
    | none => none
  else none

/-! ## `reconcileUnhealthyMachines` -/

/-- The condition cleanup that starts every reconcile: a machine back to healthy loses the
`OwnerRemediated` condition left by a remediation that did not happen. -/
def cleanupOwnerRemediated (m : Machine) : Machine :=
  if !m.deleting && m.healthCheckSucceeded == some true && m.ownerRemediated.any (!·.status) then
    { m with ownerRemediated := none }
  else m

def setOwnerRemediated (name : String) (condition : Condition) (machines : List Machine) :
    List Machine :=
  machines.map fun m => if m.name = name then { m with ownerRemediated := some condition } else m

def deleteMachine (name : String) (machines : List Machine) : List Machine :=
  machines.map fun m => if m.name = name then
    { m with deleting := true, ownerRemediated := some ⟨false, "MachineDeleting", "Machine is deleting"⟩ }
  else m

/-- The control plane and whether the reconcile requeues (it does after a deletion), or its
error. -/
def reconcileUnhealthyMachines (S : SortSlice) (clusterTopology : Bool) (reconciliationTime : Nat)
    (controlPlane : ControlPlane) : ControlPlane × Except String Bool :=
  let controlPlane := { controlPlane with machines := controlPlane.machines.map cleanupOwnerRemediated }
  let machinesToBeRemediated := controlPlane.MachinesToBeRemediatedByKCP
  if machinesToBeRemediated = [] then (controlPlane, .ok false) else
  match getMachineToBeRemediated S machinesToBeRemediated controlPlane.IsEtcdManaged with
  | none => (controlPlane, .error "failed to find a Machine to remediate within unhealthy Machines")
  | some machineToBeRemediated =>
    if machineToBeRemediated.deleting then (controlPlane, .ok false) else
    match controlPlane.kcp.remediationInProgress with
    | some remediationData =>
      -- a machine created after the last remediation means the annotation is stale
      if controlPlane.machines.any fun m => remediationData.timestamp < m.creationTimestamp then
        remediate { controlPlane with kcp := { controlPlane.kcp with remediationInProgress := none } }
          machineToBeRemediated
      else (controlPlane, .ok false)
    | none => remediate controlPlane machineToBeRemediated
where
  remediate (controlPlane : ControlPlane) (machineToBeRemediated : Machine) :
      ControlPlane × Except String Bool :=
    let skip (condition : Condition) : ControlPlane × Except String Bool :=
      ({ controlPlane with
        machines := setOwnerRemediated machineToBeRemediated.name condition controlPlane.machines },
        .ok false)
    match topologyUpgradePending clusterTopology controlPlane with
    | some version => skip ⟨false, "RemediationDeferred",
      "KubeadmControlPlane can't remediate while waiting for a version upgrade to " ++ version ++
        " to be propagated from Cluster.spec.topology"⟩
    | none =>
      match checkRetryLimits controlPlane.kcp machineToBeRemediated reconciliationTime with
      | (_, some condition) => skip condition
      | (remediationInProgressData, none) =>
        match initializedChecks controlPlane machineToBeRemediated with
        | some condition => skip condition
        | none =>
          ({ controlPlane with
            machines := deleteMachine machineToBeRemediated.name controlPlane.machines
            kcp := { controlPlane.kcp with
              remediationInProgress := some remediationInProgressData.Marshal } }, .ok true)

/-! ## What the cleanup keeps -/

def OwnerRemediatedBlind {β : Type} (f : Machine → β) : Prop :=
  ∀ m c, f { m with ownerRemediated := c } = f m

theorem cleanupOwnerRemediated_eq (m : Machine) :
    cleanupOwnerRemediated m =
      { m with ownerRemediated := (cleanupOwnerRemediated m).ownerRemediated } := by
  unfold cleanupOwnerRemediated
  split <;> rfl

theorem OwnerRemediatedBlind.comp_cleanup {β : Type} {f : Machine → β} (hf : OwnerRemediatedBlind f) :
    f ∘ cleanupOwnerRemediated = f := by
  funext m
  rw [Function.comp_apply, cleanupOwnerRemediated_eq, hf]

theorem OwnerRemediatedBlind.filter_cleanup {p : Machine → Bool} (hp : OwnerRemediatedBlind p)
    (machines : List Machine) :
    (machines.map cleanupOwnerRemediated).filter p = (machines.filter p).map cleanupOwnerRemediated := by
  rw [List.filter_map, hp.comp_cleanup]

theorem OwnerRemediatedBlind.any_cleanup {p : Machine → Bool} (hp : OwnerRemediatedBlind p)
    (machines : List Machine) : (machines.map cleanupOwnerRemediated).any p = machines.any p := by
  rw [List.any_map, hp.comp_cleanup]

theorem OwnerRemediatedBlind.find?_cleanup {p : Machine → Bool} (hp : OwnerRemediatedBlind p)
    (machines : List Machine) :
    (machines.map cleanupOwnerRemediated).find? p = (machines.find? p).map cleanupOwnerRemediated := by
  rw [List.find?_map, hp.comp_cleanup]

section Cleanup

variable {c c' : ControlPlane} {m m' : Machine}

theorem memberUnhealthy_cleanup (hmachines : c'.machines = c.machines.map cleanupOwnerRemediated) :
    memberUnhealthy c' = memberUnhealthy c := by
  funext etcdMember
  have hp : OwnerRemediatedBlind fun m : Machine => m.nodeRef == some etcdMember :=
    fun _ _ => rfl
  unfold memberUnhealthy
  rw [hmachines, hp.find?_cleanup]
  cases c.machines.find? fun m => m.nodeRef == some etcdMember with
  | none => rfl
  | some machine =>
    rw [Option.map_some, cleanupOwnerRemediated_eq machine]

theorem initializedChecks_cleanup
    (hkcp : c'.kcp.controlPlaneInitialized = c.kcp.controlPlaneInitialized ∧
      c'.kcp.etcdExternal = c.kcp.etcdExternal)
    (hmembers : c'.etcdMembers = c.etcdMembers)
    (hmachines : c'.machines = c.machines.map cleanupOwnerRemediated) (hm : m'.nodeRef = m.nodeRef) :
    initializedChecks c' m' = initializedChecks c m := by
  have hunhealthy : OwnerRemediatedBlind fun m : Machine => !m.IsUnhealthy := fun _ _ => rfl
  have hnode : OwnerRemediatedBlind fun m : Machine => m.nodeRef.isNone := fun _ _ => rfl
  have hdeleting : OwnerRemediatedBlind Machine.deleting := fun _ _ => rfl
  have hhealthy : c'.HealthyMachines = c.HealthyMachines.map cleanupOwnerRemediated := by
    rw [ControlPlane.HealthyMachines, hmachines, hunhealthy.filter_cleanup]
    rfl
  have hprovisioning : c'.HasHealthyMachineStillProvisioning = c.HasHealthyMachineStillProvisioning := by
    rw [ControlPlane.HasHealthyMachineStillProvisioning, hhealthy, hnode.any_cleanup]
    rfl
  have hdel : c'.HasDeletingMachine = c.HasDeletingMachine := by
    rw [ControlPlane.HasDeletingMachine, hmachines, hdeleting.any_cleanup]
    rfl
  have hsafe : canSafelyRemoveEtcdMember c' m' = canSafelyRemoveEtcdMember c m := by
    unfold canSafelyRemoveEtcdMember targetMembers
    rw [hmembers, hm, memberUnhealthy_cleanup hmachines]
  unfold initializedChecks ControlPlane.IsEtcdManaged
  rw [hkcp.1, hkcp.2, hprovisioning, hdel, hsafe, hhealthy, hmachines, List.length_map,
    List.isEmpty_map]

end Cleanup

/-! ## The retry limits -/

def Continues (r : RemediationStrategy) (now : Nat) (lastRemediationData : RemediationData) : Prop :=
  lastRemediationData.timestamp ≠ 0 ∧
    now < lastRemediationData.timestamp + minHealthyPeriodSeconds r * second

instance (r : RemediationStrategy) (now : Nat) (lastRemediationData : RemediationData) :
    Decidable (Continues r now lastRemediationData) :=
  inferInstanceAs (Decidable (_ ∧ _))

theorem lastRemediationTime_continues (r : RemediationStrategy) (last : RemediationData)
    (now : Nat) :
    lastRemediationTime r last now + (minHealthyPeriodSeconds r * second : Nat) > now ↔
      Continues r now last := by
  unfold lastRemediationTime Continues
  split_ifs with h0
  · omega
  · -- a missing timestamp lies two periods back, so the healthy period has passed
    have hmax := le_max_left (minHealthyPeriodSeconds r * second) (retryPeriodSeconds r * second)
    have hcast : ((max (minHealthyPeriodSeconds r * second) (retryPeriodSeconds r * second) : Nat) : Int) =
        max ((minHealthyPeriodSeconds r * second : Nat) : Int) ((retryPeriodSeconds r * second : Nat) : Int) :=
      Nat.cast_max _ _
    constructor
    · intro h
      push_cast at hcast h
      omega
    · rintro ⟨h, -⟩
      exact absurd (not_not.mp h0) h

theorem lastRemediationTime_of_ne_zero {r : RemediationStrategy} {last : RemediationData}
    (h : last.timestamp ≠ 0) (now : Nat) : lastRemediationTime r last now = last.timestamp := by
  simp [lastRemediationTime, h]

structure RetryAccounted (r : RemediationStrategy) (now : Nat) (m : Machine)
    (d : RemediationData) : Prop where
  machine : d.machine = m.name
  recorded : d.timestamp = toRFC3339 now
  within_max : ∀ k, r.maxRetry = some k → d.retryCount ≤ k.toNat
  continued : ∀ last, m.remediationFor = some last → Continues r now last →
    d.retryCount = last.retryCount + 1 ∧ last.timestamp + retryPeriodSeconds r * second ≤ now
  restarted : (∀ last, m.remediationFor = some last → ¬Continues r now last) → d.retryCount = 0

theorem checkRetryLimits_accounted {kcp : KubeadmControlPlane} {m : Machine} {now : Nat}
    {data : RemediationData} (h : checkRetryLimits kcp m now = (data, none)) :
    RetryAccounted kcp.remediation now m data.Marshal := by
  unfold checkRetryLimits at h
  cases hrf : m.remediationFor with
  | none =>
    rw [hrf] at h
    obtain ⟨rfl, -⟩ := Prod.mk.inj h
    refine ⟨rfl, rfl, fun _ _ => Nat.zero_le _, ?_, fun _ => rfl⟩
    intro _ hl
    rw [hrf] at hl
    cases hl
  | some last =>
    rw [hrf] at h
    dsimp only at h
    have hiff := lastRemediationTime_continues kcp.remediation last now
    by_cases hc : Continues kcp.remediation now last
    · -- a retry: the retry period has passed and the count goes up by one
      have hts := lastRemediationTime_of_ne_zero (r := kcp.remediation) hc.1 now
      rw [if_neg (not_not.mpr (hiff.mpr hc))] at h
      by_cases hp : lastRemediationTime kcp.remediation last now +
          (retryPeriodSeconds kcp.remediation * second : Nat) > now
      · rw [if_pos hp] at h
        cases h
      rw [if_neg hp] at h
      have hperiod : last.timestamp + retryPeriodSeconds kcp.remediation * second ≤ now := by
        rw [hts] at hp
        omega
      have hcontinued : ∀ last', m.remediationFor = some last' →
          Continues kcp.remediation now last' → last.retryCount + 1 = last'.retryCount + 1 ∧
            last'.timestamp + retryPeriodSeconds kcp.remediation * second ≤ now := by
        intro last' hlast _
        rw [hrf] at hlast
        cases hlast
        exact ⟨rfl, hperiod⟩
      cases hk : kcp.remediation.maxRetry with
      | none =>
        rw [hk] at h
        obtain ⟨rfl, -⟩ := Prod.mk.inj h
        exact ⟨rfl, rfl, fun k hk' => by simp [hk] at hk', hcontinued,
          fun hno => absurd hc (hno last hrf)⟩
      | some k =>
        rw [hk] at h
        simp only at h
        split_ifs at h with hmax
        · cases h
        obtain ⟨rfl, -⟩ := Prod.mk.inj h
        refine ⟨rfl, rfl, ?_, hcontinued, fun hno => absurd hc (hno last hrf)⟩
        intro k' hk'
        rw [hk] at hk'
        cases hk'
        dsimp only [RemediationData.Marshal]
        omega
    · -- a new retry sequence
      rw [if_pos (fun hgt => hc (hiff.mp hgt))] at h
      obtain ⟨rfl, -⟩ := Prod.mk.inj h
      refine ⟨rfl, rfl, fun _ _ => Nat.zero_le _, ?_, fun _ => rfl⟩
      intro last' hlast hc'
      rw [hrf] at hlast
      cases hlast
      exact absurd hc' hc

/-! ## What a reconcile changes -/

def Machine.key (m : Machine) : String × Nat := (m.name, m.creationTimestamp)

structure Frame (c c' : ControlPlane) : Prop where
  keys : c'.machines.map Machine.key = c.machines.map Machine.key
  etcdMembers : c'.etcdMembers = c.etcdMembers
  topologyVersion : c'.topologyVersion = c.topologyVersion
  kcp : c'.kcp = { c.kcp with remediationInProgress := c'.kcp.remediationInProgress }

theorem Frame.trans {c₁ c₂ c₃ : ControlPlane} (h₁ : Frame c₁ c₂) (h₂ : Frame c₂ c₃) :
    Frame c₁ c₃ where
  keys := h₂.keys.trans h₁.keys
  etcdMembers := h₂.etcdMembers.trans h₁.etcdMembers
  topologyVersion := h₂.topologyVersion.trans h₁.topologyVersion
  kcp := by rw [h₂.kcp, h₁.kcp]

theorem Frame.map {c : ControlPlane} {f : Machine → Machine} (hf : ∀ m, (f m).key = m.key) :
    Frame c { c with machines := c.machines.map f } where
  keys := by
    rw [List.map_map]
    exact List.map_congr_left fun m _ => hf m
  etcdMembers := rfl
  topologyVersion := rfl
  kcp := rfl

theorem Frame.annotation (c : ControlPlane) (a : Option RemediationData) :
    Frame c { c with kcp := { c.kcp with remediationInProgress := a } } :=
  ⟨rfl, rfl, rfl, rfl⟩

theorem key_cleanupOwnerRemediated (m : Machine) : (cleanupOwnerRemediated m).key = m.key := by
  rw [cleanupOwnerRemediated_eq]
  rfl

theorem key_setOwnerRemediated (name : String) (condition : Condition) (m : Machine) :
    (if m.name = name then { m with ownerRemediated := some condition } else m).key = m.key := by
  split <;> rfl

theorem key_deleteMachine (name : String) (m : Machine) :
    (if m.name = name then
      { m with deleting := true, ownerRemediated := some ⟨false, "MachineDeleting", "Machine is deleting"⟩ }
    else m).key = m.key := by
  split <;> rfl

section Reconcile

variable {S : SortSlice} {clusterTopology : Bool} {now : Nat}

theorem remediate_frame (c : ControlPlane) (m : Machine) :
    Frame c (reconcileUnhealthyMachines.remediate clusterTopology now c m).1 := by
  unfold reconcileUnhealthyMachines.remediate
  split
  · exact Frame.map (key_setOwnerRemediated _ _)
  · split
    · exact Frame.map (key_setOwnerRemediated _ _)
    · split
      · exact Frame.map (key_setOwnerRemediated _ _)
      · exact (Frame.map (c := c) (key_deleteMachine m.name)).trans (Frame.annotation _ _)

theorem reconcileUnhealthyMachines_frame (cp : ControlPlane) :
    Frame cp (reconcileUnhealthyMachines S clusterTopology now cp).1 := by
  have hclean := Frame.map (c := cp) key_cleanupOwnerRemediated
  unfold reconcileUnhealthyMachines
  dsimp only
  split
  · exact hclean
  split
  · exact hclean
  split
  · exact hclean
  split
  · split
    · exact hclean.trans ((Frame.annotation _ none).trans (remediate_frame _ _))
    · exact hclean
  · exact hclean.trans (remediate_frame _ _)

theorem remediate_annotation {c : ControlPlane} {m : Machine}
    (h : (reconcileUnhealthyMachines.remediate clusterTopology now c m).2 ≠ .ok true) :
    (reconcileUnhealthyMachines.remediate clusterTopology now c m).1.kcp = c.kcp := by
  unfold reconcileUnhealthyMachines.remediate at h ⊢
  split
  · rfl
  · split
    · rfl
    · split
      · rfl
      · rename_i hpending _ _ hretry _ hchecks
        simp only [hpending, hretry, hchecks] at h
        exact absurd rfl h

theorem remediate_requeue {c : ControlPlane} {m : Machine}
    (h : (reconcileUnhealthyMachines.remediate clusterTopology now c m).2 = .ok true) :
    ∃ data, checkRetryLimits c.kcp m now = (data, none) ∧ initializedChecks c m = none ∧
      (reconcileUnhealthyMachines.remediate clusterTopology now c m).1.kcp.remediationInProgress =
        some data.Marshal := by
  unfold reconcileUnhealthyMachines.remediate at h ⊢
  split at h
  · cases h
  rename_i hpending
  split at h
  · cases h
  rename_i data hretry
  split at h
  · cases h
  rename_i hchecks
  exact ⟨data, hretry, hchecks, rfl⟩

theorem getMachineToBeRemediated_mem (hS : S.Lawful) {machines : List Machine} {isEtcdManaged : Bool}
    {m : Machine} (h : getMachineToBeRemediated S machines isEtcdManaged = some m) : m ∈ machines := by
  unfold getMachineToBeRemediated at h
  split at h
  · cases h
  · cases h
    exact List.mem_singleton_self m
  · exact (hS.perm _ _).subset (List.mem_of_mem_head? h)

theorem checkRetryLimits_congr {kcp kcp' : KubeadmControlPlane} {m m' : Machine}
    (hr : kcp'.remediation = kcp.remediation) (hn : m'.name = m.name)
    (hf : m'.remediationFor = m.remediationFor) (now : Nat) :
    checkRetryLimits kcp' m' now = checkRetryLimits kcp m now := by
  unfold checkRetryLimits
  rw [hr, hn, hf]

theorem reconcileUnhealthyMachines_in_flight {cp : ControlPlane} {d : RemediationData}
    (hd : cp.kcp.remediationInProgress = some d)
    (hold : ∀ m ∈ cp.machines, m.creationTimestamp ≤ d.timestamp) :
    (reconcileUnhealthyMachines S clusterTopology now cp).2 ≠ .ok true ∧
      (reconcileUnhealthyMachines S clusterTopology now cp).1.kcp.remediationInProgress = some d := by
  have hstale : ((cp.machines.map cleanupOwnerRemediated).any fun m =>
      decide (d.timestamp < m.creationTimestamp)) = false := by
    rw [List.any_eq_false]
    intro m hm
    obtain ⟨m₀, hm₀, rfl⟩ := List.mem_map.mp hm
    have hkey := congrArg Prod.snd (key_cleanupOwnerRemediated m₀)
    simp only [Machine.key] at hkey
    simpa [hkey] using hold m₀ hm₀
  unfold reconcileUnhealthyMachines
  dsimp only
  split
  · exact ⟨by simp, hd⟩
  split
  · exact ⟨by simp, hd⟩
  split
  · exact ⟨by simp, hd⟩
  rw [hd]
  dsimp only
  rw [hstale]
  exact ⟨by simp, hd⟩

theorem reconcileUnhealthyMachines_eq_remediate (hS : S.Lawful) {cp : ControlPlane}
    (h : (reconcileUnhealthyMachines S clusterTopology now cp).2 = .ok true) :
    ∃ m ∈ cp.machines, ∃ kcp' : KubeadmControlPlane, kcp'.remediation = cp.kcp.remediation ∧
      kcp'.controlPlaneInitialized = cp.kcp.controlPlaneInitialized ∧
      kcp'.etcdExternal = cp.kcp.etcdExternal ∧
      reconcileUnhealthyMachines S clusterTopology now cp =
        reconcileUnhealthyMachines.remediate clusterTopology now
          { cp with machines := cp.machines.map cleanupOwnerRemediated, kcp := kcp' }
          (cleanupOwnerRemediated m) := by
  unfold reconcileUnhealthyMachines at h ⊢
  dsimp only at h ⊢
  split at h
  · cases h
  rename_i hne
  split at h
  · cases h
  rename_i m₁ hget
  split at h
  · cases h
  rename_i hdel
  rw [if_neg hne, if_neg hdel]
  obtain ⟨m, hm, rfl⟩ := List.mem_map.mp (List.mem_of_mem_filter (getMachineToBeRemediated_mem hS hget))
  split at h
  · rename_i d hd
    split at h
    · rename_i hstale
      refine ⟨m, hm, { cp.kcp with remediationInProgress := none }, rfl, rfl, rfl, ?_⟩
      rw [if_pos hstale]
    · cases h
  · rename_i hd
    exact ⟨m, hm, cp.kcp, rfl, rfl, rfl, rfl⟩

theorem reconcileUnhealthyMachines_requeue (hS : S.Lawful) {cp : ControlPlane}
    (h : (reconcileUnhealthyMachines S clusterTopology now cp).2 = .ok true) :
    ∃ m ∈ cp.machines, ∃ data, checkRetryLimits cp.kcp m now = (data, none) ∧
      initializedChecks cp m = none ∧
      (reconcileUnhealthyMachines S clusterTopology now cp).1.kcp.remediationInProgress =
        some data.Marshal := by
  obtain ⟨m, hm, kcp', hr, hinit, hext, heq⟩ := reconcileUnhealthyMachines_eq_remediate hS h
  rw [heq] at h ⊢
  have hclean := cleanupOwnerRemediated_eq m
  have hname : (cleanupOwnerRemediated m).name = m.name := by rw [hclean]
  have hfor : (cleanupOwnerRemediated m).remediationFor = m.remediationFor := by rw [hclean]
  have hnode : (cleanupOwnerRemediated m).nodeRef = m.nodeRef := by rw [hclean]
  obtain ⟨data, hretry, hchecks, hann⟩ := remediate_requeue h
  refine ⟨m, hm, data, ?_, ?_, hann⟩
  · rw [← hretry]
    exact (checkRetryLimits_congr hr hname hfor now).symm
  · rw [← hchecks]
    exact (@initializedChecks_cleanup cp
      { cp with machines := cp.machines.map cleanupOwnerRemediated, kcp := kcp' } m
      (cleanupOwnerRemediated m) ⟨hinit, hext⟩ rfl rfl hnode).symm

end Reconcile

/-! ## The etcd quorum -/

def reportsEtcdMemberHealthy (c : ControlPlane) (etcdMember : String) : Bool :=
  (c.machines.find? fun m => m.nodeRef == some etcdMember).any Machine.etcdMemberHealthy

def QuorumKept (c : ControlPlane) (m : Machine) : Prop :=
  (targetMembers c m).length / 2 + 1 ≤ ((targetMembers c m).filter (reportsEtcdMemberHealthy c)).length

theorem reportsEtcdMemberHealthy_eq (c : ControlPlane) :
    reportsEtcdMemberHealthy c = fun etcdMember => !memberUnhealthy c etcdMember := by
  funext etcdMember
  unfold reportsEtcdMemberHealthy memberUnhealthy
  cases c.machines.find? fun m => m.nodeRef == some etcdMember <;> simp

theorem canSafelyRemoveEtcdMember_quorum {c : ControlPlane} {m : Machine}
    (h : canSafelyRemoveEtcdMember c m = true) : QuorumKept c m := by
  unfold canSafelyRemoveEtcdMember at h
  have hsplit := List.length_eq_countP_add_countP (memberUnhealthy c) (l := targetMembers c m)
  rw [QuorumKept, reportsEtcdMemberHealthy_eq, ← List.countP_eq_length_filter]
  simp only [decide_eq_true_eq] at h
  have hnot : (targetMembers c m).countP (fun e => ¬memberUnhealthy c e) =
      (targetMembers c m).countP (fun e => !memberUnhealthy c e) :=
    List.countP_congr fun e _ => by simp
  omega

theorem initializedChecks_quorum {c : ControlPlane} {m : Machine} (h : initializedChecks c m = none)
    (hinit : c.kcp.controlPlaneInitialized = true) (hetcd : c.IsEtcdManaged = true) :
    QuorumKept c m := by
  unfold initializedChecks at h
  simp only [hinit, hetcd, Bool.not_true, Bool.false_eq_true, if_false, Bool.true_and] at h
  split_ifs at h with h1 h2 h3 h4
  exact canSafelyRemoveEtcdMember_quorum (by simpa using h4)

/-! ## The system -/

/-- What `ComputeDesiredMachine` gives a new machine, with the creation time the API server
records: the annotation of the KubeadmControlPlane becomes its `RemediationFor`. -/
def ComputeDesiredMachine (kcp : KubeadmControlPlane) (name : String) (creationTimestamp : Nat) :
    Machine where
  name := name
  creationTimestamp := creationTimestamp
  deleting := false
  nodeRef := none
  healthCheckSucceeded := none
  ownerRemediated := none
  remediateMachine := false
  etcdMemberHealthy := false
  etcdPodHealthy := false
  apiServerPodHealthy := false
  controllerManagerPodHealthy := false
  schedulerPodHealthy := false
  remediationFor := kcp.remediationInProgress

structure RemediationEvent where
  time : Nat
  recorded : RemediationData
  remediationFor : Option RemediationData
  deriving DecidableEq, Repr

inductive Event
  | remediate (remediation : RemediationEvent)
  | create (name : String)
  | other
  deriving DecidableEq, Repr

def Event.isRemediation : Event → Bool
  | .remediate .. => true
  | _ => false

def Event.isCreate : Event → Bool
  | .create _ => true
  | _ => false

def RemediationInFlight (evs : List Event) : Bool := Pending Event.isRemediation Event.isCreate evs

structure World where
  controlPlane : ControlPlane
  now : Nat
  deriving DecidableEq, Repr

variable (S : SortSlice) (clusterTopology : Bool)

/-- A reconcile; the creation of a machine, with the KubeadmControlPlane patched afterwards or
not (the controller stopped in between); the end of a deletion; and what other actors do:
change the health, node and deletion of a machine, the etcd members, mark the control
plane initialized, let time pass. -/
inductive Step : World → Event → World → Prop
  | reconcile {w : World}
      (h : (reconcileUnhealthyMachines S clusterTopology w.now w.controlPlane).2 ≠ .ok true) :
      Step w .other
        { w with controlPlane := (reconcileUnhealthyMachines S clusterTopology w.now w.controlPlane).1 }
  | remediate {w : World} {m : Machine} {d : RemediationData}
      (h : (reconcileUnhealthyMachines S clusterTopology w.now w.controlPlane).2 = .ok true)
      (hd : (reconcileUnhealthyMachines S clusterTopology w.now w.controlPlane).1.kcp.remediationInProgress =
        some d)
      (hm : m ∈ w.controlPlane.machines) (hname : m.name = d.machine) :
      Step w (.remediate ⟨w.now, d, m.remediationFor⟩)
        { w with controlPlane := (reconcileUnhealthyMachines S clusterTopology w.now w.controlPlane).1 }
  | createMachine {w : World} (name : String) (hfresh : name ∉ w.controlPlane.machines.map Machine.name)
      (patched : Bool) :
      Step w (.create name)
        { w with controlPlane := { w.controlPlane with
          machines := w.controlPlane.machines ++
            [ComputeDesiredMachine w.controlPlane.kcp name (toRFC3339 w.now)]
          kcp := if patched then { w.controlPlane.kcp with remediationInProgress := none }
            else w.controlPlane.kcp } }
  | deletionCompletes {w : World} {m : Machine} (hm : m ∈ w.controlPlane.machines)
      (hdel : m.deleting = true) :
      Step w .other
        { w with controlPlane := { w.controlPlane with machines := w.controlPlane.machines.erase m } }
  | machineChanges {w : World} {m m' : Machine} (hm : m ∈ w.controlPlane.machines)
      (hkey : m'.key = m.key) (hfor : m'.remediationFor = m.remediationFor) :
      Step w .other
        { w with controlPlane := { w.controlPlane with
          machines := w.controlPlane.machines.map fun x => if x = m then m' else x } }
  | etcdMembersChange {w : World} (etcdMembers : List String) :
      Step w .other { w with controlPlane := { w.controlPlane with etcdMembers } }
  | markInitialized {w : World} :
      Step w .other { w with controlPlane := { w.controlPlane with
        kcp := { w.controlPlane.kcp with controlPlaneInitialized := true } } }
  | tick {w : World} (t : Nat) (h : w.now ≤ t) : Step w .other { w with now := t }

/-! ## Runs -/

theorem toRFC3339_mono {a b : Nat} (h : a ≤ b) : toRFC3339 a ≤ toRFC3339 b :=
  Nat.mul_le_mul_right _ (Nat.div_le_div_right h)

theorem Frame.names {c c' : ControlPlane} (h : Frame c c') :
    c'.machines.map Machine.name = c.machines.map Machine.name := by
  have hfst := congrArg (List.map Prod.fst) h.keys
  have hname : Prod.fst ∘ Machine.key = Machine.name := rfl
  simpa only [List.map_map, hname] using hfst

theorem Frame.creationTimestamp_le {c c' : ControlPlane} (h : Frame c c') {bound : Nat}
    (hle : ∀ m ∈ c.machines, m.creationTimestamp ≤ bound) :
    ∀ m' ∈ c'.machines, m'.creationTimestamp ≤ bound := by
  intro m' hm'
  have hkey : m'.key ∈ c.machines.map Machine.key := h.keys ▸ List.mem_map_of_mem hm'
  obtain ⟨m, hm, hk⟩ := List.mem_map.mp hkey
  have hts : m.creationTimestamp = m'.creationTimestamp := congrArg Prod.snd hk
  exact hts ▸ hle m hm

structure Invariant (w : World) (evs : List Event) : Prop where
  names_nodup : (w.controlPlane.machines.map Machine.name).Nodup
  created_before : ∀ m ∈ w.controlPlane.machines, m.creationTimestamp ≤ toRFC3339 w.now
  in_flight : RemediationInFlight evs = true → ∃ d, w.controlPlane.kcp.remediationInProgress = some d ∧
    ∀ m ∈ w.controlPlane.machines, m.creationTimestamp ≤ d.timestamp

structure Initial (w : World) : Prop where
  names_nodup : (w.controlPlane.machines.map Machine.name).Nodup
  created_before : ∀ m ∈ w.controlPlane.machines, m.creationTimestamp ≤ toRFC3339 w.now

theorem Initial.invariant {w : World} (h : Initial w) : Invariant w [] :=
  ⟨h.names_nodup, h.created_before, fun hp => absurd hp (by simp [RemediationInFlight])⟩

@[simp]
theorem RemediationInFlight_append_other (evs : List Event) :
    RemediationInFlight (evs ++ [.other]) = RemediationInFlight evs := by
  simp [RemediationInFlight, pendingAfter, Event.isRemediation, Event.isCreate]

@[simp]
theorem RemediationInFlight_append_remediate (evs : List Event) (r : RemediationEvent) :
    RemediationInFlight (evs ++ [.remediate r]) = true := by
  simp [RemediationInFlight, pendingAfter, Event.isRemediation]

@[simp]
theorem RemediationInFlight_append_create (evs : List Event) (name : String) :
    RemediationInFlight (evs ++ [.create name]) = false := by
  simp [RemediationInFlight, pendingAfter, Event.isRemediation, Event.isCreate]

theorem Invariant.of_frame {w : World} {evs evs' : List Event} {c' : ControlPlane}
    (hinv : Invariant w evs) (hf : Frame w.controlPlane c')
    (hflight : RemediationInFlight evs' = true → ∃ d, c'.kcp.remediationInProgress = some d ∧
      ∀ m ∈ c'.machines, m.creationTimestamp ≤ d.timestamp) :
    Invariant { w with controlPlane := c' } evs' where
  names_nodup := by
    rw [hf.names]
    exact hinv.names_nodup
  created_before := hf.creationTimestamp_le hinv.created_before
  in_flight := hflight

section Steps

variable {S : SortSlice} {clusterTopology : Bool}

theorem Invariant.step (hS : S.Lawful) {w w' : World} {evs : List Event} {e : Event}
    (hinv : Invariant w evs) (hs : Step S clusterTopology w e w') : Invariant w' (evs ++ [e]) := by
  cases hs with
  | reconcile h =>
    have hf := @reconcileUnhealthyMachines_frame S clusterTopology w.now w.controlPlane
    refine hinv.of_frame hf fun hp => ?_
    rw [RemediationInFlight_append_other] at hp
    obtain ⟨d, hd, hold⟩ := hinv.in_flight hp
    exact ⟨d, (reconcileUnhealthyMachines_in_flight hd hold).2, hf.creationTimestamp_le hold⟩
  | remediate h hd hm hname =>
    have hf := @reconcileUnhealthyMachines_frame S clusterTopology w.now w.controlPlane
    refine hinv.of_frame hf fun _ => ⟨_, hd, ?_⟩
    obtain ⟨m₀, -, data, hretry, -, hann⟩ := reconcileUnhealthyMachines_requeue hS h
    rw [hann] at hd
    cases hd
    rw [(checkRetryLimits_accounted hretry).recorded]
    exact hf.creationTimestamp_le hinv.created_before
  | createMachine name hfresh patched =>
    refine ⟨?_, ?_, fun hp => by simp at hp⟩
    · simp only [List.map_append, List.map_singleton, List.nodup_append]
      refine ⟨hinv.names_nodup, List.nodup_singleton _, ?_⟩
      intro a ha b hb hab
      rw [List.mem_singleton.mp hb] at hab
      rw [hab] at ha
      exact hfresh ha
    · intro m hm
      rcases List.mem_append.mp hm with hm | hm
      · exact hinv.created_before m hm
      · rw [List.mem_singleton.mp hm]
        exact le_refl _
  | deletionCompletes hm hdel =>
    refine ⟨?_, fun m' hm' => hinv.created_before m' (List.mem_of_mem_erase hm'), fun hp => ?_⟩
    · exact hinv.names_nodup.sublist (List.erase_sublist.map _)
    · rw [RemediationInFlight_append_other] at hp
      obtain ⟨d, hd, hold⟩ := hinv.in_flight hp
      exact ⟨d, hd, fun m' hm' => hold m' (List.mem_of_mem_erase hm')⟩
  | @machineChanges m m' hm hkey hfor =>
    have hf := Frame.map (c := w.controlPlane) (f := fun x => if x = m then m' else x)
      (fun x => by split <;> simp_all)
    refine hinv.of_frame hf fun hp => ?_
    rw [RemediationInFlight_append_other] at hp
    obtain ⟨d, hd, hold⟩ := hinv.in_flight hp
    exact ⟨d, hd, hf.creationTimestamp_le hold⟩
  | etcdMembersChange etcdMembers =>
    refine ⟨hinv.names_nodup, hinv.created_before, fun hp => ?_⟩
    rw [RemediationInFlight_append_other] at hp
    exact hinv.in_flight hp
  | markInitialized =>
    refine ⟨hinv.names_nodup, hinv.created_before, fun hp => ?_⟩
    rw [RemediationInFlight_append_other] at hp
    exact hinv.in_flight hp
  | tick t ht =>
    refine ⟨hinv.names_nodup, fun m hm => (hinv.created_before m hm).trans (toRFC3339_mono ht),
      fun hp => ?_⟩
    rw [RemediationInFlight_append_other] at hp
    exact hinv.in_flight hp

/-- The invariant holds after every run from a start state. -/
theorem Invariant.reachable (hS : S.Lawful) {w₀ w : World} {evs : List Event} (h₀ : Initial w₀)
    (hrun : Run (Step S clusterTopology) w₀ evs w) : Invariant w evs :=
  Run.invariant (fun w evs => Invariant w evs) h₀.invariant
    (fun _ _ _ _ _ hinv hs => hinv.step hS hs) hrun

theorem Step.remediation_eq {w w' : World} {e : Event} (hs : Step S clusterTopology w e w') :
    w'.controlPlane.kcp.remediation = w.controlPlane.kcp.remediation := by
  cases hs with
  | reconcile => rw [(reconcileUnhealthyMachines_frame _).kcp]
  | remediate => rw [(reconcileUnhealthyMachines_frame _).kcp]
  | createMachine name hfresh patched => cases patched <;> rfl
  | _ => rfl

theorem remediation_eq_of_run {w₀ w : World} {evs : List Event}
    (hrun : Run (Step S clusterTopology) w₀ evs w) :
    w.controlPlane.kcp.remediation = w₀.controlPlane.kcp.remediation :=
  Run.invariant (fun w _ => w.controlPlane.kcp.remediation = w₀.controlPlane.kcp.remediation) rfl
    (fun _ _ _ _ _ h hs => (hs.remediation_eq).trans h) hrun

end Steps

/-! ## Every remediation of a run -/

section Runs

variable {S : SortSlice} {clusterTopology : Bool}

theorem remediation_of_run (hS : S.Lawful) {w₀ w : World} {evs : List Event}
    (h₀ : Initial w₀) (hrun : Run (Step S clusterTopology) w₀ evs w)
    {pre post : List Event} {r : RemediationEvent} (hevs : evs = pre ++ .remediate r :: post) :
    RemediationInFlight pre = false ∧
    ∃ u, Run (Step S clusterTopology) w₀ pre u ∧ u.now = r.time ∧
      ∃ m ∈ u.controlPlane.machines, m.remediationFor = r.remediationFor ∧
        (u.controlPlane.kcp.controlPlaneInitialized = true → u.controlPlane.IsEtcdManaged = true →
          QuorumKept u.controlPlane m) ∧
        RetryAccounted w₀.controlPlane.kcp.remediation r.time m r.recorded := by
  obtain ⟨u, v, hpre, hstep, -⟩ := hrun.split hevs
  have hinv := Invariant.reachable hS h₀ hpre
  have hstrategy := remediation_eq_of_run hpre
  cases hstep with
  | @remediate m d h hd hm hname =>
    obtain ⟨m₀, hm₀, data, hretry, hchecks, hann⟩ := reconcileUnhealthyMachines_requeue hS h
    have hacc := checkRetryLimits_accounted hretry
    rw [hann] at hd
    cases hd
    -- names are unique, so the machine of the event is the one the reconcile deleted
    obtain rfl : m = m₀ := List.inj_on_of_nodup_map hinv.names_nodup hm hm₀ (hname.trans hacc.machine)
    refine ⟨?_, u, hpre, rfl, m, hm, rfl, fun hinit hetcd => initializedChecks_quorum hchecks hinit hetcd, ?_⟩
    · cases hflight : RemediationInFlight pre
      · rfl
      · obtain ⟨d', hd', hold⟩ := hinv.in_flight hflight
        exact absurd h (reconcileUnhealthyMachines_in_flight hd' hold).1
    · rw [← hstrategy]
      exact hacc

theorem create_between_remediations (hS : S.Lawful) {w₀ w : World} {evs : List Event}
    (h₀ : Initial w₀) (hrun : Run (Step S clusterTopology) w₀ evs w)
    {pre mid post : List Event} {a b : RemediationEvent}
    (hevs : evs = pre ++ .remediate a :: (mid ++ .remediate b :: post)) :
    ∃ name, .create name ∈ mid := by
  have hnot : ∀ pre' e post', evs = pre' ++ e :: post' → e.isRemediation = true →
      Pending Event.isRemediation Event.isCreate pre' = false := by
    intro pre' e post' he hA
    cases e with
    | remediate r => exact (remediation_of_run hS h₀ hrun he).1
    | create name => cases hA
    | other => cases hA
  obtain ⟨c, hc, hcreate⟩ := exists_between Event.isRemediation Event.isCreate hnot hevs rfl rfl
  cases c with
  | create name => exact ⟨name, hc⟩
  | remediate r => cases hcreate
  | other => cases hcreate

/-- `b` retries `a`: the machine `b` deletes was created for `a`, within the minimum healthy
period of the second `a` recorded. -/
def RetryOf (r : RemediationStrategy) (a b : RemediationEvent) : Prop :=
  b.remediationFor = some a.recorded ∧ Continues r b.time a.recorded

theorem length_add_le_of_isChain {α : Type} {R : α → α → Prop} {f : α → Nat} {k : Nat}
    {a : α} {l : List α} (hc : (a :: l).IsChain R) (hle : ∀ e ∈ a :: l, f e ≤ k)
    (hsucc : ∀ x ∈ a :: l, ∀ y ∈ a :: l, R x y → f y = f x + 1) : f a + l.length ≤ k := by
  induction l generalizing a with
  | nil => simpa using hle a List.mem_cons_self
  | cons b rest ih =>
    rw [List.isChain_cons_cons] at hc
    have hb : f b = f a + 1 :=
      hsucc a List.mem_cons_self b (List.mem_cons_of_mem _ List.mem_cons_self) hc.1
    have hrest := ih hc.2 (fun e he => hle e (List.mem_cons_of_mem _ he))
      (fun x hx y hy => hsucc x (List.mem_cons_of_mem _ hx) y (List.mem_cons_of_mem _ hy))
    simp only [List.length_cons]
    omega

theorem retries_of_run (hS : S.Lawful) {w₀ w : World} {evs : List Event}
    (h₀ : Initial w₀) (hrun : Run (Step S clusterTopology) w₀ evs w) {k : Int}
    (hk : w₀.controlPlane.kcp.remediation.maxRetry = some k) {chain : List RemediationEvent}
    (hsub : (chain.map Event.remediate).Sublist evs)
    (hchain : chain.IsChain (RetryOf w₀.controlPlane.kcp.remediation)) : chain.length ≤ k.toNat + 1 := by
  have hacc : ∀ e ∈ chain, ∃ m : Machine, m.remediationFor = e.remediationFor ∧
      RetryAccounted w₀.controlPlane.kcp.remediation e.time m e.recorded := by
    intro e he
    obtain ⟨pre, post, hevs⟩ := List.append_of_mem (hsub.subset (List.mem_map_of_mem he))
    obtain ⟨-, u, -, -, m, -, hfor, -, hretry⟩ := remediation_of_run hS h₀ hrun hevs
    exact ⟨m, hfor, hretry⟩
  cases chain with
  | nil => simp
  | cons a rest =>
    have hlen := length_add_le_of_isChain (f := fun e => e.recorded.retryCount) hchain
      (fun e he => by
        obtain ⟨m, -, hretry⟩ := hacc e he
        exact hretry.within_max k hk)
      (fun x _ y hy hxy => by
        obtain ⟨m, hfor, hretry⟩ := hacc y hy
        exact (hretry.continued x.recorded (hfor.trans hxy.1) hxy.2).1)
    simp only [List.length_cons]
    omega

structure RemediationsSafe (S : SortSlice) (clusterTopology : Bool) (w₀ : World)
    (evs : List Event) : Prop where
  each : ∀ (pre : List Event) (r : RemediationEvent) (post : List Event),
    evs = pre ++ .remediate r :: post →
    RemediationInFlight pre = false ∧
    ∃ u, Run (Step S clusterTopology) w₀ pre u ∧ u.now = r.time ∧
      ∃ m ∈ u.controlPlane.machines, m.remediationFor = r.remediationFor ∧
        (u.controlPlane.kcp.controlPlaneInitialized = true → u.controlPlane.IsEtcdManaged = true →
          QuorumKept u.controlPlane m) ∧
        RetryAccounted w₀.controlPlane.kcp.remediation r.time m r.recorded
  separated : ∀ (pre : List Event) (a : RemediationEvent) (mid : List Event) (b : RemediationEvent)
    (post : List Event), evs = pre ++ .remediate a :: (mid ++ .remediate b :: post) →
    ∃ name : String, .create name ∈ mid
  retries : ∀ k : Int, w₀.controlPlane.kcp.remediation.maxRetry = some k →
    ∀ chain : List RemediationEvent, (chain.map Event.remediate).Sublist evs →
      chain.IsChain (RetryOf w₀.controlPlane.kcp.remediation) → chain.length ≤ k.toNat + 1

theorem remediation_run_safe (hS : S.Lawful) {w₀ w : World} {evs : List Event}
    (h₀ : Initial w₀) (hrun : Run (Step S clusterTopology) w₀ evs w) :
    RemediationsSafe S clusterTopology w₀ evs where
  each _ _ _ hevs := remediation_of_run hS h₀ hrun hevs
  separated _ _ _ _ _ hevs := create_between_remediations hS h₀ hrun hevs
  retries _ hk _ hsub hchain := retries_of_run hS h₀ hrun hk hsub hchain

end Runs

/-! ## A retry the recorded second lets through

With `MaxRetry` 0 and a minimum healthy period of 60 s, machine `a` is remediated at 100.9 s,
which records 100 s. Its replacement `b`, created at 101.5 s, fails and is remediated at
160.5 s, 59.6 s later. The annotation has 100 s, and 100 s + 60 s is not after 160.5 s, so
`checkRetryLimits` starts a new retry sequence and deletes `b` as well. -/

def machineA : Machine where
  name := "a"
  creationTimestamp := 50 * second
  deleting := false
  nodeRef := none
  healthCheckSucceeded := some false
  ownerRemediated := some ⟨false, "WaitingForRemediation", ""⟩
  remediateMachine := false
  etcdMemberHealthy := false
  etcdPodHealthy := false
  apiServerPodHealthy := false
  controllerManagerPodHealthy := false
  schedulerPodHealthy := false
  remediationFor := none

def retryWorld : World where
  controlPlane :=
    { kcp := { version := "v1.33.0", remediation := ⟨some 0, none, some 60⟩,
               controlPlaneInitialized := false, etcdExternal := false,
               remediationInProgress := none }
      topologyVersion := none
      machines := [machineA]
      etcdMembers := [] }
  now := 100900000000

def retryFirst : RemediationEvent := ⟨100900000000, ⟨"a", 100 * second, 0⟩, none⟩

def retrySecond : RemediationEvent :=
  ⟨160500000000, ⟨"b", 160 * second, 0⟩, some ⟨"a", 100 * second, 0⟩⟩

def retryRun : List Event :=
  [.remediate retryFirst, .other, .create "b", .other, .other, .other, .remediate retrySecond]

theorem retryWorld_initial : Initial retryWorld :=
  ⟨by decide, by decide⟩

def machineB : Machine where
  name := "b"
  creationTimestamp := 101 * second
  deleting := false
  nodeRef := none
  healthCheckSucceeded := none
  ownerRemediated := none
  remediateMachine := false
  etcdMemberHealthy := false
  etcdPodHealthy := false
  apiServerPodHealthy := false
  controllerManagerPodHealthy := false
  schedulerPodHealthy := false
  remediationFor := some ⟨"a", 100 * second, 0⟩

theorem retryRun_run : ∃ w, Run (Step SortSlice.sample false) retryWorld retryRun w :=
  -- `a` is remediated, time passes, `b` is created for it, `a` goes away, `b` fails, time
  -- passes, and `b` is remediated
  ⟨_, Run.snoc (Run.snoc (Run.snoc (Run.snoc (Run.snoc (Run.snoc (Run.snoc (Run.nil retryWorld)
    (Step.remediate (m := machineA) (d := ⟨"a", 100 * second, 0⟩) rfl rfl (by decide) rfl))
    (Step.tick 101500000000 (by decide)))
    (Step.createMachine "b" (by decide) true))
    (Step.deletionCompletes (m := { machineA with
      deleting := true, ownerRemediated := some ⟨false, "MachineDeleting", "Machine is deleting"⟩ })
      (by decide) rfl))
    (@Step.machineChanges SortSlice.sample false _ machineB { machineB with
      healthCheckSucceeded := some false, ownerRemediated := some ⟨false, "WaitingForRemediation", ""⟩ }
      (by decide) rfl rfl))
    (Step.tick 160500000000 (by decide)))
    (Step.remediate (m := { machineB with
      healthCheckSucceeded := some false, ownerRemediated := some ⟨false, "WaitingForRemediation", ""⟩ })
      (d := ⟨"b", 160 * second, 0⟩) rfl rfl (by decide) rfl)⟩

def RetryOfByClock (r : RemediationStrategy) (a b : RemediationEvent) : Prop :=
  b.remediationFor = some a.recorded ∧ b.time < a.time + minHealthyPeriodSeconds r * second

/-- With `MaxRetry` 0, a run deletes a machine and, 59.6 s later, the replacement created for it:
two deletions in one retry sequence on the clock. -/
theorem remediation_retried_within_healthy_period :
    Initial retryWorld ∧ retryWorld.controlPlane.kcp.remediation.maxRetry = some 0 ∧
      (∃ w, Run (Step SortSlice.sample false) retryWorld retryRun w) ∧
      ([retryFirst, retrySecond].map Event.remediate).Sublist retryRun ∧
      [retryFirst, retrySecond].IsChain (RetryOfByClock retryWorld.controlPlane.kcp.remediation) ∧
      0 + 1 < [retryFirst, retrySecond].length :=
  ⟨retryWorld_initial, rfl, retryRun_run, by decide,
    List.IsChain.cons_cons ⟨rfl, by decide⟩ (List.isChain_singleton _), by decide⟩

theorem remediation_run_safe_sample : RemediationsSafe SortSlice.sample false retryWorld retryRun := by
  obtain ⟨w, hrun⟩ := retryRun_run
  exact remediation_run_safe SortSlice.sample_lawful retryWorld_initial hrun

end ClusterApi.Kubeadm.Remediation
