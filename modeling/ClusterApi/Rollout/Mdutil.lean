import ClusterApi.Lib.GoStrings

/-!
# MachineDeployment utilities

The replica arithmetic of `internal/controllers/machinedeployment/mdutil/util.go` that the
rollout planner uses: the sums over MachineSets, `MaxUnavailable` through `ResolveFenceposts`,
and `NewMSNewReplicas`, which says how far the new MachineSet of a rollout may scale up.

Replica counts are Go `int32`s: every sum and difference of them is wrapped by `int32` where Go
computes it, and the theorems state when nothing wraps. The counts a MachineSet observes
(`status.replicas`, `status.availableReplicas`) are natural numbers, and a nil status count is 0,
which is what every reader's `ptr.Deref(..., 0)` makes of it.
`intstrutil.GetScaledValueFromIntOrPercent` is not in the repository: it is a parameter of the
functions that call it, and returns a Go `int`.
-/

namespace ClusterApi.Rollout
open ClusterApi.Lib.GoStrings

inductive MachineDeploymentRolloutStrategyType
  | RollingUpdate
  | OnDelete
  /-- Any other value of the field, as the `default:` branches see it. -/
  | other (value : String)
  deriving DecidableEq, Repr

inductive IntOrString
  | int (value : Int)
  | string (value : String)
  deriving DecidableEq, Repr

/-- What the rollout reads of a MachineDeployment: `spec.replicas` (never nil once the planner
is initialised) and `spec.rollout.strategy`. -/
structure MachineDeployment where
  replicas : Int
  strategyType : MachineDeploymentRolloutStrategyType
  maxSurge : Option IntOrString
  maxUnavailable : Option IntOrString
  deriving DecidableEq, Repr

structure MachineSet where
  name : String
  creationTimestamp : Nat
  /-- `spec.replicas` -/
  replicas : Int
  /-- `status.replicas` -/
  statusReplicas : Nat
  /-- `status.availableReplicas` -/
  availableReplicas : Nat
  deriving DecidableEq, Repr

def GetReplicaCountForMachineSets (machineSets : List MachineSet) : Int :=
  machineSets.foldl (fun totalReplicas ms => int32 (totalReplicas + ms.replicas)) 0

def GetAvailableReplicaCountForMachineSets (machineSets : List MachineSet) : Int :=
  machineSets.foldl (fun totalAvailableReplicas ms =>
    int32 (totalAvailableReplicas + ms.availableReplicas)) 0

def TotalMachineSetsReplicaSum (machineSets : List MachineSet) : Int :=
  machineSets.foldl (fun totalReplicas ms =>
    int32 (totalReplicas + max ms.replicas ms.statusReplicas)) 0

/-- The machines a list of MachineSets has or is about to have, `max(spec.replicas,
status.replicas)` each: what `TotalMachineSetsReplicaSum` adds up before `int32` wraps it. -/
def machineCount (machineSets : List MachineSet) : Int :=
  (machineSets.map fun ms => max ms.replicas ms.statusReplicas).sum

theorem GetReplicaCountForMachineSets_eq (machineSets : List MachineSet) :
    GetReplicaCountForMachineSets machineSets = int32 (machineSets.map (·.replicas)).sum :=
  foldl_int32_add_zero _ machineSets

theorem GetAvailableReplicaCountForMachineSets_eq (machineSets : List MachineSet) :
    GetAvailableReplicaCountForMachineSets machineSets =
      int32 (machineSets.map fun ms => (ms.availableReplicas : Int)).sum :=
  foldl_int32_add_zero _ machineSets

theorem TotalMachineSetsReplicaSum_eq (machineSets : List MachineSet) :
    TotalMachineSetsReplicaSum machineSets = int32 (machineCount machineSets) :=
  foldl_int32_add_zero _ machineSets

def creationTimestampLess (a b : MachineSet) : Bool :=
  if a.creationTimestamp = b.creationTimestamp then a.name < b.name
  else a.creationTimestamp < b.creationTimestamp

def MachineSetsByCreationTimestamp (machineSets : List MachineSet) : List MachineSet :=
  machineSets.insertionSort fun a b => creationTimestampLess a b = true

theorem MachineSetsByCreationTimestamp_perm (machineSets : List MachineSet) :
    (MachineSetsByCreationTimestamp machineSets).Perm machineSets :=
  List.perm_insertionSort _ _

/-! ### The sums -/

theorem machineCount_nonneg (machineSets : List MachineSet) : 0 ≤ machineCount machineSets := by
  unfold machineCount
  apply List.sum_nonneg
  intro x hx
  obtain ⟨ms, -, rfl⟩ := List.mem_map.mp hx
  exact le_max_of_le_right (Int.natCast_nonneg _)

theorem TotalMachineSetsReplicaSum_of_lt {machineSets : List MachineSet}
    (h : machineCount machineSets < 2 ^ 31) :
    TotalMachineSetsReplicaSum machineSets = machineCount machineSets := by
  have := machineCount_nonneg machineSets
  rw [TotalMachineSetsReplicaSum_eq, int32_of_lt (by omega) h]

theorem machineCount_append_cons (l₁ l₂ : List MachineSet) (ms : MachineSet) :
    machineCount (l₁ ++ ms :: l₂) =
      machineCount l₁ + max ms.replicas ms.statusReplicas + machineCount l₂ := by
  simp only [machineCount, List.map_append, List.map_cons, List.sum_append, List.sum_cons]
  ring

theorem replicas_le_machineCount (l₁ l₂ : List MachineSet) (ms : MachineSet) :
    ms.replicas ≤ machineCount (l₁ ++ ms :: l₂) := by
  rw [machineCount_append_cons]
  have h₁ := machineCount_nonneg l₁
  have h₂ := machineCount_nonneg l₂
  have hmax := le_max_left ms.replicas ms.statusReplicas
  omega

theorem machineCount_raise (l₁ l₂ : List MachineSet) (ms : MachineSet)
    (replicas : Int) (h : ms.replicas ≤ replicas) :
    machineCount (l₁ ++ { ms with replicas } :: l₂) ≤
      machineCount (l₁ ++ ms :: l₂) + (replicas - ms.replicas) := by
  rw [machineCount_append_cons, machineCount_append_cons]
  dsimp only
  have : max replicas (ms.statusReplicas : Int) ≤ max ms.replicas ms.statusReplicas +
      (replicas - ms.replicas) := by
    rcases le_total replicas ms.statusReplicas with hle | hle
    · rw [max_eq_right hle, max_eq_right (h.trans hle)]
      omega
    · rw [max_eq_left hle]
      have := le_max_left ms.replicas ms.statusReplicas
      omega
  omega

def replicaMass (machineSets : List MachineSet) : Int :=
  (machineSets.map fun ms => |ms.replicas| + (ms.statusReplicas : Int) + ms.availableReplicas).sum

theorem le_replicaMass {machineSets : List MachineSet} {ms : MachineSet} (hms : ms ∈ machineSets) :
    |ms.replicas| + (ms.statusReplicas : Int) + ms.availableReplicas ≤ replicaMass machineSets := by
  refine List.single_le_sum (fun d hd => ?_) _ (List.mem_map_of_mem hms)
  obtain ⟨ms', -, rfl⟩ := List.mem_map.mp hd
  have := abs_nonneg ms'.replicas
  omega

theorem replicaMass_nonneg (machineSets : List MachineSet) : 0 ≤ replicaMass machineSets := by
  unfold replicaMass
  exact List.sum_nonneg fun d hd => by
    obtain ⟨ms, -, rfl⟩ := List.mem_map.mp hd
    have := abs_nonneg ms.replicas
    omega

theorem abs_sum_replicas_le_replicaMass (machineSets : List MachineSet) :
    |(machineSets.map (·.replicas)).sum| ≤ replicaMass machineSets :=
  calc |(machineSets.map (·.replicas)).sum|
      ≤ (machineSets.map fun ms => |ms.replicas|).sum := by
        simpa [Function.comp_def] using
          Multiset.abs_sum_le_sum_abs (s := (machineSets.map (·.replicas) : Multiset Int))
    _ ≤ replicaMass machineSets := by
        unfold replicaMass
        exact List.sum_le_sum fun ms _ => by omega

theorem sum_le_replicaMass (machineSets : List MachineSet) {f : MachineSet → Int}
    (hf : ∀ ms ∈ machineSets, f ms ≤ |ms.replicas| + (ms.statusReplicas : Int) + ms.availableReplicas) :
    (machineSets.map f).sum ≤ replicaMass machineSets := by
  unfold replicaMass
  exact List.sum_le_sum hf

theorem machineCount_le_replicaMass (machineSets : List MachineSet) :
    machineCount machineSets ≤ replicaMass machineSets :=
  sum_le_replicaMass machineSets fun ms _ => by
    have := le_abs_self ms.replicas
    have := abs_nonneg ms.replicas
    omega

def scaledIntValue : Option IntOrString → Int → Bool → Except String Int
  | some (.int value), _, _ => .ok value
  | some (.string value), _, _ => .error ("invalid value for IntOrString: " ++ value)
  | none, _, _ => .error "nil value for IntOrString"

section Scaled

variable (GetScaledValueFromIntOrPercent : Option IntOrString → Int → Bool → Except String Int)

def IsRollingUpdate (deployment : MachineDeployment) : Bool :=
  deployment.strategyType = .RollingUpdate

def ResolveFenceposts (maxSurge maxUnavailable : Option IntOrString) (desired : Int) :
    Except String (Int × Int) :=
  match GetScaledValueFromIntOrPercent maxSurge desired true with
  | .error e => .error e
  | .ok surge =>
    match GetScaledValueFromIntOrPercent maxUnavailable desired false with
    | .error e => .error e
    | .ok unavailable =>
      -- both resolved to zero: one machine may be unavailable, since surge may not work
      let unavailable := if surge = 0 ∧ unavailable = 0 then 1 else unavailable
      .ok (int32 surge, int32 unavailable)

/-- The error of `ResolveFenceposts` is dropped (validation catches it): `maxUnavailable` is then
its zero value. -/
def MaxUnavailable (deployment : MachineDeployment) : Int :=
  if !IsRollingUpdate deployment || deployment.replicas == 0 then 0
  else
    let maxUnavailable := match ResolveFenceposts GetScaledValueFromIntOrPercent
        deployment.maxSurge deployment.maxUnavailable deployment.replicas with
      | .ok (_, maxUnavailable) => maxUnavailable
      | .error _ => 0
    if maxUnavailable > deployment.replicas then deployment.replicas else maxUnavailable

/-- The replicas the new MachineSet may have, with the note the planner records. -/
def NewMSNewReplicas (deployment : MachineDeployment) (allMSs : List MachineSet)
    (newMSReplicas : Int) : Except String (Int × String) :=
  match deployment.strategyType with
  | .RollingUpdate =>
    match GetScaledValueFromIntOrPercent deployment.maxSurge deployment.replicas true with
    | .error e => .error e
    | .ok maxSurge =>
      let currentMachineCount := TotalMachineSetsReplicaSum allMSs
      let maxTotalMachines := int32 (deployment.replicas + int32 maxSurge)
      if currentMachineCount ≥ maxTotalMachines then
        .ok (newMSReplicas, toString currentMachineCount ++ " current Machines >= " ++
          toString deployment.replicas ++ " MachineDeployment spec.replicas + " ++
          toString maxSurge ++ " maxSurge")
      else
        -- scale up, but not past the desired replicas
        let scaleUpCount := int32 (maxTotalMachines - currentMachineCount)
        let scaleUpCount := min scaleUpCount (int32 (deployment.replicas - newMSReplicas))
        .ok (int32 (newMSReplicas + scaleUpCount), toString currentMachineCount ++
          " current Machines < " ++ toString deployment.replicas ++
          " MachineDeployment spec.replicas + " ++ toString maxSurge ++ " maxSurge")
  | .OnDelete =>
    let currentMachineCount := TotalMachineSetsReplicaSum allMSs
    if currentMachineCount ≥ deployment.replicas then
      .ok (newMSReplicas, toString currentMachineCount ++ " current Machines >= " ++
        toString deployment.replicas ++ " MachineDeployment spec.replicas")
    else
      let scaleUpCount := int32 (deployment.replicas - currentMachineCount)
      .ok (int32 (newMSReplicas + scaleUpCount), toString currentMachineCount ++
        " current Machines < " ++ toString deployment.replicas ++
        " MachineDeployment spec.replicas")
  | .other strategyType =>
    .error ("failed to compute replicas: deployment strategy " ++ strategyType ++
      " isn't supported")

/-- For RollingUpdate with `maxSurge` resolved, and for OnDelete with no surge, when nothing wraps:
the new MachineSet of a list is given replicas between its own and the MachineDeployment's, and
the machines of the list then stay within the larger of what they were and `replicas +
maxSurge`. -/
theorem NewMSNewReplicas_bounds (deployment : MachineDeployment) (l₁ l₂ : List MachineSet)
    (newMS : MachineSet) (maxSurge : Int)
    (hstrategy : (deployment.strategyType = .RollingUpdate ∧
        GetScaledValueFromIntOrPercent deployment.maxSurge deployment.replicas true = .ok maxSurge) ∨
      (deployment.strategyType = .OnDelete ∧ maxSurge = 0))
    (hreplicas : 0 ≤ deployment.replicas) (hn : newMS.replicas ≤ deployment.replicas)
    (hsurge : -2 ^ 31 ≤ deployment.replicas + maxSurge ∧ deployment.replicas + maxSurge < 2 ^ 31)
    (hgap : deployment.replicas - newMS.replicas < 2 ^ 31)
    (hcount : machineCount (l₁ ++ newMS :: l₂) < 2 ^ 31) :
    ∃ newReplicas note, NewMSNewReplicas GetScaledValueFromIntOrPercent deployment
        (l₁ ++ newMS :: l₂) newMS.replicas = .ok (newReplicas, note) ∧
      newMS.replicas ≤ newReplicas ∧ newReplicas ≤ deployment.replicas ∧
      TotalMachineSetsReplicaSum (l₁ ++ { newMS with replicas := newReplicas } :: l₂) ≤
        max (TotalMachineSetsReplicaSum (l₁ ++ newMS :: l₂)) (deployment.replicas + maxSurge) := by
  have hown := replicas_le_machineCount l₁ l₂ newMS
  have hnonneg := machineCount_nonneg (l₁ ++ newMS :: l₂)
  rw [TotalMachineSetsReplicaSum_of_lt hcount]
  have hraised : ∀ newReplicas, newMS.replicas ≤ newReplicas →
      newReplicas - newMS.replicas ≤ deployment.replicas + maxSurge -
        machineCount (l₁ ++ newMS :: l₂) →
      TotalMachineSetsReplicaSum (l₁ ++ { newMS with replicas := newReplicas } :: l₂) ≤
        deployment.replicas + maxSurge := by
    intro newReplicas hle hfits
    have hraise := machineCount_raise l₁ l₂ newMS newReplicas hle
    rw [TotalMachineSetsReplicaSum_of_lt (by omega)]
    omega
  rcases hstrategy with ⟨hrolling, hscaled⟩ | ⟨hondelete, rfl⟩
  · simp only [NewMSNewReplicas, hrolling, hscaled, TotalMachineSetsReplicaSum_of_lt hcount,
      int32_add_int32_right, int32_of_lt hsurge.1 hsurge.2]
    split_ifs with hge
    · -- at the surge limit: no scale up
      exact ⟨_, _, rfl, le_rfl, hn, le_max_of_le_left (TotalMachineSetsReplicaSum_of_lt hcount).le⟩
    · -- the scale up fits both the surge limit and the desired replicas, and wraps nowhere
      simp (disch := omega) only [int32_of_lt]
      exact ⟨_, _, rfl, by omega, by omega, le_max_of_le_right (hraised _ (by omega) (by omega))⟩
  · simp only [NewMSNewReplicas, hondelete, TotalMachineSetsReplicaSum_of_lt hcount]
    split_ifs with hge
    · exact ⟨_, _, rfl, le_rfl, hn, le_max_of_le_left (TotalMachineSetsReplicaSum_of_lt hcount).le⟩
    · -- the new MachineSet is one of the machines, so the scale up stops at the desired replicas
      simp (disch := omega) only [int32_of_lt]
      exact ⟨_, _, rfl, by omega, by omega, le_max_of_le_right (hraised _ (by omega) (by omega))⟩

end Scaled

theorem NewMSNewReplicas_bounds_sample :
    ∃ newReplicas note, NewMSNewReplicas scaledIntValue
        ⟨3, .RollingUpdate, some (.int 1), some (.int 0)⟩
        ([⟨"ms-old", 1, 3, 3, 3⟩] ++ ⟨"ms-new", 2, 0, 0, 0⟩ :: []) 0 = .ok (newReplicas, note) ∧
      0 ≤ newReplicas ∧ newReplicas ≤ 3 ∧
      TotalMachineSetsReplicaSum ([⟨"ms-old", 1, 3, 3, 3⟩] ++ ⟨"ms-new", 2, newReplicas, 0, 0⟩ :: []) ≤
        max (TotalMachineSetsReplicaSum ([⟨"ms-old", 1, 3, 3, 3⟩] ++ ⟨"ms-new", 2, 0, 0, 0⟩ :: []))
          (3 + 1) :=
  NewMSNewReplicas_bounds scaledIntValue ⟨3, .RollingUpdate, some (.int 1), some (.int 0)⟩
    [⟨"ms-old", 1, 3, 3, 3⟩] [] ⟨"ms-new", 2, 0, 0, 0⟩ 1 (.inl ⟨rfl, rfl⟩) (by decide) (by decide)
    (by decide) (by decide) (by decide)

/-- Old MachineSets of 2147483647 and 2 replicas, and a MachineDeployment of one replica with no
surge: the machines add up to 2147483649, which `int32` wraps to -2147483647, below the one
replica wanted; the scale up `1 - (-2147483647)` wraps to -2147483648, and so does the new
MachineSet's count, from 0. -/
theorem NewMSNewReplicas_wraps_below :
    ∃ note, NewMSNewReplicas scaledIntValue ⟨1, .RollingUpdate, some (.int 0), some (.int 1)⟩
        ([⟨"ms-old-1", 1, 2147483647, 0, 0⟩, ⟨"ms-old-2", 2, 2, 0, 0⟩] ++
          ⟨"ms-new", 3, 0, 0, 0⟩ :: []) 0 = .ok (-2147483648, note) :=
  ⟨_, rfl⟩

end ClusterApi.Rollout
