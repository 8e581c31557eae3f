import ClusterApi.Rollout.Mdutil
import ClusterApi.Lib.KeyedList
import ClusterApi.Lib.Trace

/-!
# Scale intents of the MachineDeployment rollout planner

The `rolloutPlanner` of `internal/controllers/machinedeployment` decides, in one reconcile, to
how many replicas each MachineSet of a MachineDeployment should go: `reconcileNewMachineSet`
scales the new MachineSet towards `spec.replicas`, `reconcileOldMachineSetsOnDelete` and
`reconcileOldMachineSetsRollingUpdate` (with `scaleDownOldMSs`) scale the old ones down. A
decision is a scale intent, recorded by MachineSet name next to a note; a MachineSet with no
intent keeps its `spec.replicas`.

A Go loop `for _, oldMS := range p.oldMSs` is a fold of its body over the list; a `break` on an
exhausted budget is a body that does nothing once the budget is gone, since nothing raises it.
-/

namespace ClusterApi.Rollout
open ClusterApi.Lib ClusterApi.Lib.GoStrings

/-- The part of the planner the scaling decisions read and write; `scaleIntents` and `notes` are
the maps keyed by MachineSet name. -/
structure rolloutPlanner where
  md : MachineDeployment
  newMS : MachineSet
  oldMSs : List MachineSet
  scaleIntents : String → Option Int
  notes : String → List String

namespace rolloutPlanner

variable (p : rolloutPlanner)

def addNote (ms : MachineSet) (msg : String) : rolloutPlanner :=
  if msg ∈ p.notes ms.name then p
  else { p with notes := Function.update p.notes ms.name (p.notes ms.name ++ [msg]) }

def setScaleIntent (ms : MachineSet) (replicas : Int) : rolloutPlanner :=
  { p with scaleIntents := Function.update p.scaleIntents ms.name (some replicas) }

def scaleIntentOf (ms : MachineSet) : Int :=
  (p.scaleIntents ms.name).getD ms.replicas

@[simp] theorem addNote_scaleIntents (ms : MachineSet) (msg : String) :
    (p.addNote ms msg).scaleIntents = p.scaleIntents := by
  unfold addNote
  split_ifs <;> rfl

@[simp] theorem addNote_oldMSs (ms : MachineSet) (msg : String) :
    (p.addNote ms msg).oldMSs = p.oldMSs := by
  unfold addNote
  split_ifs <;> rfl

@[simp] theorem addNote_newMS (ms : MachineSet) (msg : String) :
    (p.addNote ms msg).newMS = p.newMS := by
  unfold addNote
  split_ifs <;> rfl

@[simp] theorem addNote_md (ms : MachineSet) (msg : String) :
    (p.addNote ms msg).md = p.md := by
  unfold addNote
  split_ifs <;> rfl

@[simp] theorem scaleIntentOf_addNote (ms ms' : MachineSet) (msg : String) :
    (p.addNote ms msg).scaleIntentOf ms' = p.scaleIntentOf ms' := by
  unfold scaleIntentOf
  rw [addNote_scaleIntents]

@[simp] theorem setScaleIntent_scaleIntents (ms : MachineSet) (replicas : Int) :
    (p.setScaleIntent ms replicas).scaleIntents =
      Function.update p.scaleIntents ms.name (some replicas) := rfl

@[simp] theorem setScaleIntent_oldMSs (ms : MachineSet) (replicas : Int) :
    (p.setScaleIntent ms replicas).oldMSs = p.oldMSs := rfl

@[simp] theorem setScaleIntent_newMS (ms : MachineSet) (replicas : Int) :
    (p.setScaleIntent ms replicas).newMS = p.newMS := rfl

@[simp] theorem setScaleIntent_md (ms : MachineSet) (replicas : Int) :
    (p.setScaleIntent ms replicas).md = p.md := rfl

theorem scaleIntentOf_setScaleIntent (ms ms' : MachineSet) (replicas : Int) :
    (p.setScaleIntent ms replicas).scaleIntentOf ms' =
      if ms'.name = ms.name then replicas else p.scaleIntentOf ms' := by
  unfold scaleIntentOf
  split_ifs with h
  · rw [setScaleIntent_scaleIntents, h, Function.update_self]
    rfl
  · rw [setScaleIntent_scaleIntents, Function.update_of_ne h]

end rolloutPlanner

/-! ### `reconcileNewMachineSet` -/

section NewMachineSet

variable (GetScaledValueFromIntOrPercent : Option IntOrString → Int → Bool → Except String Int)

def reconcileNewMachineSet (p : rolloutPlanner) : Except String rolloutPlanner :=
  if p.newMS.replicas = p.md.replicas then .ok p
  else if p.newMS.replicas > p.md.replicas then
    .ok ((p.addNote p.newMS
      "scale down to align MachineSet spec.replicas to MachineDeployment spec.replicas").setScaleIntent
        p.newMS p.md.replicas)
  else
    match NewMSNewReplicas GetScaledValueFromIntOrPercent p.md (p.oldMSs ++ [p.newMS])
        p.newMS.replicas with
    | .error e => .error e
    | .ok (newReplicasCount, note) =>
      let p := if newReplicasCount < p.newMS.replicas then
        (p.addNote p.newMS note).setScaleIntent p.newMS newReplicasCount else p
      let p := if newReplicasCount > p.newMS.replicas then
        (p.addNote p.newMS note).setScaleIntent p.newMS newReplicasCount else p
      .ok p

end NewMachineSet

/-! ### `reconcileOldMachineSetsOnDelete` -/

def alignToExistingMachinesStep : rolloutPlanner × Int → MachineSet → rolloutPlanner × Int
  | (p, totalScaleDownCount), oldMS =>
    if oldMS.replicas ≤ 0 then (p, totalScaleDownCount)
    else
      let scaleDownCount := max (int32 (oldMS.replicas - oldMS.statusReplicas)) 0
      if scaleDownCount > 0 then
        let newScaleIntent := max (int32 (oldMS.replicas - scaleDownCount)) 0
        ((p.addNote oldMS "scale down to align to existing Machines").setScaleIntent oldMS
          newScaleIntent, int32 (totalScaleDownCount - scaleDownCount))
      else (p, totalScaleDownCount)

/-- The second loop: scale old MachineSets down until the MachineDeployment's replicas are met.
The new intent is computed from `spec.replicas`, not from the intent the first loop set. -/
def alignToMachineDeploymentStep : rolloutPlanner × Int → MachineSet → rolloutPlanner × Int
  | (p, totalScaleDownCount), oldMS =>
    if totalScaleDownCount ≤ 0 then (p, totalScaleDownCount)
    else
      let scaleIntent := p.scaleIntentOf oldMS
      if scaleIntent ≤ 0 then (p, totalScaleDownCount)
      else
        let scaleDownCount := min scaleIntent totalScaleDownCount
        if scaleDownCount > 0 then
          let newScaleIntent := max (int32 (oldMS.replicas - scaleDownCount)) 0
          ((p.addNote oldMS
            "scale down to align MachineSet spec.replicas to MachineDeployment spec.replicas").setScaleIntent
              oldMS newScaleIntent, int32 (totalScaleDownCount - scaleDownCount))
        else (p, totalScaleDownCount)

def reconcileOldMachineSetsOnDelete (p : rolloutPlanner) : rolloutPlanner :=
  let oldMachinesCount := GetReplicaCountForMachineSets p.oldMSs
  if oldMachinesCount = 0 then p
  else
    let newMSReplicas := p.scaleIntentOf p.newMS
    let totReplicas := int32 (oldMachinesCount + newMSReplicas)
    let totalScaleDownCount := max (int32 (totReplicas - p.md.replicas)) 0
    -- the oldest MachineSets first
    let p := { p with oldMSs := MachineSetsByCreationTimestamp p.oldMSs }
    let aligned := p.oldMSs.foldl alignToExistingMachinesStep (p, totalScaleDownCount)
    (p.oldMSs.foldl alignToMachineDeploymentStep aligned).1

/-- A MachineDeployment scaled to 3 replicas during an OnDelete rollout: the new MachineSet has 1
replica, the old one 5 replicas of which only 3 have machines. -/
def onDeleteScaledDown : rolloutPlanner where
  md := ⟨3, .OnDelete, none, none⟩
  newMS := ⟨"ms-new", 2, 1, 1, 1⟩
  oldMSs := [⟨"ms-old", 1, 5, 3, 3⟩]
  scaleIntents _ := none
  notes _ := []

/-- The first loop sets the old MachineSet to its 3 machines and charges the 2 missing replicas to
the 3 replicas to remove; the second loop removes the one left from `spec.replicas`, not from that
intent, and leaves the old MachineSet at 4 replicas: more than its machines, and with the new
MachineSet more than the MachineDeployment's 3. -/
theorem reconcileOldMachineSetsOnDelete_restarts_from_spec :
    (reconcileOldMachineSetsOnDelete onDeleteScaledDown).scaleIntentOf ⟨"ms-old", 1, 5, 3, 3⟩ = 4 ∧
      min 5 3 < (4 : Int) ∧ max 3 1 < (4 : Int) + onDeleteScaledDown.scaleIntentOf onDeleteScaledDown.newMS := by
  decide

/-! ### `reconcileOldMachineSetsRollingUpdate` -/

def pendingScaleDown (scaleIntents : String → Option Int) (ms : MachineSet) : Int :=
  let scaleIntent : Int := match scaleIntents ms.name with
    | some v => min ms.replicas v
    | none => ms.replicas
  if scaleIntent < ms.statusReplicas then max (int32 (ms.statusReplicas - scaleIntent)) 0 else 0

structure ScaleDown where
  planner : rolloutPlanner
  totalScaleDownCount : Int
  totalAvailableReplicas : Int

/-- The check of `scaleDownOldMSs` before it scales an old MachineSet from `replicas` down by
`scaleDown`: the existing replicas the scale down may delete are assumed available, and the
scale down is cut back so that at least `minAvailable` replicas stay available. Gives the scale
down and the available replicas left. -/
def availabilityLimitedScaleDown (oldMS : MachineSet)
    (replicas scaleDown totalAvailableReplicas minAvailable : Int) : Int × Int :=
  if oldMS.availableReplicas > 0 then
    let newSpecReplicas := max (int32 (replicas - scaleDown)) 0
    let existingReplicasToBeDeleted := max (int32 (oldMS.statusReplicas - newSpecReplicas)) 0
    if existingReplicasToBeDeleted > 0 then
      if int32 (totalAvailableReplicas - minAvailable) < existingReplicasToBeDeleted then
        -- the scale down is revisited to what the availability allows
        let maxExistingReplicasThatCanBeDeleted :=
          max (int32 (totalAvailableReplicas - minAvailable)) 0
        let newSpecReplicasRevisited :=
          min (int32 (oldMS.statusReplicas - maxExistingReplicasThatCanBeDeleted)) replicas
        let existingReplicasToBeDeleted :=
          max (int32 (oldMS.statusReplicas - newSpecReplicasRevisited)) 0
        (max (int32 (replicas - newSpecReplicasRevisited)) 0, int32 (totalAvailableReplicas -
          min (oldMS.availableReplicas : Int) existingReplicasToBeDeleted))
      else
        (scaleDown, int32 (totalAvailableReplicas -
          min (oldMS.availableReplicas : Int) existingReplicasToBeDeleted))
    else (scaleDown, totalAvailableReplicas)
  else (scaleDown, totalAvailableReplicas)

def scaleDownOldMSStep (minAvailable : Int) (scaleDownOnlyUnavailableReplicas : Bool)
    (acc : ScaleDown) (oldMS : MachineSet) : ScaleDown :=
  if acc.totalScaleDownCount ≤ 0 then acc
  else
    let replicas := acc.planner.scaleIntentOf oldMS
    if replicas ≤ 0 then acc
    else
      let oldTotalAvailableReplicas := acc.totalAvailableReplicas
      let maxScaleDown := if scaleDownOnlyUnavailableReplicas
        then max (int32 (replicas - oldMS.availableReplicas)) 0 else replicas
      let scaleDown := min maxScaleDown acc.totalScaleDownCount
      if scaleDown = 0 then acc
      else
        let (scaleDown, totalAvailableReplicas) := availabilityLimitedScaleDown oldMS replicas
          scaleDown acc.totalAvailableReplicas minAvailable
        if scaleDown > 0 then
          let newScaleIntent := max (int32 (replicas - scaleDown)) 0
          -- an unchanged availability means the scale down removed no available replica
          let note := if oldTotalAvailableReplicas = totalAvailableReplicas then
            "scale down to align to existing Machines or scale down by removing unavailable " ++
              "replicas (and no available replicas exist on the MachineSet)"
          else
            toString oldTotalAvailableReplicas ++ " available replicas > " ++
              toString minAvailable ++ " minimum available replicas"
          ⟨(acc.planner.addNote oldMS note).setScaleIntent oldMS newScaleIntent,
            max (int32 (acc.totalScaleDownCount - scaleDown)) 0, totalAvailableReplicas⟩
        else { acc with totalAvailableReplicas }

def scaleDownOldMSs (p : rolloutPlanner)
    (totalScaleDownCount totalAvailableReplicas minAvailable : Int)
    (scaleDownOnlyUnavailableReplicas : Bool) : ScaleDown :=
  p.oldMSs.foldl (scaleDownOldMSStep minAvailable scaleDownOnlyUnavailableReplicas)
    ⟨p, totalScaleDownCount, totalAvailableReplicas⟩

section RollingUpdate

variable (GetScaledValueFromIntOrPercent : Option IntOrString → Int → Bool → Except String Int)

def reconcileOldMachineSetsRollingUpdate (p : rolloutPlanner) : rolloutPlanner :=
  let allMSs := p.oldMSs ++ [p.newMS]
  if GetReplicaCountForMachineSets p.oldMSs = 0 then p
  else
    let maxUnavailable := MaxUnavailable GetScaledValueFromIntOrPercent p.md
    let minAvailable := max (int32 (p.md.replicas - maxUnavailable)) 0
    let totalSpecReplicas := GetReplicaCountForMachineSets allMSs
    let totalAvailableReplicas := GetAvailableReplicaCountForMachineSets allMSs
    let totalPendingScaleDown := allMSs.foldl (fun totalPendingScaleDown ms =>
      int32 (totalPendingScaleDown + pendingScaleDown p.scaleIntents ms)) 0
    let totalScaleDownCount :=
      max (int32 (int32 (totalSpecReplicas - totalPendingScaleDown) - minAvailable)) 0
    if totalScaleDownCount ≤ 0 then p
    else
      let p := { p with oldMSs := MachineSetsByCreationTimestamp p.oldMSs }
      -- unavailable replicas first, then any replicas
      let first := scaleDownOldMSs p totalScaleDownCount totalAvailableReplicas minAvailable true
      (scaleDownOldMSs first.planner first.totalScaleDownCount first.totalAvailableReplicas
        minAvailable false).planner

end RollingUpdate


/-! ### What a rolling update scale down keeps available -/

def availabilityAtRisk (ms : MachineSet) (replicas : Int) : Int :=
  min (ms.availableReplicas : Int) (max ((ms.statusReplicas : Int) - replicas) 0)

theorem availabilityAtRisk_nonneg (ms : MachineSet) (replicas : Int) :
    0 ≤ availabilityAtRisk ms replicas := by
  unfold availabilityAtRisk
  omega

theorem availabilityLimitedScaleDown_spec {oldMS : MachineSet}
    {replicas scaleDown totalAvailableReplicas minAvailable scaleDown' totalAvailableReplicas' : Int}
    (h : availabilityLimitedScaleDown oldMS replicas scaleDown totalAvailableReplicas minAvailable =
      (scaleDown', totalAvailableReplicas'))
    (hsd : 0 < scaleDown ∧ scaleDown ≤ replicas)
    (hsmall : replicas ≤ 2 ^ 29 ∧ oldMS.statusReplicas ≤ 2 ^ 29 ∧ totalAvailableReplicas ≤ 2 ^ 29 ∧
      -2 ^ 29 ≤ totalAvailableReplicas - oldMS.availableReplicas ∧ 0 ≤ minAvailable ∧
      minAvailable ≤ 2 ^ 29) :
    0 ≤ scaleDown' ∧ scaleDown' ≤ scaleDown ∧
      totalAvailableReplicas - oldMS.availableReplicas ≤ totalAvailableReplicas' ∧
      totalAvailableReplicas' + (availabilityAtRisk oldMS (max (replicas - scaleDown') 0) -
        availabilityAtRisk oldMS replicas) ≤ totalAvailableReplicas ∧
      (availabilityAtRisk oldMS (max (replicas - scaleDown') 0) ≤ availabilityAtRisk oldMS replicas ∨
        minAvailable ≤ totalAvailableReplicas') := by
  obtain ⟨hsd0, hsdr⟩ := hsd
  obtain ⟨hr, hs, hA, hAv, hm0, hm⟩ := hsmall
  unfold availabilityLimitedScaleDown at h
  unfold availabilityAtRisk
  dsimp only at h
  simp (disch := omega) only [int32_of_lt] at h
  split_ifs at h with havail hexisting hbreach <;>
    simp only [Prod.mk.injEq] at h <;> obtain ⟨rfl, rfl⟩ := h
  · -- the scale down would take the availability below the minimum: it is cut back
    omega
  · -- there is room for every existing replica the scale down deletes
    omega
  · -- the scale down deletes no existing replica
    omega
  · -- the MachineSet has no available replica to lose
    omega

structure ScaleDownStep (minAvailable : Int) (x : MachineSet) (acc acc' : ScaleDown) : Prop where
  frame : ∀ ms : MachineSet, ms.name ≠ x.name →
    acc'.planner.scaleIntentOf ms = acc.planner.scaleIntentOf ms
  oldMSs : acc'.planner.oldMSs = acc.planner.oldMSs
  nonneg : 0 ≤ acc.planner.scaleIntentOf x → 0 ≤ acc'.planner.scaleIntentOf x
  le : acc'.planner.scaleIntentOf x ≤ acc.planner.scaleIntentOf x
  budget : 0 ≤ acc.totalScaleDownCount → 0 ≤ acc'.totalScaleDownCount ∧
    acc.planner.scaleIntentOf x - acc'.planner.scaleIntentOf x + acc'.totalScaleDownCount ≤
      acc.totalScaleDownCount
  floor : acc.totalAvailableReplicas - x.availableReplicas ≤ acc'.totalAvailableReplicas
  counter : acc'.totalAvailableReplicas + (availabilityAtRisk x (acc'.planner.scaleIntentOf x) -
    availabilityAtRisk x (acc.planner.scaleIntentOf x)) ≤ acc.totalAvailableReplicas
  available : availabilityAtRisk x (acc'.planner.scaleIntentOf x) ≤
      availabilityAtRisk x (acc.planner.scaleIntentOf x) ∨
    minAvailable ≤ acc'.totalAvailableReplicas

theorem ScaleDownStep.refl {minAvailable : Int} {x : MachineSet} {acc : ScaleDown} :
    ScaleDownStep minAvailable x acc acc :=
  ⟨fun _ _ => rfl, rfl, id, le_rfl, fun hT => ⟨hT, by omega⟩, by omega, by omega, .inl le_rfl⟩

theorem scaleDownOldMSStep_spec (minAvailable : Int) (scaleDownOnlyUnavailableReplicas : Bool)
    (acc : ScaleDown) (x : MachineSet)
    (hsmall : acc.totalScaleDownCount ≤ 2 ^ 29 ∧ acc.planner.scaleIntentOf x ≤ 2 ^ 29 ∧
      x.statusReplicas ≤ 2 ^ 29 ∧ acc.totalAvailableReplicas ≤ 2 ^ 29 ∧
      -2 ^ 29 ≤ acc.totalAvailableReplicas - x.availableReplicas ∧ 0 ≤ minAvailable ∧
      minAvailable ≤ 2 ^ 29) :
    ScaleDownStep minAvailable x acc
      (scaleDownOldMSStep minAvailable scaleDownOnlyUnavailableReplicas acc x) := by
  obtain ⟨hTle, hrle, hs, hA, hAv, hm0, hm⟩ := hsmall
  unfold scaleDownOldMSStep
  dsimp only
  by_cases hT : acc.totalScaleDownCount ≤ 0
  · rw [if_pos hT]
    exact .refl
  rw [if_neg hT]
  by_cases hr : acc.planner.scaleIntentOf x ≤ 0
  · rw [if_pos hr]
    exact .refl
  rw [if_neg hr]
  simp (disch := omega) only [int32_of_lt]
  have hmax : 0 ≤ (if scaleDownOnlyUnavailableReplicas = true then
      max (acc.planner.scaleIntentOf x - x.availableReplicas) 0 else acc.planner.scaleIntentOf x) ∧
      (if scaleDownOnlyUnavailableReplicas = true then
        max (acc.planner.scaleIntentOf x - x.availableReplicas) 0
      else acc.planner.scaleIntentOf x) ≤ acc.planner.scaleIntentOf x := by
    split <;> omega
  generalize (if scaleDownOnlyUnavailableReplicas = true then
      max (acc.planner.scaleIntentOf x - x.availableReplicas) 0
    else acc.planner.scaleIntentOf x) = maxScaleDown at hmax ⊢
  by_cases hzero : min maxScaleDown acc.totalScaleDownCount = 0
  · rw [if_pos hzero]
    exact .refl
  rw [if_neg hzero]
  have hask : 0 < min maxScaleDown acc.totalScaleDownCount := by omega
  have hask_le := min_le_right maxScaleDown acc.totalScaleDownCount
  have hask_le' : min maxScaleDown acc.totalScaleDownCount ≤ acc.planner.scaleIntentOf x := by
    omega
  generalize min maxScaleDown acc.totalScaleDownCount = ask at hask hask_le hask_le' ⊢
  rcases hlim : availabilityLimitedScaleDown x (acc.planner.scaleIntentOf x) ask
    acc.totalAvailableReplicas minAvailable with ⟨scaleDown, totalAvailableReplicas⟩
  obtain ⟨hsd0, hsdle, hfloor, hcounter, havail⟩ :=
    availabilityLimitedScaleDown_spec hlim ⟨hask, hask_le'⟩ ⟨hrle, hs, hA, hAv, hm0, hm⟩
  by_cases hpos : scaleDown > 0
  · -- the intent goes down by the checked scale down
    rw [if_pos hpos]
    simp (disch := omega) only [int32_of_lt]
    refine ⟨fun ms hms => ?_, by simp only [rolloutPlanner.setScaleIntent_oldMSs,
      rolloutPlanner.addNote_oldMSs], ?_, ?_, ?_, hfloor, ?_, ?_⟩ <;>
      simp only [rolloutPlanner.scaleIntentOf_setScaleIntent, rolloutPlanner.scaleIntentOf_addNote,
        if_true]
    · rw [if_neg hms]
    · omega
    · omega
    · omega
    · exact hcounter
    · exact havail
  · -- nothing to scale down once checked; the counter still pays for the replicas at risk
    rw [if_neg hpos]
    have hzero : scaleDown = 0 := by omega
    subst hzero
    have hsame : max (acc.planner.scaleIntentOf x - 0) 0 = acc.planner.scaleIntentOf x := by omega
    rw [hsame] at hcounter havail
    exact ⟨fun _ _ => rfl, rfl, id, le_rfl, fun hT => ⟨hT, by dsimp only; omega⟩, hfloor, hcounter,
      havail⟩

theorem pendingScaleDown_nonneg (scaleIntents : String → Option Int) (ms : MachineSet) :
    0 ≤ pendingScaleDown scaleIntents ms := by
  unfold pendingScaleDown
  dsimp only
  split_ifs <;> omega

theorem availabilityAtRisk_of_le {ms : MachineSet} {replicas : Int}
    (h : (ms.statusReplicas : Int) ≤ replicas) : availabilityAtRisk ms replicas = 0 := by
  unfold availabilityAtRisk
  omega

/-- What the loop state of `scaleDownOldMSs` keeps over the old MachineSets `l`, from a budget
`T₀` and `A` available replicas: the intents stay within `[0, spec.replicas]`, what they took
off is paid from the budget, and the counter is below the availability left in the worst case,
which stays at `min A minAvailable` or above. -/
structure ScaleDownInvariant (l : List MachineSet) (T₀ A minAvailable : Int) (acc : ScaleDown) :
    Prop where
  bounds : ∀ ms ∈ l, 0 ≤ acc.planner.scaleIntentOf ms ∧ acc.planner.scaleIntentOf ms ≤ ms.replicas
  budget_nonneg : 0 ≤ acc.totalScaleDownCount
  budget : (l.map fun ms => ms.replicas - acc.planner.scaleIntentOf ms).sum +
    acc.totalScaleDownCount ≤ T₀
  counter : acc.totalAvailableReplicas ≤
    A - (l.map fun ms => availabilityAtRisk ms (acc.planner.scaleIntentOf ms)).sum
  available : min A minAvailable ≤
    A - (l.map fun ms => availabilityAtRisk ms (acc.planner.scaleIntentOf ms)).sum

theorem ScaleDownInvariant.step {l : List MachineSet} {T₀ A minAvailable : Int}
    {acc acc' : ScaleDown} {x : MachineSet} (hnodup : (l.map (·.name)).Nodup) (hx : x ∈ l)
    (hinv : ScaleDownInvariant l T₀ A minAvailable acc)
    (hstep : ScaleDownStep minAvailable x acc acc') :
    ScaleDownInvariant l T₀ A minAvailable acc' := by
  have hsum : ∀ f : MachineSet → Int → Int,
      (l.map fun ms => f ms (acc'.planner.scaleIntentOf ms)).sum =
        (l.map fun ms => f ms (acc.planner.scaleIntentOf ms)).sum +
          (f x (acc'.planner.scaleIntentOf x) - f x (acc.planner.scaleIntentOf x)) :=
    fun f => KeyedList.sum_map_of_eq_off_key hnodup hx fun ms _ hms => by rw [hstep.frame ms hms]
  have hbudget := hsum fun ms r => ms.replicas - r
  have hrisk := hsum fun ms r => availabilityAtRisk ms r
  have hT := hstep.budget hinv.budget_nonneg
  have hcounter := hstep.counter
  refine ⟨fun ms hms => ?_, hT.1, ?_, ?_, ?_⟩
  · by_cases hname : ms.name = x.name
    · -- names are unique, so `ms` is `x`
      have hmsx : ms = x := List.inj_on_of_nodup_map hnodup hms hx hname
      subst hmsx
      have := hinv.bounds ms hms
      exact ⟨hstep.nonneg this.1, hstep.le.trans this.2⟩
    · rw [hstep.frame ms hname]
      exact hinv.bounds ms hms
  · have := hinv.budget
    omega
  · have := hinv.counter
    omega
  · rcases hstep.available with hle | hmin
    · have := hinv.available
      omega
    · have := hinv.counter
      have := min_le_right A minAvailable
      omega

section Invariant

variable {l : List MachineSet} {T₀ A minAvailable : Int}

theorem ScaleDownInvariant.initial {p : rolloutPlanner}
    (hspec : ∀ ms ∈ l, p.scaleIntentOf ms = ms.replicas)
    (hstatus : ∀ ms ∈ l, (ms.statusReplicas : Int) ≤ ms.replicas) (hT₀ : 0 ≤ T₀) :
    ScaleDownInvariant l T₀ A minAvailable ⟨p, T₀, A⟩ := by
  have hrisk : ∀ ms ∈ l, availabilityAtRisk ms (p.scaleIntentOf ms) = 0 := fun ms hms => by
    rw [hspec ms hms]
    exact availabilityAtRisk_of_le (hstatus ms hms)
  refine ⟨fun ms hms => ?_, hT₀, ?_, ?_, ?_⟩
  · have := hstatus ms hms
    rw [hspec ms hms]
    exact ⟨by omega, le_rfl⟩
  · rw [List.map_congr_left fun ms hms => by rw [hspec ms hms, sub_self]]
    simp
  · rw [List.map_congr_left hrisk]
    simp
  · rw [List.map_congr_left hrisk]
    simp only [List.map_const', List.sum_replicate, smul_zero, sub_zero]
    exact min_le_left _ _

theorem ScaleDownInvariant.perm {l' : List MachineSet} {acc : ScaleDown} (hperm : l.Perm l')
    (h : ScaleDownInvariant l T₀ A minAvailable acc) :
    ScaleDownInvariant l' T₀ A minAvailable acc where
  bounds ms hms := h.bounds ms (hperm.symm.subset hms)
  budget_nonneg := h.budget_nonneg
  budget := by
    rw [← (hperm.map _).sum_eq]
    exact h.budget
  counter := by
    rw [← (hperm.map _).sum_eq]
    exact h.counter
  available := by
    rw [← (hperm.map _).sum_eq]
    exact h.available

theorem ScaleDownInvariant.result {acc : ScaleDown} (h : ScaleDownInvariant l T₀ A minAvailable acc) :
    (∀ ms ∈ l, 0 ≤ acc.planner.scaleIntentOf ms ∧ acc.planner.scaleIntentOf ms ≤ ms.replicas) ∧
      (l.map fun ms => ms.replicas - acc.planner.scaleIntentOf ms).sum ≤ T₀ ∧
      min A minAvailable ≤
        A - (l.map fun ms => availabilityAtRisk ms (acc.planner.scaleIntentOf ms)).sum := by
  refine ⟨h.bounds, ?_, h.available⟩
  have := h.budget
  have := h.budget_nonneg
  omega

theorem ScaleDownInvariant.totalScaleDownCount_le {acc : ScaleDown}
    (h : ScaleDownInvariant l T₀ A minAvailable acc) : acc.totalScaleDownCount ≤ T₀ := by
  have hoff : 0 ≤ (l.map fun ms => ms.replicas - acc.planner.scaleIntentOf ms).sum :=
    List.sum_nonneg fun d hd => by
      obtain ⟨ms, hms, rfl⟩ := List.mem_map.mp hd
      have := (h.bounds ms hms).2
      omega
  have := h.budget
  omega

theorem ScaleDownInvariant.totalAvailableReplicas_le {acc : ScaleDown}
    (h : ScaleDownInvariant l T₀ A minAvailable acc) : acc.totalAvailableReplicas ≤ A := by
  have hrisk : 0 ≤ (l.map fun ms => availabilityAtRisk ms (acc.planner.scaleIntentOf ms)).sum :=
    List.sum_nonneg fun d hd => by
      obtain ⟨ms, -, rfl⟩ := List.mem_map.mp hd
      exact availabilityAtRisk_nonneg _ _
  have := h.counter
  omega

end Invariant

/-- A pass of `scaleDownOldMSs` over old MachineSets of fewer than `2^29` replicas, from a budget
and a counter below `2^29`, keeps the invariant, and ends with the counter above a floor
`L ≥ -2^29` when it starts that floor plus their available replicas above it. -/
theorem scaleDownOldMSs_invariant {p : rolloutPlanner}
    {totalScaleDownCount totalAvailableReplicas minAvailable T₀ A L : Int}
    (scaleDownOnlyUnavailableReplicas : Bool) (hnodup : (p.oldMSs.map (·.name)).Nodup)
    (hsmall : (∀ ms ∈ p.oldMSs, ms.replicas ≤ 2 ^ 29 ∧ ms.statusReplicas ≤ 2 ^ 29) ∧
      T₀ ≤ 2 ^ 29 ∧ A ≤ 2 ^ 29 ∧ -2 ^ 29 ≤ L ∧ 0 ≤ minAvailable ∧ minAvailable ≤ 2 ^ 29)
    (h₀ : ScaleDownInvariant p.oldMSs T₀ A minAvailable
      ⟨p, totalScaleDownCount, totalAvailableReplicas⟩)
    (hfloor : L + (p.oldMSs.map fun ms => (ms.availableReplicas : Int)).sum ≤
      totalAvailableReplicas) :
    ScaleDownInvariant p.oldMSs T₀ A minAvailable (scaleDownOldMSs p totalScaleDownCount
        totalAvailableReplicas minAvailable scaleDownOnlyUnavailableReplicas) ∧
      (scaleDownOldMSs p totalScaleDownCount totalAvailableReplicas minAvailable
        scaleDownOnlyUnavailableReplicas).planner.oldMSs = p.oldMSs ∧
      L ≤ (scaleDownOldMSs p totalScaleDownCount totalAvailableReplicas minAvailable
        scaleDownOnlyUnavailableReplicas).totalAvailableReplicas := by
  obtain ⟨hms, hT₀, hA, hL, hm0, hm⟩ := hsmall
  unfold scaleDownOldMSs
  -- the counter loses at most each MachineSet's available replicas, which keeps it above `L`
  obtain ⟨⟨hinv, hold⟩, hL'⟩ := Trace.foldl_invariant_floor
    (fun acc => ScaleDownInvariant p.oldMSs T₀ A minAvailable acc ∧ acc.planner.oldMSs = p.oldMSs)
    (·.totalAvailableReplicas) (fun ms : MachineSet => (ms.availableReplicas : Int)) L _ ⟨h₀, rfl⟩
    hfloor
    (fun _ _ => Int.natCast_nonneg _) fun acc x hx ⟨hinv, hold⟩ hfl => by
      have hx' := hms x hx
      have hstep := scaleDownOldMSStep_spec minAvailable scaleDownOnlyUnavailableReplicas acc x
        ⟨hinv.totalScaleDownCount_le.trans hT₀, (hinv.bounds x hx).2.trans hx'.1, hx'.2,
          hinv.totalAvailableReplicas_le.trans hA, by omega, hm0, hm⟩
      exact ⟨⟨hinv.step hnodup hx hstep, hstep.oldMSs.trans hold⟩, hstep.floor⟩
  exact ⟨hinv, hold, hL'⟩

theorem scaleDownOldMSs_twice_invariant {p : rolloutPlanner} {T A T₀ A₀ minAvailable : Int}
    (hnodup : (p.oldMSs.map (·.name)).Nodup)
    (hsmall : (∀ ms ∈ p.oldMSs, ms.replicas ≤ 2 ^ 29 ∧ ms.statusReplicas ≤ 2 ^ 29) ∧
      T₀ ≤ 2 ^ 29 ∧ A₀ ≤ 2 ^ 29 ∧
      -2 ^ 29 ≤ A - 2 * (p.oldMSs.map fun ms => (ms.availableReplicas : Int)).sum ∧
      0 ≤ minAvailable ∧ minAvailable ≤ 2 ^ 29)
    (h₀ : ScaleDownInvariant p.oldMSs T₀ A₀ minAvailable ⟨p, T, A⟩) :
    ScaleDownInvariant p.oldMSs T₀ A₀ minAvailable
      (scaleDownOldMSs (scaleDownOldMSs p T A minAvailable true).planner
        (scaleDownOldMSs p T A minAvailable true).totalScaleDownCount
        (scaleDownOldMSs p T A minAvailable true).totalAvailableReplicas minAvailable false) := by
  obtain ⟨hms, hT₀, hA₀, hL, hm0, hm⟩ := hsmall
  have hV : 0 ≤ (p.oldMSs.map fun ms => (ms.availableReplicas : Int)).sum :=
    List.sum_nonneg fun d hd => by
      obtain ⟨ms, -, rfl⟩ := List.mem_map.mp hd
      exact Int.natCast_nonneg _
  obtain ⟨h₁, hold₁, hfloor₁⟩ := scaleDownOldMSs_invariant (L := A -
    (p.oldMSs.map fun ms => (ms.availableReplicas : Int)).sum) true hnodup
    ⟨hms, hT₀, hA₀, by omega, hm0, hm⟩ h₀ (by omega)
  generalize scaleDownOldMSs p T A minAvailable true = first at h₁ hold₁ hfloor₁ ⊢
  rw [← hold₁] at h₁ hnodup hms hL hfloor₁ ⊢
  exact (scaleDownOldMSs_invariant (L := A - 2 *
    (first.planner.oldMSs.map fun ms => (ms.availableReplicas : Int)).sum) false hnodup
    ⟨hms, hT₀, hA₀, hL, hm0, hm⟩ h₁ (by omega)).1

theorem pendingScaleDown_of_le {scaleIntents : String → Option Int} {ms : MachineSet}
    (hnone : scaleIntents ms.name = none) (hstatus : (ms.statusReplicas : Int) ≤ ms.replicas) :
    pendingScaleDown scaleIntents ms = 0 := by
  unfold pendingScaleDown
  simp only [hnone]
  rw [if_neg (by omega)]

theorem pendingScaleDown_le {scaleIntents : String → Option Int} {ms : MachineSet}
    (h : ms.statusReplicas + |ms.replicas| + |(scaleIntents ms.name).getD ms.replicas| < 2 ^ 31) :
    pendingScaleDown scaleIntents ms ≤
      ms.statusReplicas + |ms.replicas| + |(scaleIntents ms.name).getD ms.replicas| := by
  have := le_abs_self ms.replicas
  have := neg_abs_le ms.replicas
  unfold pendingScaleDown
  generalize scaleIntents ms.name = scaleIntent at h ⊢
  cases scaleIntent with
  | none =>
    rw [Option.getD_none] at h ⊢
    dsimp only
    split_ifs
    · simp (disch := omega) only [int32_of_lt]
      omega
    · omega
  | some v =>
    rw [Option.getD_some] at h ⊢
    have := le_abs_self v
    have := neg_abs_le v
    dsimp only
    split_ifs
    · simp (disch := omega) only [int32_of_lt]
      omega
    · omega

section RollingUpdateSafety

variable (GetScaledValueFromIntOrPercent : Option IntOrString → Int → Bool → Except String Int)

/-- Before `reconcileOldMachineSetsRollingUpdate` only `reconcileNewMachineSet` has run, which
sets no intent of an old MachineSet. With names unique, no old MachineSet waiting for a scale
down (`status.replicas ≤ spec.replicas`), and replica counts small enough that no `int32` sum or
difference of the reconcile wraps, every old MachineSet ends within `[0, spec.replicas]`, the old
MachineSets lose at most `max(Σ spec.replicas - minAvailable, 0)` replicas, where the sum is over
all MachineSets, and in the worst case, where every replica deleted is an available one, at least
`min(A, minAvailable)` of the `A` available replicas remain. -/
theorem reconcileOldMachineSetsRollingUpdate_keeps_availability (p : rolloutPlanner)
    (hnames : (p.oldMSs.map (·.name)).Nodup)
    (hintents : ∀ ms ∈ p.oldMSs, p.scaleIntents ms.name = none)
    (hstatus : ∀ ms ∈ p.oldMSs, (ms.statusReplicas : Int) ≤ ms.replicas)
    (hsmall : replicaMass (p.oldMSs ++ [p.newMS]) + |p.scaleIntentOf p.newMS| +
      |p.md.replicas - MaxUnavailable GetScaledValueFromIntOrPercent p.md| < 2 ^ 29) :
    (∀ ms ∈ p.oldMSs,
      0 ≤ (reconcileOldMachineSetsRollingUpdate GetScaledValueFromIntOrPercent p).scaleIntentOf ms ∧
      (reconcileOldMachineSetsRollingUpdate GetScaledValueFromIntOrPercent p).scaleIntentOf ms ≤
        ms.replicas) ∧
    (p.oldMSs.map fun ms => ms.replicas -
        (reconcileOldMachineSetsRollingUpdate GetScaledValueFromIntOrPercent p).scaleIntentOf ms).sum ≤
      max (((p.oldMSs ++ [p.newMS]).map (·.replicas)).sum -
        max (p.md.replicas - MaxUnavailable GetScaledValueFromIntOrPercent p.md) 0) 0 ∧
    min ((p.oldMSs ++ [p.newMS]).map fun ms => (ms.availableReplicas : Int)).sum
        (max (p.md.replicas - MaxUnavailable GetScaledValueFromIntOrPercent p.md) 0) ≤
      ((p.oldMSs ++ [p.newMS]).map fun ms => (ms.availableReplicas : Int)).sum -
        (p.oldMSs.map fun ms => availabilityAtRisk ms
          ((reconcileOldMachineSetsRollingUpdate GetScaledValueFromIntOrPercent p).scaleIntentOf ms)).sum := by
  have hspec : ∀ ms ∈ p.oldMSs, p.scaleIntentOf ms = ms.replicas := fun ms hms => by
    simp [rolloutPlanner.scaleIntentOf, hintents ms hms]
  have hI := abs_nonneg (p.scaleIntentOf p.newMS)
  have hmu0 := abs_nonneg (p.md.replicas - MaxUnavailable GetScaledValueFromIntOrPercent p.md)
  have hS := abs_sum_replicas_le_replicaMass (p.oldMSs ++ [p.newMS])
  have hA := sum_le_replicaMass (p.oldMSs ++ [p.newMS])
    (f := fun ms => (ms.availableReplicas : Int)) fun ms _ => by
      have := abs_nonneg ms.replicas
      omega
  have hmass := replicaMass_nonneg (p.oldMSs ++ [p.newMS])
  have hnew := le_replicaMass (List.mem_append_right p.oldMSs (List.mem_singleton_self p.newMS))
  have hold : ∀ ms ∈ p.oldMSs, ms.replicas ≤ 2 ^ 29 ∧ ms.statusReplicas ≤ 2 ^ 29 := by
    intro ms hms
    have := le_replicaMass (List.mem_append_left [p.newMS] hms)
    have := le_abs_self ms.replicas
    have := abs_nonneg ms.replicas
    omega
  have hV : (p.oldMSs.map fun ms => (ms.availableReplicas : Int)).sum ≤
      ((p.oldMSs ++ [p.newMS]).map fun ms => (ms.availableReplicas : Int)).sum := by
    simp
  have hV0 : 0 ≤ (p.oldMSs.map fun ms => (ms.availableReplicas : Int)).sum :=
    List.sum_nonneg fun d hd => by
      obtain ⟨ms, -, rfl⟩ := List.mem_map.mp hd
      exact Int.natCast_nonneg _
  have hpending : ((p.oldMSs ++ [p.newMS]).map (pendingScaleDown p.scaleIntents)).sum =
      pendingScaleDown p.scaleIntents p.newMS := by
    rw [List.map_append, List.sum_append, List.map_congr_left fun ms hms =>
      pendingScaleDown_of_le (hintents ms hms) (hstatus ms hms)]
    simp
  have hnewIntent : |(p.scaleIntents p.newMS.name).getD p.newMS.replicas| =
      |p.scaleIntentOf p.newMS| := rfl
  have hpend_le := @pendingScaleDown_le p.scaleIntents p.newMS (by omega)
  have hpend0 := pendingScaleDown_nonneg p.scaleIntents p.newMS
  have hmu := abs_le.mp (le_refl |p.md.replicas - MaxUnavailable GetScaledValueFromIntOrPercent p.md|)
  have hSabs := abs_le.mp hS
  unfold reconcileOldMachineSetsRollingUpdate
  dsimp only
  rw [GetReplicaCountForMachineSets_eq (p.oldMSs ++ [p.newMS]),
    GetAvailableReplicaCountForMachineSets_eq, foldl_int32_add_zero, hpending, int32_sub_int32]
  simp (disch := omega) only [int32_of_lt]
  split_ifs with hzero hT
  · exact (ScaleDownInvariant.initial hspec hstatus (le_max_right _ _)).result
  · exact (ScaleDownInvariant.initial hspec hstatus (le_max_right _ _)).result
  have hm : 0 ≤ max (p.md.replicas - MaxUnavailable GetScaledValueFromIntOrPercent p.md) 0 ∧
      max (p.md.replicas - MaxUnavailable GetScaledValueFromIntOrPercent p.md) 0 ≤ 2 ^ 29 := by
    omega
  generalize max (p.md.replicas - MaxUnavailable GetScaledValueFromIntOrPercent p.md) 0 =
    minAvailable at hT hm ⊢
  generalize hT₀ : max (((p.oldMSs ++ [p.newMS]).map (·.replicas)).sum -
    pendingScaleDown p.scaleIntents p.newMS - minAvailable) 0 = T₀ at hT ⊢
  have hT₀le : T₀ ≤ max (((p.oldMSs ++ [p.newMS]).map (·.replicas)).sum - minAvailable) 0 := by
    rw [← hT₀]
    exact max_le_max (by omega) le_rfl
  have hT₀small : T₀ ≤ 2 ^ 29 := by
    rw [← hT₀]
    omega
  generalize ((p.oldMSs ++ [p.newMS]).map fun ms => (ms.availableReplicas : Int)).sum = A at hA hV ⊢
  have hperm := MachineSetsByCreationTimestamp_perm p.oldMSs
  generalize MachineSetsByCreationTimestamp p.oldMSs = l at hperm ⊢
  have hVl : (l.map fun ms => (ms.availableReplicas : Int)).sum =
      (p.oldMSs.map fun ms => (ms.availableReplicas : Int)).sum := (hperm.map _).sum_eq
  have h₀ : ScaleDownInvariant l T₀ A minAvailable ⟨{ p with oldMSs := l }, T₀, A⟩ :=
    ScaleDownInvariant.initial (fun ms hms => hspec ms (hperm.subset hms))
      (fun ms hms => hstatus ms (hperm.subset hms)) (by omega)
  have h₂ := scaleDownOldMSs_twice_invariant (p := { p with oldMSs := l })
    ((hperm.map _).nodup_iff.mpr hnames)
    ⟨fun ms hms => hold ms (hperm.subset hms), hT₀small, by omega, by dsimp only; omega, hm⟩ h₀
  obtain ⟨hbounds, hbudget, havailable⟩ := (h₂.perm hperm).result
  exact ⟨hbounds, hbudget.trans hT₀le, havailable⟩

def rollingUpdateMidway : rolloutPlanner where
  md := ⟨3, .RollingUpdate, some (.int 1), some (.int 0)⟩
  newMS := ⟨"ms-new", 2, 1, 1, 1⟩
  oldMSs := [⟨"ms-old", 1, 3, 3, 3⟩]
  scaleIntents _ := none
  notes _ := []

theorem reconcileOldMachineSetsRollingUpdate_keeps_availability_sample :
    (∀ ms ∈ rollingUpdateMidway.oldMSs,
      0 ≤ (reconcileOldMachineSetsRollingUpdate scaledIntValue rollingUpdateMidway).scaleIntentOf ms ∧
      (reconcileOldMachineSetsRollingUpdate scaledIntValue rollingUpdateMidway).scaleIntentOf ms ≤
        ms.replicas) ∧
    (rollingUpdateMidway.oldMSs.map fun ms => ms.replicas -
        (reconcileOldMachineSetsRollingUpdate scaledIntValue rollingUpdateMidway).scaleIntentOf ms).sum ≤
      max (((rollingUpdateMidway.oldMSs ++ [rollingUpdateMidway.newMS]).map (·.replicas)).sum -
        max (rollingUpdateMidway.md.replicas -
          MaxUnavailable scaledIntValue rollingUpdateMidway.md) 0) 0 ∧
    min ((rollingUpdateMidway.oldMSs ++ [rollingUpdateMidway.newMS]).map
          fun ms => (ms.availableReplicas : Int)).sum
        (max (rollingUpdateMidway.md.replicas -
          MaxUnavailable scaledIntValue rollingUpdateMidway.md) 0) ≤
      ((rollingUpdateMidway.oldMSs ++ [rollingUpdateMidway.newMS]).map
          fun ms => (ms.availableReplicas : Int)).sum -
        (rollingUpdateMidway.oldMSs.map fun ms => availabilityAtRisk ms
          ((reconcileOldMachineSetsRollingUpdate scaledIntValue rollingUpdateMidway).scaleIntentOf
            ms)).sum :=
  reconcileOldMachineSetsRollingUpdate_keeps_availability scaledIntValue rollingUpdateMidway
    (by decide) (by decide) (by decide) (by decide)

end RollingUpdateSafety

/-- A MachineDeployment of 2147483647 replicas with `maxUnavailable: -1`, which validation
accepts, and one old MachineSet with its one replica available. -/
def rollingUpdateNegativeUnavailable : rolloutPlanner where
  md := ⟨2147483647, .RollingUpdate, some (.int 1), some (.int (-1))⟩
  newMS := ⟨"ms-new", 2, 0, 0, 0⟩
  oldMSs := [⟨"ms-old", 1, 1, 1, 1⟩]
  scaleIntents _ := none
  notes _ := []

/-- `replicas - maxUnavailable` is 2147483648, which `int32` wraps to -2147483648: the planner's
`minAvailable` is 0, not 2147483648. It scales the old MachineSet to 0, one replica more than
`max(Σ spec.replicas - 2147483648, 0) = 0`, and puts its available replica at risk, leaving
fewer than `min(A, 2147483648) = 1`. -/
theorem reconcileOldMachineSetsRollingUpdate_wraps_minAvailable :
    max (((rollingUpdateNegativeUnavailable.oldMSs ++ [rollingUpdateNegativeUnavailable.newMS]).map
          (·.replicas)).sum -
        max (rollingUpdateNegativeUnavailable.md.replicas -
          MaxUnavailable scaledIntValue rollingUpdateNegativeUnavailable.md) 0) 0 <
      (rollingUpdateNegativeUnavailable.oldMSs.map fun ms => ms.replicas -
        (reconcileOldMachineSetsRollingUpdate scaledIntValue
          rollingUpdateNegativeUnavailable).scaleIntentOf ms).sum ∧
    ((rollingUpdateNegativeUnavailable.oldMSs ++ [rollingUpdateNegativeUnavailable.newMS]).map
          fun ms => (ms.availableReplicas : Int)).sum -
        (rollingUpdateNegativeUnavailable.oldMSs.map fun ms => availabilityAtRisk ms
          ((reconcileOldMachineSetsRollingUpdate scaledIntValue
            rollingUpdateNegativeUnavailable).scaleIntentOf ms)).sum <
      min ((rollingUpdateNegativeUnavailable.oldMSs ++ [rollingUpdateNegativeUnavailable.newMS]).map
          fun ms => (ms.availableReplicas : Int)).sum
        (max (rollingUpdateNegativeUnavailable.md.replicas -
          MaxUnavailable scaledIntValue rollingUpdateNegativeUnavailable.md) 0) := by
  decide

end ClusterApi.Rollout
