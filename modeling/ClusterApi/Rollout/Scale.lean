import ClusterApi.Rollout.Mdutil
import ClusterApi.Lib.GoSort
import ClusterApi.Lib.GoStrings
import ClusterApi.Lib.Trace

/-!
# Scaling a MachineDeployment

`scale` of `machinedeployment_sync.go` sizes the MachineSets of a MachineDeployment that is
being scaled rather than rolled out. A single active MachineSet takes all the replicas; a
saturated new MachineSet leaves the old ones at zero; otherwise, in a rolling update, the
replicas to add or remove are spread over the active MachineSets in proportion to their sizes
(`GetProportion`), the largest first, and what the proportions leave over goes to the first.

`integer.RoundToInt32` of `k8s.io/utils` applied to the `float64` quotient of two integers is
not in the repository: it is the parameter `RoundToInt32 n d`, as `GetScaledValueFromIntOrPercent`
is in `Mdutil`; `sort.Sort` is a `Sorter` with the contract of `Lib.GoSort`, which the model of
`sort.Sort` keeps. Replica counts are `int32`: every sum, difference and product wraps as in Go, so
the sizes written add up to the allowed size in `int32` arithmetic, whatever the rounding. `scale` returns the `scaleMachineSet`
calls it makes, in order; a call that fails ends it, so the calls made are a prefix of these.
-/

namespace ClusterApi.Rollout

open ClusterApi.Lib.GoSort ClusterApi.Lib.GoStrings ClusterApi.Lib.Trace

def DesiredReplicasAnnotation : String := "machinedeployment.clusters.x-k8s.io/desired-replicas"

def MaxReplicasAnnotation : String := "machinedeployment.clusters.x-k8s.io/max-replicas"

/-- A MachineSet as `scale` reads it: the fields of the rollout, and its annotations. A nil
`spec.replicas` is not represented: `FilterActiveMachineSets` drops such a MachineSet. -/
structure ScaleMachineSet extends MachineSet where
  annotations : List (String × String)
  deriving DecidableEq, Repr

structure ScaleDeployment extends MachineDeployment where
  statusReplicas : Nat
  deriving DecidableEq, Repr

section Scale

variable (GetScaledValueFromIntOrPercent : Option IntOrString → Int → Bool → Except String Int)
  (RoundToInt32 : Int → Int → Int) (S : Sorter)

/-- The error of `ResolveFenceposts` is dropped (validation catches it): `maxSurge` is then its
zero value. -/
def MaxSurge (deployment : MachineDeployment) : Int :=
  if !IsRollingUpdate deployment then 0
  else
    match ResolveFenceposts GetScaledValueFromIntOrPercent deployment.maxSurge
        deployment.maxUnavailable deployment.replicas with
    | .ok (maxSurge, _) => maxSurge
    | .error _ => 0

def getIntFromAnnotation (ms : ScaleMachineSet) (annotationKey : String) : Option Int :=
  match ms.annotations.lookup annotationKey with
  | none => none
  | some annotationValue => ParseInt32 annotationValue

def getMaxReplicasAnnotation (ms : ScaleMachineSet) : Option Int :=
  getIntFromAnnotation ms MaxReplicasAnnotation

def getMachineSetFraction (ms : ScaleMachineSet) (md : ScaleDeployment) : Int :=
  -- scaling down to zero: the whole MachineSet goes
  if md.replicas = 0 then int32 (-ms.replicas)
  else
    let deploymentReplicas :=
      int32 (md.replicas + MaxSurge GetScaledValueFromIntOrPercent md.toMachineDeployment)
    let annotatedReplicas := ( getMaxReplicasAnnotation ms).getD md.statusReplicas
    int32 (RoundToInt32 (int32 (ms.replicas * deploymentReplicas)) annotatedReplicas -
      ms.replicas)

def GetProportion (ms : ScaleMachineSet) (md : ScaleDeployment)
    (deploymentReplicasToAdd deploymentReplicasAdded : Int) : Int :=
  if ms.replicas = 0 ∨ deploymentReplicasToAdd = 0 ∨
      deploymentReplicasToAdd = deploymentReplicasAdded then 0
  else
    let msFraction := getMachineSetFraction GetScaledValueFromIntOrPercent RoundToInt32 ms md
    let allowed := int32 (deploymentReplicasToAdd - deploymentReplicasAdded)
    if deploymentReplicasToAdd > 0 then min msFraction allowed else max msFraction allowed

def FilterActiveMachineSets (machineSets : List ScaleMachineSet) : List ScaleMachineSet :=
  machineSets.filter fun ms => ms.replicas > 0

def sizeNewerLess (a b : ScaleMachineSet) : Bool :=
  if a.replicas = b.replicas then b.creationTimestamp < a.creationTimestamp
  else a.replicas > b.replicas

def sizeOlderLess (a b : ScaleMachineSet) : Bool :=
  if a.replicas = b.replicas then a.creationTimestamp < b.creationTimestamp
  else a.replicas > b.replicas

def sizeNewerKey (ms : ScaleMachineSet) : Lex (ℤᵒᵈ × ℕᵒᵈ) :=
  toLex (OrderDual.toDual ms.replicas, OrderDual.toDual ms.creationTimestamp)

def sizeOlderKey (ms : ScaleMachineSet) : Lex (ℤᵒᵈ × ℕ) :=
  toLex (OrderDual.toDual ms.replicas, ms.creationTimestamp)

theorem sizeNewerLess_eq (a b : ScaleMachineSet) :
    sizeNewerLess a b = decide (sizeNewerKey a < sizeNewerKey b) := by
  unfold sizeNewerLess sizeNewerKey
  by_cases h : a.replicas = b.replicas
  · simp [h, Prod.Lex.toLex_lt_toLex]
  · simp [h, Prod.Lex.toLex_lt_toLex]

theorem sizeOlderLess_eq (a b : ScaleMachineSet) :
    sizeOlderLess a b = decide (sizeOlderKey a < sizeOlderKey b) := by
  unfold sizeOlderLess sizeOlderKey
  by_cases h : a.replicas = b.replicas
  · simp [h, Prod.Lex.toLex_lt_toLex]
  · simp [h, Prod.Lex.toLex_lt_toLex]

/-- `FindOneActiveOrLatest`, with the old MachineSets as it leaves them: it sorts the caller's
slice, newest first. -/
def FindOneActiveOrLatest (newMS : Option ScaleMachineSet) (oldMSs : List ScaleMachineSet) :
    Option ScaleMachineSet × List ScaleMachineSet :=
  if newMS.isNone ∧ oldMSs = [] then (none, oldMSs)
  else
    let oldMSs := S.sort (fun a b => creationTimestampLess b.toMachineSet a.toMachineSet) oldMSs
    match FilterActiveMachineSets (oldMSs ++ newMS.toList) with
    -- no active MachineSet: the newest
    | [] => ((newMS.or oldMSs.head?), oldMSs)
    | [ms] => (some ms, oldMSs)
    | _ => (none, oldMSs)

def IsSaturated (deployment : ScaleDeployment) (ms : Option ScaleMachineSet) : Bool :=
  match ms with
  | none => false
  | some ms =>
    match ParseInt32 ((ms.annotations.lookup DesiredReplicasAnnotation).getD "") with
    | none => false
    | some desired =>
      ms.replicas = deployment.replicas ∧ desired = deployment.replicas ∧
        (ms.availableReplicas : Int) = deployment.replicas

def estimateStep (deployment : ScaleDeployment) (deploymentReplicasToAdd : Int) :
    (String → Int) × Int → ScaleMachineSet → (String → Int) × Int
  | (nameToSize, deploymentReplicasAdded), ms =>
    if deploymentReplicasToAdd ≠ 0 then
      let proportion := GetProportion GetScaledValueFromIntOrPercent RoundToInt32 ms deployment
        deploymentReplicasToAdd deploymentReplicasAdded
      (Function.update nameToSize ms.name (int32 (ms.replicas + proportion)),
        int32 (deploymentReplicasAdded + proportion))
    else (Function.update nameToSize ms.name ms.replicas, deploymentReplicasAdded)

def allowedSize (deployment : ScaleDeployment) : Int :=
  if deployment.replicas > 0 then
    int32 (deployment.replicas + MaxSurge GetScaledValueFromIntOrPercent deployment.toMachineDeployment)
  else 0

/-- The order the replicas are spread in: scaling up favours newer MachineSets of a size,
scaling down older ones. -/
def sortBySize (deploymentReplicasToAdd : Int) (allMSs : List ScaleMachineSet) :
    List ScaleMachineSet :=
  if deploymentReplicasToAdd > 0 then S.sort sizeNewerLess allMSs
  else if deploymentReplicasToAdd < 0 then S.sort sizeOlderLess allMSs
  else allMSs

def estimateSizes (deployment : ScaleDeployment) (deploymentReplicasToAdd : Int)
    (allMSs : List ScaleMachineSet) : (String → Int) × Int :=
  allMSs.foldl (estimateStep GetScaledValueFromIntOrPercent RoundToInt32 deployment
    deploymentReplicasToAdd) (fun _ => 0, 0)

/-- The update loop of `scale`: the first MachineSet takes the leftover, and no less than zero;
every MachineSet is scaled to its size. -/
def updateMachineSets (deploymentReplicasToAdd : Int) (allMSs : List ScaleMachineSet)
    (estimate : (String → Int) × Int) : List (ScaleMachineSet × Int) :=
  let nameToSize := match allMSs with
    | ms :: _ =>
      if deploymentReplicasToAdd ≠ 0 then
        let leftover := int32 (deploymentReplicasToAdd - estimate.2)
        Function.update estimate.1 ms.name (max (int32 (estimate.1 ms.name + leftover)) 0)
      else estimate.1
    | [] => estimate.1
  allMSs.map fun ms => (ms, nameToSize ms.name)

def scaleProportionally (deployment : ScaleDeployment) (allMSs : List ScaleMachineSet) :
    List (ScaleMachineSet × Int) :=
  let totalMSReplicas := GetReplicaCountForMachineSets (allMSs.map (·.toMachineSet))
  let deploymentReplicasToAdd :=
    int32 (allowedSize GetScaledValueFromIntOrPercent deployment - totalMSReplicas)
  let allMSs := sortBySize S deploymentReplicasToAdd allMSs
  updateMachineSets deploymentReplicasToAdd allMSs
    (estimateSizes GetScaledValueFromIntOrPercent RoundToInt32 deployment deploymentReplicasToAdd
      allMSs)

/-- `scale`: the `scaleMachineSet` calls it makes; a call to a MachineSet's own size writes
nothing. -/
def scale (deployment : ScaleDeployment) (newMS : Option ScaleMachineSet)
    (oldMSs : List ScaleMachineSet) : List (ScaleMachineSet × Int) :=
  match FindOneActiveOrLatest S newMS oldMSs with
  | (some activeOrLatest, _) =>
    if activeOrLatest.replicas = deployment.replicas then []
    else [(activeOrLatest, deployment.replicas)]
  | (none, oldMSs) =>
    if IsSaturated deployment newMS then
      (FilterActiveMachineSets oldMSs).map fun old => (old, 0)
    else if IsRollingUpdate deployment.toMachineDeployment then
      scaleProportionally GetScaledValueFromIntOrPercent RoundToInt32 S deployment
        (FilterActiveMachineSets (oldMSs ++ newMS.toList))
    else []

/-! ### The estimation loop -/

section Estimate

variable (deployment : ScaleDeployment) (deploymentReplicasToAdd : Int)

theorem estimateStep_spec (nameToSize : String → Int) (deploymentReplicasAdded : Int)
    (ms : ScaleMachineSet) :
    ∃ size added proportion, estimateStep GetScaledValueFromIntOrPercent RoundToInt32 deployment
        deploymentReplicasToAdd (nameToSize, deploymentReplicasAdded) ms =
        (Function.update nameToSize ms.name size, added) ∧
      size ≡ ms.replicas + proportion [ZMOD 2 ^ 32] ∧
      added ≡ deploymentReplicasAdded + proportion [ZMOD 2 ^ 32] ∧
      (deploymentReplicasToAdd = 0 → added = deploymentReplicasAdded) := by
  unfold estimateStep
  split_ifs with hzero
  · exact ⟨_, _, _, rfl, int32_modEq _, int32_modEq _, fun h => absurd h hzero⟩
  · exact ⟨_, _, 0, rfl, by rw [add_zero], by rw [add_zero], fun _ => rfl⟩

theorem foldl_estimateStep_added (l : List ScaleMachineSet) (nameToSize : String → Int)
    (deploymentReplicasAdded : Int) (hzero : deploymentReplicasToAdd = 0) :
    (l.foldl (estimateStep GetScaledValueFromIntOrPercent RoundToInt32 deployment
      deploymentReplicasToAdd) (nameToSize, deploymentReplicasAdded)).2 = deploymentReplicasAdded := by
  induction l generalizing nameToSize deploymentReplicasAdded with
  | nil => rfl
  | cons ms rest ih =>
    obtain ⟨size, added, -, heq, -, -, hsame⟩ := estimateStep_spec GetScaledValueFromIntOrPercent
      RoundToInt32 deployment deploymentReplicasToAdd nameToSize deploymentReplicasAdded ms
    rw [List.foldl_cons, heq, ih, hsame hzero]

theorem foldl_estimateStep_apply_of_not_mem (l : List ScaleMachineSet)
    (nameToSize : String → Int) (deploymentReplicasAdded : Int) {name : String}
    (hname : name ∉ l.map (·.name)) :
    (l.foldl (estimateStep GetScaledValueFromIntOrPercent RoundToInt32 deployment
      deploymentReplicasToAdd) (nameToSize, deploymentReplicasAdded)).1 name = nameToSize name := by
  induction l generalizing nameToSize deploymentReplicasAdded with
  | nil => rfl
  | cons ms rest ih =>
    simp only [List.map_cons, List.mem_cons, not_or] at hname
    obtain ⟨size, added, -, heq, -⟩ := estimateStep_spec GetScaledValueFromIntOrPercent
      RoundToInt32 deployment deploymentReplicasToAdd nameToSize deploymentReplicasAdded ms
    rw [List.foldl_cons, heq, ih _ _ hname.2, Function.update_of_ne hname.1]

theorem foldl_estimateStep_sum (l : List ScaleMachineSet) (nameToSize : String → Int)
    (deploymentReplicasAdded : Int) (hnames : (l.map (·.name)).Nodup) :
    let estimate := l.foldl (estimateStep GetScaledValueFromIntOrPercent RoundToInt32 deployment
      deploymentReplicasToAdd) (nameToSize, deploymentReplicasAdded)
    (l.map fun ms => estimate.1 ms.name).sum ≡
      (l.map (·.replicas)).sum + (estimate.2 - deploymentReplicasAdded) [ZMOD 2 ^ 32] := by
  induction l generalizing nameToSize deploymentReplicasAdded with
  | nil => simp [Int.ModEq.refl]
  | cons ms rest ih =>
    intro estimate
    obtain ⟨hms, hrest⟩ := List.nodup_cons.mp hnames
    obtain ⟨size, added, proportion, heq, hsize, hadded, -⟩ := estimateStep_spec
      GetScaledValueFromIntOrPercent RoundToInt32 deployment deploymentReplicasToAdd nameToSize
      deploymentReplicasAdded ms
    have hrestSum := ih (Function.update nameToSize ms.name size) added hrest
    simp only [estimate, List.foldl_cons, heq, List.map_cons, List.sum_cons] at hrestSum ⊢
    rw [foldl_estimateStep_apply_of_not_mem GetScaledValueFromIntOrPercent RoundToInt32 _ _ rest
      _ _ hms, Function.update_self]
    unfold Int.ModEq at hsize hadded hrestSum ⊢
    omega

end Estimate

/-! ### What the rolling-update branch writes -/

section Proportional

variable {deployment : ScaleDeployment} {allMSs : List ScaleMachineSet}

@[simp]
theorem updateMachineSets_fst (deploymentReplicasToAdd : Int) (l : List ScaleMachineSet)
    (estimate : (String → Int) × Int) :
    (updateMachineSets deploymentReplicasToAdd l estimate).map (·.1) = l := by
  simp [updateMachineSets, Function.comp_def]

theorem sortBySize_perm (hS : S.Lawful) (deploymentReplicasToAdd : Int) :
    (sortBySize S deploymentReplicasToAdd allMSs).Perm allMSs := by
  unfold sortBySize
  split_ifs
  · exact hS.perm _ _
  · exact hS.perm _ _
  · exact List.Perm.refl _

theorem updateMachineSets_sum {deploymentReplicasToAdd : Int} {l : List ScaleMachineSet}
    {estimate : (String → Int) × Int} (hnames : (l.map (·.name)).Nodup) (hne : l ≠ [])
    (hnothing : deploymentReplicasToAdd = 0 → estimate.2 = 0) :
    let sizes := (updateMachineSets deploymentReplicasToAdd l estimate).map (·.2)
    let target := (l.map fun ms => estimate.1 ms.name).sum + (deploymentReplicasToAdd - estimate.2)
    sizes.sum ≡ target [ZMOD 2 ^ 32] ∨ sizes.head? = some 0 := by
  intro sizes target
  obtain ⟨ms, rest, rfl⟩ := List.exists_cons_of_ne_nil hne
  obtain ⟨hms, -⟩ := List.nodup_cons.mp hnames
  by_cases hzero : deploymentReplicasToAdd = 0
  · -- nothing to add: the estimates are the sizes
    have hsizes : sizes.sum = target := by
      simp [sizes, target, updateMachineSets, hzero, hnothing hzero, Function.comp_def]
    exact .inl (hsizes ▸ Int.ModEq.refl _)
  have hrest : ∀ v, (rest.map fun x => Function.update estimate.1 ms.name v x.name) =
      rest.map fun x => estimate.1 x.name := by
    intro v
    refine List.map_congr_left fun x hx => Function.update_of_ne ?_ _ _
    rintro hname
    apply hms
    show ms.name ∈ rest.map (·.name)
    rw [← hname]
    exact List.mem_map_of_mem hx
  simp only [sizes, target, updateMachineSets, if_pos hzero, ne_eq, List.map_cons, List.map_map,
    Function.comp_def, List.sum_cons, Function.update_self, hrest, List.head?_cons,
    Option.some.injEq]
  have hfirst := int32_modEq (estimate.1 ms.name + int32 (deploymentReplicasToAdd - estimate.2))
  have hleftover := int32_modEq (deploymentReplicasToAdd - estimate.2)
  by_cases hneg : int32 (estimate.1 ms.name + int32 (deploymentReplicasToAdd - estimate.2)) < 0
  · exact .inr (max_eq_right hneg.le)
  · left
    rw [max_eq_left (by omega)]
    unfold Int.ModEq at hfirst hleftover ⊢
    omega

theorem allowedSize_int32 (deployment : ScaleDeployment) :
    int32 (allowedSize GetScaledValueFromIntOrPercent deployment) =
      allowedSize GetScaledValueFromIntOrPercent deployment := by
  unfold allowedSize
  split_ifs
  · exact int32_int32 _
  · rfl

theorem scaleProportionally_sum (hS : S.Lawful) (hnames : (allMSs.map (·.name)).Nodup)
    (hne : allMSs ≠ []) :
    let sizes := (scaleProportionally GetScaledValueFromIntOrPercent RoundToInt32 S deployment
      allMSs).map (·.2)
    int32 sizes.sum ≠ allowedSize GetScaledValueFromIntOrPercent deployment →
      sizes.head? = some 0 := by
  intro sizes hne_allowed
  have hmod : sizes.sum ≡ allowedSize GetScaledValueFromIntOrPercent deployment [ZMOD 2 ^ 32] ∨
      sizes.head? = some 0 := by
    simp only [sizes, scaleProportionally]
    have htotal : GetReplicaCountForMachineSets (allMSs.map (·.toMachineSet)) ≡
        (allMSs.map (·.replicas)).sum [ZMOD 2 ^ 32] := by
      rw [GetReplicaCountForMachineSets_eq, List.map_map]
      exact int32_modEq _
    have htoAdd := int32_modEq (allowedSize GetScaledValueFromIntOrPercent deployment -
      GetReplicaCountForMachineSets (allMSs.map (·.toMachineSet)))
    generalize int32 (allowedSize GetScaledValueFromIntOrPercent deployment -
      GetReplicaCountForMachineSets (allMSs.map (·.toMachineSet))) = deploymentReplicasToAdd
      at htoAdd ⊢
    have hperm : (sortBySize S deploymentReplicasToAdd allMSs).Perm allMSs :=
      sortBySize_perm S hS deploymentReplicasToAdd
    generalize sortBySize S deploymentReplicasToAdd allMSs = sorted at hperm ⊢
    have hsorted_names : (sorted.map (·.name)).Nodup := (hperm.map _).nodup_iff.mpr hnames
    have hsorted_ne : sorted ≠ [] := fun h => hne (List.Perm.eq_nil (h ▸ hperm.symm))
    -- the estimates add up to the sizes and the replicas added, modulo `2^32`
    have hestimate := foldl_estimateStep_sum GetScaledValueFromIntOrPercent RoundToInt32
      deployment deploymentReplicasToAdd sorted (fun _ => 0) 0 hsorted_names
    have hnothing := foldl_estimateStep_added GetScaledValueFromIntOrPercent RoundToInt32
      deployment deploymentReplicasToAdd sorted (fun _ => 0) 0
    rw [← (hperm.map _).sum_eq] at htotal
    unfold estimateSizes
    refine (updateMachineSets_sum hsorted_names hsorted_ne hnothing).imp_left fun hsum => ?_
    unfold Int.ModEq at hestimate htotal htoAdd hsum ⊢
    dsimp only at hestimate hsum
    omega
  rcases hmod with hmod | hhead
  · refine absurd ?_ hne_allowed
    rw [← allowedSize_int32 GetScaledValueFromIntOrPercent deployment]
    exact int32_eq_int32_iff.mpr hmod
  · exact hhead

theorem deploymentReplicasToAdd_eq_zero
    (h : int32 (allowedSize GetScaledValueFromIntOrPercent deployment -
      GetReplicaCountForMachineSets (allMSs.map (·.toMachineSet))) = 0) :
    allowedSize GetScaledValueFromIntOrPercent deployment =
      GetReplicaCountForMachineSets (allMSs.map (·.toMachineSet)) := by
  have hallowed := int32_bounds (allowedSize GetScaledValueFromIntOrPercent deployment)
  rw [allowedSize_int32] at hallowed
  have htotal := int32_bounds ((allMSs.map (·.toMachineSet)).map (·.replicas)).sum
  rw [← GetReplicaCountForMachineSets_eq] at htotal
  unfold int32 at h
  omega

theorem scaleProportionally_head (hS : S.Lawful)
    (hscaling : allowedSize GetScaledValueFromIntOrPercent deployment ≠
      GetReplicaCountForMachineSets (allMSs.map (·.toMachineSet)))
    {first : ScaleMachineSet × Int} {rest : List (ScaleMachineSet × Int)}
    (h : scaleProportionally GetScaledValueFromIntOrPercent RoundToInt32 S deployment allMSs =
      first :: rest) :
    ∀ ms ∈ allMSs, ms.replicas ≤ first.1.replicas := by
  unfold scaleProportionally updateMachineSets at h
  obtain ⟨head, sortedRest, hsorted, hfirst, -⟩ := List.map_eq_cons_iff.mp h
  subst hfirst
  intro ms hms
  unfold sortBySize at hsorted
  split_ifs at hsorted with hup hdown
  · -- scaling up: sorted by `MachineSetsBySizeNewer`
    have hless := hS.not_less_head (StrictWeakOn.of_key _ sizeNewerLess_eq) hsorted ms hms
    unfold sizeNewerLess at hless
    split_ifs at hless with hsame <;> simp_all
  · have hless := hS.not_less_head (StrictWeakOn.of_key _ sizeOlderLess_eq) hsorted ms hms
    unfold sizeOlderLess at hless
    split_ifs at hless with hsame <;> simp_all
  · exact absurd (deploymentReplicasToAdd_eq_zero GetScaledValueFromIntOrPercent (by omega))
      hscaling

theorem FindOneActiveOrLatest_of_two_active (hS : S.Lawful) {newMS : Option ScaleMachineSet}
    {oldMSs : List ScaleMachineSet}
    (hactive : 2 ≤ (FilterActiveMachineSets (oldMSs ++ newMS.toList)).length) :
    ∃ sortedOld, sortedOld.Perm oldMSs ∧ FindOneActiveOrLatest S newMS oldMSs = (none, sortedOld) := by
  have hsome : ¬(newMS.isNone ∧ oldMSs = []) := by
    rintro ⟨hnone, rfl⟩
    cases newMS <;> simp_all [FilterActiveMachineSets]
  refine ⟨S.sort (fun a b => creationTimestampLess b.toMachineSet a.toMachineSet) oldMSs,
    hS.perm _ _, ?_⟩
  have hlength := (((hS.perm (fun a b => creationTimestampLess b.toMachineSet a.toMachineSet)
    oldMSs).append_right newMS.toList).filter fun ms => decide (ms.replicas > 0)).length_eq
  unfold FindOneActiveOrLatest
  rw [if_neg hsome]
  dsimp only
  unfold FilterActiveMachineSets at hactive ⊢
  split
  · rename_i hnil
    rw [hnil] at hlength
    simp only [List.length_nil] at hlength
    omega
  · rename_i ms hone
    rw [hone] at hlength
    simp only [List.length_singleton] at hlength
    omega
  · rfl

/-- In a rolling update with two or more active MachineSets and the new one not saturated,
`scale` writes every active MachineSet once. The one it writes first takes what the proportions
leave over: when the deployment scales it is one of the largest, and the sizes add up, in
`int32` arithmetic, to the allowed size, `spec.replicas + maxSurge` (or zero), unless that first
MachineSet would go below zero, when it gets zero. -/
theorem scale_rolling_update (hS : S.Lawful) {newMS : Option ScaleMachineSet}
    {oldMSs : List ScaleMachineSet} (hnames : ((oldMSs ++ newMS.toList).map (·.name)).Nodup)
    (hactive : 2 ≤ (FilterActiveMachineSets (oldMSs ++ newMS.toList)).length)
    (hsaturated : IsSaturated deployment newMS = false)
    (hrolling : IsRollingUpdate deployment.toMachineDeployment = true) :
    let calls := scale GetScaledValueFromIntOrPercent RoundToInt32 S deployment newMS oldMSs
    let active := FilterActiveMachineSets (oldMSs ++ newMS.toList)
    (calls.map (·.1)).Perm active ∧
      (int32 (calls.map (·.2)).sum ≠ allowedSize GetScaledValueFromIntOrPercent deployment →
        (calls.map (·.2)).head? = some 0) ∧
      (allowedSize GetScaledValueFromIntOrPercent deployment ≠
          GetReplicaCountForMachineSets (active.map (·.toMachineSet)) →
        ∀ first ∈ calls.head?, ∀ ms ∈ active, ms.replicas ≤ first.1.replicas) := by
  intro calls active
  obtain ⟨sortedOld, hperm, hfind⟩ := FindOneActiveOrLatest_of_two_active S hS hactive
  have hcalls : calls = scaleProportionally GetScaledValueFromIntOrPercent RoundToInt32 S
      deployment (FilterActiveMachineSets (sortedOld ++ newMS.toList)) := by
    simp only [calls, scale, hfind, hsaturated, hrolling]
    rfl
  have hactive_perm : (FilterActiveMachineSets (sortedOld ++ newMS.toList)).Perm active :=
    (hperm.append_right _).filter _
  have hnames' : ((FilterActiveMachineSets (sortedOld ++ newMS.toList)).map (·.name)).Nodup :=
    (hactive_perm.map _).nodup_iff.mpr ((hnames.sublist (List.filter_sublist.map _)))
  have hne : FilterActiveMachineSets (sortedOld ++ newMS.toList) ≠ [] := by
    intro hnil
    have := hactive_perm.length_eq
    rw [hnil] at this
    simp only [active, List.length_nil] at this
    omega
  have htotal : GetReplicaCountForMachineSets
      ((FilterActiveMachineSets (sortedOld ++ newMS.toList)).map (·.toMachineSet)) =
      GetReplicaCountForMachineSets (active.map (·.toMachineSet)) := by
    rw [GetReplicaCountForMachineSets_eq, GetReplicaCountForMachineSets_eq, List.map_map,
      List.map_map, (hactive_perm.map _).sum_eq]
  have hhead := @scaleProportionally_sum GetScaledValueFromIntOrPercent RoundToInt32 S
    deployment _ hS hnames' hne
  rw [hcalls]
  refine ⟨?_, hhead, fun hscaling first hfirst ms hms => ?_⟩
  · simp only [scaleProportionally, updateMachineSets_fst]
    exact (sortBySize_perm S hS _).trans hactive_perm
  · obtain ⟨rest, hcons⟩ : ∃ rest, scaleProportionally GetScaledValueFromIntOrPercent
        RoundToInt32 S deployment (FilterActiveMachineSets (sortedOld ++ newMS.toList)) =
          first :: rest := by
      cases hl : scaleProportionally GetScaledValueFromIntOrPercent RoundToInt32 S deployment
          (FilterActiveMachineSets (sortedOld ++ newMS.toList)) with
      | nil => simp [hl] at hfirst
      | cons x rest => simp_all
    exact scaleProportionally_head GetScaledValueFromIntOrPercent RoundToInt32 S hS
      (htotal ▸ hscaling) hcons ms (hactive_perm.mem_iff.mpr hms)

end Proportional

def scaleSampleDeployment : ScaleDeployment :=
  ⟨⟨5, .RollingUpdate, some (.int 1), some (.int 0)⟩, 3⟩

def scaleSampleOld : ScaleMachineSet := ⟨⟨"ms-old", 1, 2, 2, 2⟩, [( MaxReplicasAnnotation, "3")]⟩

def scaleSampleNew : ScaleMachineSet := ⟨⟨"ms-new", 2, 1, 1, 1⟩, [( MaxReplicasAnnotation, "3")]⟩

theorem scale_rolling_update_sample :
    let calls := scale scaledIntValue (fun n d => n / d) Sorter.sample scaleSampleDeployment
      (some scaleSampleNew) [scaleSampleOld]
    let active := FilterActiveMachineSets [scaleSampleOld, scaleSampleNew]
    (calls.map (·.1)).Perm active ∧
      (int32 (calls.map (·.2)).sum ≠ allowedSize scaledIntValue scaleSampleDeployment →
        (calls.map (·.2)).head? = some 0) ∧
      (allowedSize scaledIntValue scaleSampleDeployment ≠
          GetReplicaCountForMachineSets (active.map (·.toMachineSet)) →
        ∀ first ∈ calls.head?, ∀ ms ∈ active, ms.replicas ≤ first.1.replicas) :=
  scale_rolling_update scaledIntValue (fun n d => n / d) Sorter.sample Sorter.sample_lawful
    (by decide) (by decide) (by decide) (by decide)

end Scale

end ClusterApi.Rollout
