import ClusterApi.Rollout.Planner
import ClusterApi.Lib.GoSort

/-!
# The rolling update plan and its deadlock breaker

With the `InPlaceUpdates` feature gate off, `planRollingUpdate` runs three steps of the rollout
planner: `reconcileNewMachineSet` scales the new MachineSet up within `maxSurge`,
`reconcileOldMachineSetsRollingUpdate` scales the old ones down within `maxUnavailable`, assuming
that every replica it deletes is an available one, and `reconcileDeadlockBreaker` unblocks a
rollout that this worst case stops: old MachineSets with unavailable replicas, nothing scaling,
and the new MachineSet fully available. It then scales the first old MachineSet with an
unavailable replica down by one, beyond `maxUnavailable`, and relies on
`reconcileOldMachineSetsRollingUpdate` having sorted the old MachineSets oldest first.

The steps behind the feature gate, which count moved machines and plan in-place updates, are
modelled on their own in `MachineSet.Move`.
-/

namespace ClusterApi.Rollout
open ClusterApi.Lib ClusterApi.Lib.GoSort ClusterApi.Lib.GoStrings

/-- `GetActualReplicaCountForMachineSets`: the `int32` sum of `status.replicas`, a nil count
adding 0. -/
def GetActualReplicaCountForMachineSets (machineSets : List MachineSet) : Int :=
  machineSets.foldl (fun totalActualReplicas ms =>
    int32 (totalActualReplicas + ms.statusReplicas)) 0

/-- The old MachineSets the last loop of `reconcileDeadlockBreaker` does not skip: some replica
unavailable, and replicas left to scale down. -/
def canBreakDeadlock (oldMS : MachineSet) : Bool :=
  !(oldMS.availableReplicas == oldMS.statusReplicas || oldMS.replicas == 0)

def reconcileDeadlockBreaker (p : rolloutPlanner) : rolloutPlanner :=
  let allMSs := p.oldMSs ++ [p.newMS]
  -- no replicas on the old MachineSets: no rollout in progress
  if GetActualReplicaCountForMachineSets p.oldMSs = 0 then p
  -- every replica of the old MachineSets available: the regular scaling takes over
  else if GetActualReplicaCountForMachineSets p.oldMSs =
      GetAvailableReplicaCountForMachineSets p.oldMSs then p
  -- a scale operation in progress, from an earlier reconcile or from this one
  else if allMSs.any fun ms =>
      ms.replicas != (ms.statusReplicas : Int) || (p.scaleIntents ms.name).isSome then p
  else if p.newMS.availableReplicas ≠ p.newMS.statusReplicas then p
  else
    match p.oldMSs.find? canBreakDeadlock with
    | none => p
    | some oldMS =>
      (p.addNote p.newMS
        "scaling down by 1 to unblock rollout stuck due to unavailable Machine on oldMS").setScaleIntent
          oldMS (max (int32 (oldMS.replicas - 1)) 0)

section Plan

variable (GetScaledValueFromIntOrPercent : Option IntOrString → Int → Bool → Except String Int)

/-- `planRollingUpdate` with the `InPlaceUpdates` feature gate off, where
`reconcileReplicasPendingAcknowledgeMove` and `reconcileInPlaceUpdateIntent` return at once. -/
def planRollingUpdate (p : rolloutPlanner) : Except String rolloutPlanner :=
  match reconcileNewMachineSet GetScaledValueFromIntOrPercent p with
  | .error e => .error e
  | .ok p => .ok (reconcileDeadlockBreaker
      (reconcileOldMachineSetsRollingUpdate GetScaledValueFromIntOrPercent p))

end Plan

/-! ### What the deadlock breaker does -/

/-- The stuck rollout `reconcileDeadlockBreaker` looks for: an old MachineSet with an unavailable
replica (so the old MachineSets have replicas, not all available); no MachineSet scaling, from an
earlier reconcile (`spec.replicas` is not `status.replicas`) or from this one (a scale intent);
and the new MachineSet fully available. -/
structure Deadlocked (p : rolloutPlanner) : Prop where
  oldUnavailable : ∃ ms ∈ p.oldMSs, ms.availableReplicas < ms.statusReplicas
  stable : ∀ ms ∈ p.oldMSs ++ [p.newMS],
    ms.replicas = ms.statusReplicas ∧ p.scaleIntents ms.name = none
  newAvailable : p.newMS.availableReplicas = p.newMS.statusReplicas

instance : DecidablePred Deadlocked := fun p =>
  decidable_of_iff ((∃ ms ∈ p.oldMSs, ms.availableReplicas < ms.statusReplicas) ∧
      (∀ ms ∈ p.oldMSs ++ [p.newMS],
        ms.replicas = ms.statusReplicas ∧ p.scaleIntents ms.name = none) ∧
      p.newMS.availableReplicas = p.newMS.statusReplicas)
    ⟨fun ⟨h₁, h₂, h₃⟩ => ⟨h₁, h₂, h₃⟩, fun ⟨h₁, h₂, h₃⟩ => ⟨h₁, h₂, h₃⟩⟩

variable {p : rolloutPlanner}

theorem GetActualReplicaCountForMachineSets_eq (machineSets : List MachineSet) :
    GetActualReplicaCountForMachineSets machineSets =
      int32 (machineSets.map fun ms => (ms.statusReplicas : Int)).sum :=
  foldl_int32_add_zero _ machineSets

theorem oldUnavailable_iff
    (havailable : ∀ ms ∈ p.oldMSs, ms.availableReplicas ≤ ms.statusReplicas) :
    ((∃ ms ∈ p.oldMSs, ms.availableReplicas < ms.statusReplicas) ∧
        (p.oldMSs.map fun ms => (ms.statusReplicas : Int)).sum < 2 ^ 31 →
      GetActualReplicaCountForMachineSets p.oldMSs ≠ 0 ∧
        GetActualReplicaCountForMachineSets p.oldMSs ≠
          GetAvailableReplicaCountForMachineSets p.oldMSs) ∧
    (GetActualReplicaCountForMachineSets p.oldMSs ≠
        GetAvailableReplicaCountForMachineSets p.oldMSs →
      ∃ ms ∈ p.oldMSs, ms.availableReplicas < ms.statusReplicas) := by
  rw [GetActualReplicaCountForMachineSets_eq, GetAvailableReplicaCountForMachineSets_eq]
  have hle : (p.oldMSs.map fun ms => (ms.availableReplicas : Int)).sum ≤
      (p.oldMSs.map fun ms => (ms.statusReplicas : Int)).sum :=
    List.sum_le_sum fun ms hms => by exact_mod_cast havailable ms hms
  have hA0 : 0 ≤ (p.oldMSs.map fun ms => (ms.availableReplicas : Int)).sum :=
    List.sum_nonneg fun d hd => by
      obtain ⟨ms, -, rfl⟩ := List.mem_map.mp hd
      exact Int.natCast_nonneg _
  refine ⟨fun ⟨hlt, hfits⟩ => ?_, fun hne => ?_⟩
  · -- an unavailable replica makes the available replicas fewer; nothing wraps
    have hlt' : (p.oldMSs.map fun ms => (ms.availableReplicas : Int)).sum <
        (p.oldMSs.map fun ms => (ms.statusReplicas : Int)).sum :=
      List.sum_lt_sum _ _ (fun ms hms => by exact_mod_cast havailable ms hms)
        (by simpa using hlt)
    rw [int32_of_lt (by omega) hfits, int32_of_lt (by omega) (by omega)]
    omega
  · -- equal sums wrap equally, so some MachineSet counts fewer available replicas
    by_contra hnone
    simp only [not_exists, not_and, not_lt] at hnone
    apply hne
    congr 1
    exact congrArg List.sum (List.map_congr_left fun ms hms => by
      have := havailable ms hms
      have := hnone ms hms
      omega)

theorem any_scaling_iff :
    ((p.oldMSs ++ [p.newMS]).any fun ms =>
        ms.replicas != (ms.statusReplicas : Int) || (p.scaleIntents ms.name).isSome) = false ↔
      ∀ ms ∈ p.oldMSs ++ [p.newMS],
        ms.replicas = ms.statusReplicas ∧ p.scaleIntents ms.name = none := by
  simp only [List.any_eq_false, Bool.or_eq_true, bne_iff_ne, ne_eq, Option.isSome_iff_ne_none,
    not_or, not_not]

theorem reconcileDeadlockBreaker_of_not_deadlocked
    (havailable : ∀ ms ∈ p.oldMSs, ms.availableReplicas ≤ ms.statusReplicas)
    (hd : ¬ Deadlocked p) : reconcileDeadlockBreaker p = p := by
  unfold reconcileDeadlockBreaker
  dsimp only
  split_ifs with h₁ h₂ h₃ h₄
  · rfl
  · rfl
  · rfl
  · rfl
  · -- every guard passed, so the rollout is stuck
    exact absurd ⟨(oldUnavailable_iff havailable).2 h₂,
      any_scaling_iff.mp (Bool.eq_false_iff.mpr h₃), not_not.mp h₄⟩ hd

theorem reconcileDeadlockBreaker_of_deadlocked
    (havailable : ∀ ms ∈ p.oldMSs, ms.availableReplicas ≤ ms.statusReplicas)
    (hfits : (p.oldMSs.map fun ms => (ms.statusReplicas : Int)).sum < 2 ^ 31)
    (hd : Deadlocked p) :
    reconcileDeadlockBreaker p = match p.oldMSs.find? canBreakDeadlock with
      | none => p
      | some oldMS =>
        (p.addNote p.newMS
          "scaling down by 1 to unblock rollout stuck due to unavailable Machine on oldMS").setScaleIntent
            oldMS (max (int32 (oldMS.replicas - 1)) 0) := by
  have hany := any_scaling_iff.mpr hd.stable
  obtain ⟨h₁, h₂⟩ := (oldUnavailable_iff havailable).1 ⟨hd.oldUnavailable, hfits⟩
  unfold reconcileDeadlockBreaker
  dsimp only
  rw [if_neg h₁, if_neg h₂, if_neg (by simp [hany]), if_neg (by simpa using hd.newAvailable)]

theorem reconcileDeadlockBreaker_cases (p : rolloutPlanner) :
    reconcileDeadlockBreaker p = p ∨ ∃ oldMS replicas, reconcileDeadlockBreaker p =
      (p.addNote p.newMS
        "scaling down by 1 to unblock rollout stuck due to unavailable Machine on oldMS").setScaleIntent
          oldMS replicas := by
  unfold reconcileDeadlockBreaker
  dsimp only
  split_ifs
  · exact .inl rfl
  · exact .inl rfl
  · exact .inl rfl
  · exact .inl rfl
  · split
    · exact .inl rfl
    · exact .inr ⟨_, _, rfl⟩

@[simp] theorem reconcileDeadlockBreaker_md : (reconcileDeadlockBreaker p).md = p.md := by
  rcases reconcileDeadlockBreaker_cases p with heq | ⟨_, _, heq⟩ <;> rw [heq]
  simp

@[simp] theorem reconcileDeadlockBreaker_newMS :
    (reconcileDeadlockBreaker p).newMS = p.newMS := by
  rcases reconcileDeadlockBreaker_cases p with heq | ⟨_, _, heq⟩ <;> rw [heq]
  simp

theorem mem_addNote_notes (ms : MachineSet) (msg : String) : msg ∈ (p.addNote ms msg).notes ms.name := by
  unfold rolloutPlanner.addNote
  split_ifs with h
  · exact h
  · simp

theorem reconcileDeadlockBreaker_first (hd : Deadlocked p)
    (havailable : ∀ ms ∈ p.oldMSs, ms.availableReplicas ≤ ms.statusReplicas)
    (hfits : (p.oldMSs.map fun ms => (ms.statusReplicas : Int)).sum < 2 ^ 31) :
    ∃ (pre : List MachineSet) (oldMS : MachineSet) (post : List MachineSet),
      p.oldMSs = pre ++ oldMS :: post ∧
      (∀ ms ∈ pre, ms.availableReplicas = ms.statusReplicas) ∧
      oldMS.availableReplicas < oldMS.statusReplicas ∧ 0 < oldMS.replicas ∧
      reconcileDeadlockBreaker p =
        (p.addNote p.newMS
          "scaling down by 1 to unblock rollout stuck due to unavailable Machine on oldMS").setScaleIntent
            oldMS (oldMS.replicas - 1) := by
  obtain ⟨oldMS, hmem, hlt⟩ := hd.oldUnavailable
  have hcan : canBreakDeadlock oldMS = true := by
    have hspec := (hd.stable oldMS (List.mem_append_left _ hmem)).1
    simp only [canBreakDeadlock, Bool.not_eq_true', Bool.or_eq_false_iff, beq_eq_false_iff_ne,
      ne_eq]
    omega
  cases hfind : p.oldMSs.find? canBreakDeadlock with
  | none => exact absurd hcan (by simpa using List.find?_eq_none.mp hfind oldMS hmem)
  | some first =>
    obtain ⟨hfirst, pre, post, hsplit, hpre⟩ := List.find?_eq_some_iff_append.mp hfind
    have hfirst_mem : first ∈ p.oldMSs := hsplit ▸ List.mem_append_right pre List.mem_cons_self
    have hspec := (hd.stable first (List.mem_append_left _ hfirst_mem)).1
    have hle := havailable first hfirst_mem
    -- its replicas are part of the sum, so `replicas - 1` does not wrap
    have hsmall : (first.statusReplicas : Int) < 2 ^ 31 := by
      have := List.single_le_sum (fun d hd => by
          obtain ⟨ms, -, rfl⟩ := List.mem_map.mp hd
          exact Int.natCast_nonneg _) _
        (List.mem_map_of_mem (f := fun ms : MachineSet => (ms.statusReplicas : Int)) hfirst_mem)
      omega
    simp only [canBreakDeadlock, Bool.not_eq_true', Bool.or_eq_false_iff, beq_eq_false_iff_ne,
      ne_eq] at hfirst
    refine ⟨pre, first, post, hsplit, fun ms hms => ?_, by omega, by omega, ?_⟩
    · -- a skipped MachineSet with no replicas has none unavailable either
      have hms_mem : ms ∈ p.oldMSs := hsplit ▸ List.mem_append_left _ hms
      have hspec' := (hd.stable ms (List.mem_append_left _ hms_mem)).1
      have hskip := hpre ms hms
      have hle' := havailable ms hms_mem
      simp only [canBreakDeadlock, Bool.not_not, Bool.or_eq_true, beq_iff_eq] at hskip
      omega
    · rw [reconcileDeadlockBreaker_of_deadlocked havailable hfits hd, hfind]
      dsimp only
      rw [int32_of_lt (by omega) (by omega), max_eq_left (by omega)]

/-- The deadlock breaker changes a scale intent exactly when the rollout is stuck, when the old
MachineSets' replicas add up to less than `2^31`; then it scales the first old MachineSet with an
unavailable replica down by one, and notes it on the new MachineSet. -/
theorem reconcileDeadlockBreaker_iff_deadlocked (p : rolloutPlanner)
    (havailable : ∀ ms ∈ p.oldMSs, ms.availableReplicas ≤ ms.statusReplicas)
    (hfits : (p.oldMSs.map fun ms => (ms.statusReplicas : Int)).sum < 2 ^ 31) :
    ((reconcileDeadlockBreaker p).scaleIntents ≠ p.scaleIntents ↔ Deadlocked p) ∧
    (Deadlocked p → ∃ (pre : List MachineSet) (oldMS : MachineSet) (post : List MachineSet),
      p.oldMSs = pre ++ oldMS :: post ∧
      (∀ ms ∈ pre, ms.availableReplicas = ms.statusReplicas) ∧
      oldMS.availableReplicas < oldMS.statusReplicas ∧
      (reconcileDeadlockBreaker p).scaleIntents =
        Function.update p.scaleIntents oldMS.name (some (oldMS.replicas - 1)) ∧
      "scaling down by 1 to unblock rollout stuck due to unavailable Machine on oldMS" ∈
        (reconcileDeadlockBreaker p).notes p.newMS.name) := by
  refine ⟨⟨fun hne => ?_, fun hd => ?_⟩, fun hd => ?_⟩
  · -- a planner the breaker leaves alone keeps its intents
    by_contra hd
    exact hne (by rw [reconcileDeadlockBreaker_of_not_deadlocked havailable hd])
  · -- the scaled MachineSet had no intent before
    obtain ⟨pre, oldMS, post, hsplit, -, -, -, heq⟩ :=
      reconcileDeadlockBreaker_first hd havailable hfits
    have hmem : oldMS ∈ p.oldMSs ++ [p.newMS] :=
      List.mem_append_left _ (hsplit ▸ List.mem_append_right pre List.mem_cons_self)
    intro hsame
    have hnone := (hd.stable oldMS hmem).2
    rw [← hsame, heq, rolloutPlanner.setScaleIntent_scaleIntents, Function.update_self] at hnone
    exact Option.some_ne_none _ hnone
  · obtain ⟨pre, oldMS, post, hsplit, hpre, hunavailable, -, heq⟩ :=
      reconcileDeadlockBreaker_first hd havailable hfits
    refine ⟨pre, oldMS, post, hsplit, hpre, hunavailable, ?_, ?_⟩
    · rw [heq, rolloutPlanner.setScaleIntent_scaleIntents, rolloutPlanner.addNote_scaleIntents]
    · rw [heq]
      exact mem_addNote_notes p.newMS _

/-! ### The phases before the breaker

Neither scaling step of the plan drops a scale intent or changes the MachineDeployment or the new
MachineSet; `reconcileOldMachineSetsRollingUpdate` may reorder the old MachineSets. -/

structure AddsIntents (p p' : rolloutPlanner) : Prop where
  md : p'.md = p.md
  newMS : p'.newMS = p.newMS
  intents : ∀ n, (p.scaleIntents n).isSome → (p'.scaleIntents n).isSome

theorem AddsIntents.refl (p : rolloutPlanner) : AddsIntents p p := ⟨rfl, rfl, fun _ h => h⟩

theorem AddsIntents.trans {p₁ p₂ p₃ : rolloutPlanner} (h₁ : AddsIntents p₁ p₂)
    (h₂ : AddsIntents p₂ p₃) : AddsIntents p₁ p₃ :=
  ⟨h₂.md.trans h₁.md, h₂.newMS.trans h₁.newMS, fun n h => h₂.intents n (h₁.intents n h)⟩

theorem AddsIntents.none {p p' : rolloutPlanner} (h : AddsIntents p p') {n : String}
    (hnone : p'.scaleIntents n = none) : p.scaleIntents n = none := by
  by_contra hsome
  simpa [hnone] using h.intents n (Option.isSome_iff_ne_none.mpr hsome)

theorem AddsIntents.setScaleIntent (p : rolloutPlanner) (ms ms' : MachineSet) (msg : String)
    (replicas : Int) : AddsIntents p ((p.addNote ms msg).setScaleIntent ms' replicas) := by
  refine ⟨by simp, by simp, fun n h => ?_⟩
  by_cases hn : n = ms'.name
  · simp [hn]
  · simpa [Function.update_of_ne hn] using h

theorem AddsIntents.of_oldMSs (p : rolloutPlanner) (l : List MachineSet) :
    AddsIntents p { p with oldMSs := l } := ⟨rfl, rfl, fun _ h => h⟩

theorem scaleDownOldMSStep_planner (minAvailable : Int) (scaleDownOnlyUnavailableReplicas : Bool)
    (acc : ScaleDown) (x : MachineSet) :
    (scaleDownOldMSStep minAvailable scaleDownOnlyUnavailableReplicas acc x).planner = acc.planner ∨
      ∃ note replicas, (scaleDownOldMSStep minAvailable scaleDownOnlyUnavailableReplicas acc x).planner =
        (acc.planner.addNote x note).setScaleIntent x replicas := by
  unfold scaleDownOldMSStep
  by_cases hT : acc.totalScaleDownCount ≤ 0
  · rw [if_pos hT]
    exact .inl rfl
  rw [if_neg hT]
  by_cases hr : acc.planner.scaleIntentOf x ≤ 0
  · rw [if_pos hr]
    exact .inl rfl
  rw [if_neg hr]
  dsimp only
  generalize (if scaleDownOnlyUnavailableReplicas = true then
      max (int32 (acc.planner.scaleIntentOf x - x.availableReplicas)) 0
    else acc.planner.scaleIntentOf x) = maxScaleDown
  split
  · exact .inl rfl
  split
  · exact .inr ⟨_, _, rfl⟩
  · exact .inl rfl

theorem scaleDownOldMSs_adds (p : rolloutPlanner)
    (totalScaleDownCount totalAvailableReplicas minAvailable : Int)
    (scaleDownOnlyUnavailableReplicas : Bool) :
    AddsIntents p (scaleDownOldMSs p totalScaleDownCount totalAvailableReplicas minAvailable
        scaleDownOnlyUnavailableReplicas).planner ∧
      (scaleDownOldMSs p totalScaleDownCount totalAvailableReplicas minAvailable
        scaleDownOnlyUnavailableReplicas).planner.oldMSs = p.oldMSs := by
  unfold scaleDownOldMSs
  refine Trace.foldl_invariant
    (fun acc : ScaleDown => AddsIntents p acc.planner ∧ acc.planner.oldMSs = p.oldMSs)
    _ ⟨.refl p, rfl⟩ fun acc x _ ⟨hadds, hold⟩ => ?_
  rcases scaleDownOldMSStep_planner minAvailable scaleDownOnlyUnavailableReplicas acc x with
    heq | ⟨note, replicas, heq⟩ <;> rw [heq]
  · exact ⟨hadds, hold⟩
  · exact ⟨hadds.trans (.setScaleIntent _ _ _ _ _), by simpa using hold⟩

section Phases

variable (GetScaledValueFromIntOrPercent : Option IntOrString → Int → Bool → Except String Int)

theorem scaleDownOldMSs_twice_adds (p : rolloutPlanner) (T A minAvailable : Int) :
    let first := scaleDownOldMSs { p with oldMSs := MachineSetsByCreationTimestamp p.oldMSs } T A
      minAvailable true
    let second := scaleDownOldMSs first.planner first.totalScaleDownCount
      first.totalAvailableReplicas minAvailable false
    AddsIntents p second.planner ∧ second.planner.oldMSs = MachineSetsByCreationTimestamp p.oldMSs := by
  intro first second
  obtain ⟨hadds₁, hold₁⟩ := scaleDownOldMSs_adds { p with oldMSs := MachineSetsByCreationTimestamp p.oldMSs }
    T A minAvailable true
  obtain ⟨hadds₂, hold₂⟩ := scaleDownOldMSs_adds first.planner first.totalScaleDownCount
    first.totalAvailableReplicas minAvailable false
  exact ⟨(AddsIntents.of_oldMSs p _).trans (hadds₁.trans hadds₂), hold₂.trans hold₁⟩

theorem reconcileOldMachineSetsRollingUpdate_adds (p : rolloutPlanner) :
    AddsIntents p (reconcileOldMachineSetsRollingUpdate GetScaledValueFromIntOrPercent p) ∧
      (reconcileOldMachineSetsRollingUpdate GetScaledValueFromIntOrPercent p).oldMSs.Perm
        p.oldMSs := by
  unfold reconcileOldMachineSetsRollingUpdate
  dsimp only
  split_ifs
  · exact ⟨.refl p, .refl _⟩
  · exact ⟨.refl p, .refl _⟩
  · refine ⟨(scaleDownOldMSs_twice_adds p _ _ _).1, ?_⟩
    rw [(scaleDownOldMSs_twice_adds p _ _ _).2]
    exact MachineSetsByCreationTimestamp_perm p.oldMSs

theorem reconcileOldMachineSetsRollingUpdate_sorted {p : rolloutPlanner}
    (hcount : GetReplicaCountForMachineSets p.oldMSs ≠ 0)
    (hroom : 0 < int32 (((p.oldMSs ++ [p.newMS]).map (·.replicas)).sum -
      ((p.oldMSs ++ [p.newMS]).map (pendingScaleDown p.scaleIntents)).sum -
      max (int32 (p.md.replicas - MaxUnavailable GetScaledValueFromIntOrPercent p.md)) 0)) :
    (reconcileOldMachineSetsRollingUpdate GetScaledValueFromIntOrPercent p).oldMSs =
      MachineSetsByCreationTimestamp p.oldMSs := by
  unfold reconcileOldMachineSetsRollingUpdate
  dsimp only
  rw [GetReplicaCountForMachineSets_eq (p.oldMSs ++ [p.newMS]), foldl_int32_add_zero]
  -- Go subtracts in `int32` twice; the result wraps once
  have hwrap : ∀ a b c : Int, int32 (int32 (int32 a - int32 b) - c) = int32 (a - b - c) := by
    intro a b c
    unfold int32
    omega
  rw [hwrap, if_neg hcount, if_neg (by omega)]
  exact (scaleDownOldMSs_twice_adds p _ _ _).2

theorem reconcileNewMachineSet_adds {p r : rolloutPlanner}
    (h : reconcileNewMachineSet GetScaledValueFromIntOrPercent p = .ok r) :
    AddsIntents p r ∧ r.oldMSs = p.oldMSs := by
  unfold reconcileNewMachineSet at h
  split_ifs at h
  · cases h
    exact ⟨.refl p, rfl⟩
  · cases h
    exact ⟨.setScaleIntent _ _ _ _ _, by simp⟩
  · split at h
    · cases h
    · cases h
      split_ifs
      · exact ⟨(AddsIntents.setScaleIntent _ _ _ _ _).trans (.setScaleIntent _ _ _ _ _), by simp⟩
      · exact ⟨.setScaleIntent _ _ _ _ _, by simp⟩
      · exact ⟨.setScaleIntent _ _ _ _ _, by simp⟩
      · exact ⟨.refl p, rfl⟩

theorem reconcileNewMachineSet_no_intent {p r : rolloutPlanner} {maxSurge : Int}
    (hrolling : p.md.strategyType = .RollingUpdate)
    (hsurge : GetScaledValueFromIntOrPercent p.md.maxSurge p.md.replicas true = .ok maxSurge)
    (hsmall : 0 ≤ p.newMS.replicas ∧ -2 ^ 31 ≤ p.md.replicas + maxSurge ∧
      p.md.replicas + maxSurge < 2 ^ 31 ∧ p.md.replicas < 2 ^ 31 ∧
      machineCount (p.oldMSs ++ [p.newMS]) < 2 ^ 31)
    (h : reconcileNewMachineSet GetScaledValueFromIntOrPercent p = .ok r)
    (hnone : r.scaleIntents p.newMS.name = none) :
    r = p ∧ (p.newMS.replicas = p.md.replicas ∨ p.newMS.replicas < p.md.replicas ∧
      p.md.replicas + maxSurge ≤ machineCount (p.oldMSs ++ [p.newMS])) := by
  obtain ⟨hn0, hs0, hs1, hr, hcount⟩ := hsmall
  have hnonneg := machineCount_nonneg (p.oldMSs ++ [p.newMS])
  unfold reconcileNewMachineSet at h
  split_ifs at h with heq hgt
  · cases h
    exact ⟨rfl, .inl heq⟩
  · -- scaling the new MachineSet down sets its intent
    cases h
    simp at hnone
  simp only [NewMSNewReplicas, hrolling, hsurge, TotalMachineSetsReplicaSum_of_lt hcount,
    int32_add_int32_right, int32_of_lt hs0 hs1] at h
  split_ifs at h with hfull
  · -- no room under `maxSurge`: the new MachineSet keeps its replicas
    simp only [lt_self_iff_false, if_false, Except.ok.injEq] at h
    exact ⟨h.symm, .inr ⟨by omega, hfull⟩⟩
  · -- room under `maxSurge`: the new MachineSet scales up, which sets its intent
    simp (disch := omega) only [int32_of_lt] at h
    have hup : p.newMS.replicas < p.newMS.replicas +
        min (p.md.replicas + maxSurge - machineCount (p.oldMSs ++ [p.newMS]))
          (p.md.replicas - p.newMS.replicas) := by
      omega
    simp only [Except.ok.injEq] at h
    rw [if_neg (not_lt.mpr hup.le), if_pos hup] at h
    subst h
    simp at hnone

theorem MaxUnavailable_of_ok {md : MachineDeployment} {maxSurge maxUnavailable : Int}
    (hrolling : md.strategyType = .RollingUpdate)
    (hsurge : GetScaledValueFromIntOrPercent md.maxSurge md.replicas true = .ok maxSurge)
    (hsurge0 : 0 ≤ maxSurge ∧ maxSurge < 2 ^ 31)
    (hunavailable : GetScaledValueFromIntOrPercent md.maxUnavailable md.replicas false =
      .ok maxUnavailable)
    (hunavailable0 : 0 ≤ maxUnavailable ∧ maxUnavailable < 2 ^ 31) (hreplicas : 0 ≤ md.replicas) :
    0 ≤ MaxUnavailable GetScaledValueFromIntOrPercent md ∧
      MaxUnavailable GetScaledValueFromIntOrPercent md ≤ max maxUnavailable 1 ∧
      (0 < md.replicas → 0 < maxSurge + MaxUnavailable GetScaledValueFromIntOrPercent md) := by
  have hresolve : ResolveFenceposts GetScaledValueFromIntOrPercent md.maxSurge md.maxUnavailable
      md.replicas = .ok (maxSurge, if maxSurge = 0 ∧ maxUnavailable = 0 then 1 else maxUnavailable) := by
    unfold ResolveFenceposts
    simp only [hsurge, hunavailable, int32_of_lt (by omega) hsurge0.2]
    split_ifs <;> simp (disch := omega) only [int32_of_lt]
  unfold MaxUnavailable IsRollingUpdate
  simp only [hrolling, hresolve, decide_true, Bool.not_true, Bool.false_or, beq_iff_eq]
  split_ifs <;> omega

end Phases

def creationTimestampKey (ms : MachineSet) : Lex (ℕ × String) :=
  toLex (ms.creationTimestamp, ms.name)

theorem creationTimestampLess_eq (a b : MachineSet) :
    creationTimestampLess a b = decide (creationTimestampKey a < creationTimestampKey b) := by
  unfold creationTimestampLess creationTimestampKey
  split_ifs with h
  · simp [h, Prod.Lex.toLex_lt_toLex]
  · simp [h, Prod.Lex.toLex_lt_toLex]

theorem MachineSetsByCreationTimestamp_sorted (machineSets : List MachineSet) :
    (MachineSetsByCreationTimestamp machineSets).Pairwise
      fun a b => creationTimestampLess b a = false :=
  pairwise_insertionSort (StrictWeakOn.of_key creationTimestampKey creationTimestampLess_eq)

section Plan

variable (GetScaledValueFromIntOrPercent : Option IntOrString → Int → Bool → Except String Int)

/-- A rollout the breaker acts on had room to scale down: `reconcileNewMachineSet` set no intent,
and `reconcileOldMachineSetsRollingUpdate` sorted the old MachineSets oldest first. -/
theorem reconcileOldMachineSetsRollingUpdate_sorted_of_deadlocked (p r : rolloutPlanner)
    (maxSurge maxUnavailable : Int)
    (hrolling : p.md.strategyType = .RollingUpdate)
    (hsurge : GetScaledValueFromIntOrPercent p.md.maxSurge p.md.replicas true = .ok maxSurge)
    (hsurge0 : 0 ≤ maxSurge)
    (hunavailable : GetScaledValueFromIntOrPercent p.md.maxUnavailable p.md.replicas false =
      .ok maxUnavailable)
    (hunavailable0 : 0 ≤ maxUnavailable)
    (hsmall : replicaMass (p.oldMSs ++ [p.newMS]) + |p.md.replicas| + maxSurge + maxUnavailable <
      2 ^ 29)
    (hnew : reconcileNewMachineSet GetScaledValueFromIntOrPercent p = .ok r)
    (hd : Deadlocked (reconcileOldMachineSetsRollingUpdate GetScaledValueFromIntOrPercent r)) :
    r = p ∧ (reconcileOldMachineSetsRollingUpdate GetScaledValueFromIntOrPercent r).oldMSs =
      MachineSetsByCreationTimestamp p.oldMSs := by
  set q := reconcileOldMachineSetsRollingUpdate GetScaledValueFromIntOrPercent r with hq
  obtain ⟨haddsR, holdR⟩ := reconcileNewMachineSet_adds GetScaledValueFromIntOrPercent hnew
  obtain ⟨haddsQ, hpermQ⟩ := reconcileOldMachineSetsRollingUpdate_adds GetScaledValueFromIntOrPercent r
  have hperm : q.oldMSs.Perm p.oldMSs := holdR ▸ hpermQ
  have hstable : ∀ ms ∈ p.oldMSs ++ [p.newMS],
      ms.replicas = ms.statusReplicas ∧ q.scaleIntents ms.name = none := by
    intro ms hms
    apply hd.stable ms
    rw [haddsQ.newMS, haddsR.newMS]
    simpa [hperm.mem_iff] using hms
  have hmass := abs_sum_replicas_le_replicaMass (p.oldMSs ++ [p.newMS])
  have hmass0 := replicaMass_nonneg (p.oldMSs ++ [p.newMS])
  have hcount := machineCount_le_replicaMass (p.oldMSs ++ [p.newMS])
  have hstatus := sum_le_replicaMass (p.oldMSs ++ [p.newMS])
    (f := fun ms => (ms.statusReplicas : Int)) fun ms _ => by
      have := abs_nonneg ms.replicas
      omega
  have hr := abs_le.mp (le_refl |p.md.replicas|)
  have hnewMS : 0 ≤ p.newMS.replicas := by
    rw [(hstable p.newMS (by simp)).1]
    exact Int.natCast_nonneg _
  have hspecSum : ((p.oldMSs ++ [p.newMS]).map (·.replicas)).sum =
      (p.oldMSs.map fun ms => (ms.statusReplicas : Int)).sum + p.newMS.replicas := by
    rw [List.map_append, List.sum_append, List.map_congr_left fun ms hms =>
      (hstable ms (List.mem_append_left _ hms)).1]
    simp
  have hstatusSum : (p.oldMSs.map fun ms => (ms.statusReplicas : Int)).sum +
      p.newMS.statusReplicas = ((p.oldMSs ++ [p.newMS]).map
        fun ms => (ms.statusReplicas : Int)).sum := by
    simp
  have hmachine : machineCount (p.oldMSs ++ [p.newMS]) =
      ((p.oldMSs ++ [p.newMS]).map (·.replicas)).sum := by
    unfold machineCount
    rw [List.map_congr_left fun ms hms => max_eq_left (hstable ms hms).1.ge]
  obtain ⟨hrp, hcases⟩ := reconcileNewMachineSet_no_intent GetScaledValueFromIntOrPercent hrolling
    hsurge ⟨hnewMS, by omega, by omega, by omega, by omega⟩ hnew
    (haddsQ.none (hstable p.newMS (by simp)).2)
  subst r
  refine ⟨rfl, ?_⟩
  have hpending : ((p.oldMSs ++ [p.newMS]).map (pendingScaleDown p.scaleIntents)).sum = 0 := by
    apply List.sum_eq_zero
    intro d hdmem
    obtain ⟨ms, hms, rfl⟩ := List.mem_map.mp hdmem
    exact pendingScaleDown_of_le (haddsQ.none (hstable ms hms).2) (hstable ms hms).1.ge
  have hpos : 0 < (p.oldMSs.map fun ms => (ms.statusReplicas : Int)).sum := by
    obtain ⟨ms, hms, hlt⟩ := hd.oldUnavailable
    rw [← (hperm.map _).sum_eq]
    have := List.single_le_sum (fun d hd => by
        obtain ⟨ms, -, rfl⟩ := List.mem_map.mp hd
        exact Int.natCast_nonneg _) _
      (List.mem_map_of_mem (f := fun ms : MachineSet => (ms.statusReplicas : Int)) hms)
    omega
  obtain ⟨hmu0, hmule, hmu⟩ := MaxUnavailable_of_ok GetScaledValueFromIntOrPercent hrolling hsurge
    ⟨hsurge0, by omega⟩ hunavailable ⟨hunavailable0, by omega⟩ (by omega)
  have hcountOld : GetReplicaCountForMachineSets p.oldMSs ≠ 0 := by
    rw [GetReplicaCountForMachineSets_eq, List.map_congr_left fun ms hms =>
      (hstable ms (List.mem_append_left _ hms)).1, int32_of_lt (by omega) (by omega)]
    omega
  have hroom : 0 < int32 (((p.oldMSs ++ [p.newMS]).map (·.replicas)).sum -
      ((p.oldMSs ++ [p.newMS]).map (pendingScaleDown p.scaleIntents)).sum -
      max (int32 (p.md.replicas - MaxUnavailable GetScaledValueFromIntOrPercent p.md)) 0) := by
    rw [hpending]
    simp (disch := omega) only [int32_of_lt]
    rcases hcases with heq | ⟨hlt, hfull⟩
    · omega
    · have := hmu (by omega)
      omega
  exact reconcileOldMachineSetsRollingUpdate_sorted GetScaledValueFromIntOrPercent hcountOld hroom

/-- When the deadlock breaker acts in a rolling update plan, with `maxSurge` and `maxUnavailable`
resolved to non-negative values and replica counts too small for any `int32` sum to wrap, there
was room to scale down, so `reconcileOldMachineSetsRollingUpdate` had sorted the old
MachineSets: the breaker scales down the oldest old MachineSet with an unavailable replica, by
one, and that is all the plan decides. -/
theorem planRollingUpdate_unblocks_oldest (p r : rolloutPlanner) (maxSurge maxUnavailable : Int)
    (hrolling : p.md.strategyType = .RollingUpdate)
    (hsurge : GetScaledValueFromIntOrPercent p.md.maxSurge p.md.replicas true = .ok maxSurge)
    (hsurge0 : 0 ≤ maxSurge)
    (hunavailable : GetScaledValueFromIntOrPercent p.md.maxUnavailable p.md.replicas false =
      .ok maxUnavailable)
    (hunavailable0 : 0 ≤ maxUnavailable)
    (havailable : ∀ ms ∈ p.oldMSs, ms.availableReplicas ≤ ms.statusReplicas)
    (hsmall : replicaMass (p.oldMSs ++ [p.newMS]) + |p.md.replicas| + maxSurge + maxUnavailable <
      2 ^ 29)
    (hnew : reconcileNewMachineSet GetScaledValueFromIntOrPercent p = .ok r)
    (hbreaks : (reconcileDeadlockBreaker
        (reconcileOldMachineSetsRollingUpdate GetScaledValueFromIntOrPercent r)).scaleIntents ≠
      (reconcileOldMachineSetsRollingUpdate GetScaledValueFromIntOrPercent r).scaleIntents) :
    ∃ oldMS ∈ p.oldMSs, oldMS.availableReplicas < oldMS.statusReplicas ∧
      (∀ ms ∈ p.oldMSs, ms.availableReplicas < ms.statusReplicas →
        creationTimestampLess ms oldMS = false) ∧
      ∃ p', planRollingUpdate GetScaledValueFromIntOrPercent p = .ok p' ∧
        ∀ ms ∈ p.oldMSs ++ [p.newMS],
          p'.scaleIntentOf ms = if ms.name = oldMS.name then oldMS.replicas - 1 else ms.replicas := by
  set q := reconcileOldMachineSetsRollingUpdate GetScaledValueFromIntOrPercent r with hq
  obtain ⟨haddsR, holdR⟩ := reconcileNewMachineSet_adds GetScaledValueFromIntOrPercent hnew
  obtain ⟨haddsQ, hpermQ⟩ := reconcileOldMachineSetsRollingUpdate_adds GetScaledValueFromIntOrPercent r
  have hperm : q.oldMSs.Perm p.oldMSs := holdR ▸ hpermQ
  have havailableQ : ∀ ms ∈ q.oldMSs, ms.availableReplicas ≤ ms.statusReplicas :=
    fun ms hms => havailable ms (hperm.subset hms)
  have hd : Deadlocked q := by
    by_contra hd
    exact hbreaks (by rw [reconcileDeadlockBreaker_of_not_deadlocked havailableQ hd])
  have hintents : ∀ ms ∈ p.oldMSs ++ [p.newMS], q.scaleIntents ms.name = none := by
    intro ms hms
    refine (hd.stable ms ?_).2
    rw [haddsQ.newMS, haddsR.newMS]
    simpa [hperm.mem_iff] using hms
  have hfitsQ : (q.oldMSs.map fun ms => (ms.statusReplicas : Int)).sum < 2 ^ 31 := by
    have hstatus := sum_le_replicaMass (p.oldMSs ++ [p.newMS])
      (f := fun ms => (ms.statusReplicas : Int)) fun ms _ => by
        have := abs_nonneg ms.replicas
        omega
    have := abs_nonneg p.md.replicas
    have := Int.natCast_nonneg p.newMS.statusReplicas
    rw [(hperm.map _).sum_eq]
    simp only [List.map_append, List.sum_append, List.map_cons, List.map_nil, List.sum_cons,
      List.sum_nil] at hstatus
    omega
  obtain ⟨hrp, hsorted⟩ := reconcileOldMachineSetsRollingUpdate_sorted_of_deadlocked
    GetScaledValueFromIntOrPercent p r maxSurge maxUnavailable hrolling hsurge hsurge0 hunavailable
    hunavailable0 hsmall hnew hd
  subst r
  obtain ⟨pre, oldMS, post, hsplit, hpre, hunavailableMS, -, heq⟩ :=
    reconcileDeadlockBreaker_first hd havailableQ hfitsQ
  have hmem : ∀ {ms}, ms ∈ p.oldMSs → ms ∈ pre ++ oldMS :: post := fun hms =>
    hsplit ▸ hperm.symm.subset hms
  refine ⟨oldMS, hperm.subset (hsplit ▸ List.mem_append_right pre List.mem_cons_self),
    hunavailableMS, fun ms hms hms_unavailable => ?_, reconcileDeadlockBreaker q, ?_,
    fun ms hms => ?_⟩
  · -- an old MachineSet with an unavailable replica is not before it, so not older than it
    have hpairwise := MachineSetsByCreationTimestamp_sorted p.oldMSs
    rw [← hsorted, hsplit, List.pairwise_append] at hpairwise
    rcases List.mem_append.mp (hmem hms) with hms_pre | hms_rest
    · have := hpre ms hms_pre
      omega
    rcases List.mem_cons.mp hms_rest with rfl | hms_post
    · simp [creationTimestampLess_eq]
    · exact List.rel_of_pairwise_cons hpairwise.2.1 hms_post
  · unfold planRollingUpdate
    rw [hnew]
  · -- only the scaled MachineSet's intent is set
    rw [heq, rolloutPlanner.scaleIntentOf_setScaleIntent, rolloutPlanner.scaleIntentOf_addNote]
    split_ifs
    · rfl
    · simp [rolloutPlanner.scaleIntentOf, hintents ms hms]

end Plan

/-- The stuck rollout of the source's comment, with two old MachineSets listed newest first:
4 replicas with surge 1 and no unavailability, each old MachineSet at 2 replicas of which 1 is
available, and the new one at 1 available replica. -/
def stuckRollout : rolloutPlanner where
  md := ⟨4, .RollingUpdate, some (.int 1), some (.int 0)⟩
  newMS := ⟨"ms-new", 3, 1, 1, 1⟩
  oldMSs := [⟨"ms-b", 2, 2, 2, 1⟩, ⟨"ms-a", 1, 2, 2, 1⟩]
  scaleIntents _ := none
  notes _ := []

theorem reconcileDeadlockBreaker_iff_deadlocked_stuck :
    Deadlocked stuckRollout ∧
      (reconcileDeadlockBreaker stuckRollout).scaleIntents ≠ stuckRollout.scaleIntents :=
  have h := reconcileDeadlockBreaker_iff_deadlocked stuckRollout (by decide) (by decide)
  ⟨by decide, h.1.mpr (by decide)⟩

theorem planRollingUpdate_unblocks_oldest_stuck :
    ∃ oldMS ∈ stuckRollout.oldMSs, oldMS.availableReplicas < oldMS.statusReplicas ∧
      (∀ ms ∈ stuckRollout.oldMSs, ms.availableReplicas < ms.statusReplicas →
        creationTimestampLess ms oldMS = false) ∧
      ∃ p', planRollingUpdate scaledIntValue stuckRollout = .ok p' ∧
        ∀ ms ∈ stuckRollout.oldMSs ++ [stuckRollout.newMS],
          p'.scaleIntentOf ms = if ms.name = oldMS.name then oldMS.replicas - 1 else ms.replicas :=
  planRollingUpdate_unblocks_oldest scaledIntValue stuckRollout stuckRollout 1 0 rfl rfl (by decide)
    rfl (by decide) (by decide) (by decide) rfl fun h => absurd (congrFun h "ms-a") (by decide)

end ClusterApi.Rollout
