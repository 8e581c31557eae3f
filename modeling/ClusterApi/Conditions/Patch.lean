import ClusterApi.Lib.KeyedList

/-!
# The three-way merge of conditions

`NewPatch` and `Patch.Apply` of `util/conditions/patch.go`, with `setStatusCondition`
(`setter.go`) and the default order of `sort.go`. A patch is the list of operations turning the
`before` conditions into the `after` ones; applying it to the `latest` conditions keeps every
change made by another process that does not conflict with it. `meta.FindStatusCondition`,
`meta.SetStatusCondition` and `meta.RemoveStatusCondition` belong to k8s.io/apimachinery and are
the fields of `Meta`, with their documented behaviour in `Meta.Lawful`. A time is a count of
nanoseconds from the zero `time.Time`, so `IsZero` is `= 0`. `sort.SliceStable` is the stable
`List.mergeSort`.
-/

namespace ClusterApi.Conditions
open ClusterApi.Lib.KeyedList

structure Condition where
  type : String
  status : String
  observedGeneration : Int
  lastTransitionTime : Nat
  reason : String
  message : String
  deriving DecidableEq, Repr

/-- State is every field but `LastTransitionTime`. -/
def HasSameState (i j : Condition) : Prop :=
  i.type = j.type ∧ i.status = j.status ∧ i.observedGeneration = j.observedGeneration ∧
    i.reason = j.reason ∧ i.message = j.message

instance : DecidableRel HasSameState := fun _ _ => inferInstanceAs (Decidable (_ ∧ _))

structure Meta where
  findStatusCondition : List Condition → String → Option Condition
  setStatusCondition : List Condition → Condition → List Condition
  removeStatusCondition : List Condition → String → List Condition

/-- The documented behaviour of the apimachinery helpers: find the condition of a type; set
replaces the first condition of the new one's type, or appends, with every field of the new
condition but a last transition time it picks itself; remove drops the conditions of a type. -/
structure Meta.Lawful (M : Meta) : Prop where
  find : ∀ l t, M.findStatusCondition l t = findKey Condition.type l t
  set_replace : ∀ l c, findKey Condition.type l c.type ≠ none → ∃ time,
    M.setStatusCondition l c = replaceKey Condition.type l c.type { c with lastTransitionTime := time }
  set_append : ∀ l c, findKey Condition.type l c.type = none → ∃ time,
    M.setStatusCondition l c = l ++ [{ c with lastTransitionTime := time }]
  remove : ∀ l t, M.removeStatusCondition l t = eraseKey Condition.type l t

def Meta.sample : Meta where
  findStatusCondition := findKey Condition.type
  setStatusCondition l c :=
    match findKey Condition.type l c.type with
    | none => l ++ [c]
    | some existing => replaceKey Condition.type l c.type
      { c with lastTransitionTime := if existing.status ≠ c.status then c.lastTransitionTime
          else existing.lastTransitionTime }
  removeStatusCondition := eraseKey Condition.type

theorem Meta.sample_lawful : Meta.sample.Lawful where
  find _ _ := rfl
  set_replace l c h := by
    cases hfind : findKey Condition.type l c.type with
    | none => exact absurd hfind h
    | some existing =>
      exact ⟨if existing.status ≠ c.status then c.lastTransitionTime
        else existing.lastTransitionTime, by simp only [Meta.sample, hfind]⟩
  set_append l c h := ⟨c.lastTransitionTime, by simp only [Meta.sample, h]⟩
  remove _ _ := rfl

def truncateToSecond (t : Nat) : Nat := t - t % 1000000000

def setStatusCondition (M : Meta) (now : Nat) (conditions : List Condition)
    (condition : Condition) : List Condition :=
  let condition := if condition.lastTransitionTime = 0 then
      { condition with lastTransitionTime := now } else condition
  M.setStatusCondition conditions
    { condition with lastTransitionTime := truncateToSecond condition.lastTransitionTime }

inductive PatchOperation
  | add (after : Condition)
  | change (before after : Condition)
  | remove (before : Condition)
  deriving DecidableEq, Repr

abbrev Patch := List PatchOperation

inductive PatchError
  | beforeNil
  | afterNil
  | latestNil
  | addConflict (conditionType : String) (latest after : Condition)
  | changeDeleted (conditionType : String)
  | changeConflict (conditionType : String) (latest after : Condition)
  | removeConflict (conditionType : String) (latest before : Condition)
  deriving DecidableEq, Repr

def PatchError.message : PatchError → String
  | .beforeNil => "error creating patch: before object is nil"
  | .afterNil => "error creating patch: after object is nil"
  | .latestNil => "error patching conditions: latest object is nil"
  | .addConflict t _ _ => "error patching conditions: The condition " ++ t ++
    " was modified by a different process and this caused a merge/AddCondition conflict"
  | .changeDeleted t => "error patching conditions: The condition " ++ t ++
    " was deleted by a different process and this caused a merge/ChangeCondition conflict"
  | .changeConflict t _ _ => "error patching conditions: The condition " ++ t ++
    " was modified by a different process and this caused a merge/ChangeCondition conflict"
  | .removeConflict t _ _ => "error patching conditions: The condition " ++ t ++
    " was modified by a different process and this caused a merge/RemoveCondition conflict"

variable (M : Meta)

def addOrChangeOperation (beforeConditions : List Condition) (afterCondition : Condition) :
    Option PatchOperation :=
  match M.findStatusCondition beforeConditions afterCondition.type with
  | none => some (.add afterCondition)
  | some beforeCondition =>
    if afterCondition ≠ beforeCondition then some (.change beforeCondition afterCondition)
    else none

def removeOperation (afterConditions : List Condition) (beforeCondition : Condition) :
    Option PatchOperation :=
  match M.findStatusCondition afterConditions beforeCondition.type with
  | none => some (.remove beforeCondition)
  | some _ => none

def NewPatch (before after : Option (List Condition)) : Except PatchError Patch :=
  match before with
  | none => .error .beforeNil
  | some beforeConditions =>
    match after with
    | none => .error .afterNil
    | some afterConditions =>
      .ok (afterConditions.filterMap (addOrChangeOperation M beforeConditions) ++
        beforeConditions.filterMap (removeOperation M afterConditions))

structure PatchApplyOptions where
  ownedConditionTypes : List String
  forceOverwrite : Bool
  conditionSortFunc : Option (Condition → Condition → Bool)

abbrev PatchApplyOption := PatchApplyOptions → PatchApplyOptions

def PatchApplyOptions.isOwnedConditionType (o : PatchApplyOptions) (conditionType : String) :
    Bool :=
  conditionType ∈ o.ownedConditionTypes

/-- Available and Ready first, Paused and Deleting last; `""` stands for the readiness and
availability gates, and for every type not listed. -/
def order : List String :=
  ["Available", "Ready", "UpToDate", "RemoteConnectionProbe", "BootstrapConfigReady",
    "InfrastructureReady", "ControlPlaneInitialized", "ControlPlaneAvailable", "WorkersAvailable",
    "CertificatesAvailable", "Initialized", "EtcdClusterHealthy", "ControlPlaneComponentsHealthy",
    "NodeHealthy", "NodeReady", "EtcdPodHealthy", "EtcdMemberHealthy", "APIServerPodHealthy",
    "ControllerManagerPodHealthy", "SchedulerPodHealthy", "HealthCheckSucceeded",
    "OwnerRemediated", "TopologyReconciled", "Updating", "RollingOut", "Remediating",
    "ScalingDown", "ScalingUp", "MachinesReady", "ControlPlaneMachinesReady",
    "WorkerMachinesReady", "MachinesUpToDate", "ControlPlaneMachinesUpToDate",
    "WorkerMachinesUpToDate", "", "Paused", "Deleting"]

def orderMap : String → Option Nat :=
  order.zipIdx.foldl (fun m ci => Function.update m ci.1 (some ci.2)) fun _ => none

def sortIndex (c : Condition) : Nat :=
  match orderMap c.type with
  | some i => i
  | none => (orderMap "").getD 0

def defaultSortLessFunc (i j : Condition) : Bool :=
  decide (sortIndex i < sortIndex j ∨ (sortIndex i = sortIndex j ∧ i.type < j.type))

def defaultPatchApplyOptions : PatchApplyOptions := ⟨[], false, some defaultSortLessFunc⟩

def sortSliceStable (less : Condition → Condition → Bool) (l : List Condition) : List Condition :=
  l.mergeSort fun a b => !less b a

def applyOperation (now : Nat) (applyOpt : PatchApplyOptions) (latestConditions : List Condition) :
    PatchOperation → Except PatchError (List Condition)
  | .add after =>
    if applyOpt.forceOverwrite ∨ applyOpt.isOwnedConditionType after.type then
      .ok (setStatusCondition M now latestConditions after)
    else
      match M.findStatusCondition latestConditions after.type with
      | some latestCondition =>
        if ¬HasSameState latestCondition after then
          .error (.addConflict after.type latestCondition after)
        else .ok latestConditions
      | none => .ok (setStatusCondition M now latestConditions after)
  | .change before after =>
    if applyOpt.forceOverwrite ∨ applyOpt.isOwnedConditionType after.type then
      .ok (setStatusCondition M now latestConditions after)
    else
      match M.findStatusCondition latestConditions after.type with
      | none => .error (.changeDeleted after.type)
      | some latestCondition =>
        if latestCondition ≠ before then
          if ¬HasSameState latestCondition after then
            .error (.changeConflict after.type latestCondition after)
          else .ok latestConditions
        else .ok (setStatusCondition M now latestConditions after)
  | .remove before =>
    if latestConditions = [] then .ok latestConditions
    else if applyOpt.forceOverwrite ∨ applyOpt.isOwnedConditionType before.type then
      .ok (M.removeStatusCondition latestConditions before.type)
    else
      match M.findStatusCondition latestConditions before.type with
      | some latestCondition =>
        if ¬HasSameState latestCondition before then
          .error (.removeConflict before.type latestCondition before)
        else .ok (M.removeStatusCondition latestConditions before.type)
      | none => .ok (M.removeStatusCondition latestConditions before.type)

def applyOperations (now : Nat) (applyOpt : PatchApplyOptions) :
    List Condition → Patch → Except PatchError (List Condition)
  | latestConditions, [] => .ok latestConditions
  | latestConditions, conditionPatch :: rest =>
    match applyOperation M now applyOpt latestConditions conditionPatch with
    | .error e => .error e
    | .ok latestConditions => applyOperations now applyOpt latestConditions rest

/-- The conditions of `latest` after the merge; an empty patch returns before reading `latest`,
which keeps its conditions as they are. -/
def Patch.Apply (now : Nat) (p : Patch) (latest : Option (List Condition))
    (opts : List PatchApplyOption) : Except PatchError (Option (List Condition)) :=
  if p = [] then .ok latest
  else
    match latest with
    | none => .error .latestNil
    | some latestConditions =>
      let applyOpt := opts.foldl (fun o opt => opt o) defaultPatchApplyOptions
      match applyOperations M now applyOpt latestConditions p with
      | .error e => .error e
      | .ok latestConditions =>
        match applyOpt.conditionSortFunc with
        | none => .ok (some latestConditions)
        | some less => .ok (some (sortSliceStable less latestConditions))

/-! ## Setting and removing one condition -/

variable {M}

theorem setStatusCondition_eq (now : Nat) (l : List Condition) (c : Condition) :
    ∃ time, setStatusCondition M now l c =
      M.setStatusCondition l { c with lastTransitionTime := time } := by
  unfold setStatusCondition
  split_ifs <;> exact ⟨_, rfl⟩

theorem setStatusCondition_spec (hM : M.Lawful) (now : Nat) {l : List Condition}
    (hl : (l.map Condition.type).Nodup) (c : Condition) :
    ∃ c', HasSameState c' c ∧ ((setStatusCondition M now l c).map Condition.type).Nodup ∧
      ∀ t, findKey Condition.type (setStatusCondition M now l c) t =
        if t = c.type then some c' else findKey Condition.type l t := by
  obtain ⟨time, hset⟩ := setStatusCondition_eq now l c
  generalize hc₀ : { c with lastTransitionTime := time } = c₀ at hset
  have hsame : ∀ time', HasSameState { c₀ with lastTransitionTime := time' } c := by
    intro time'
    subst hc₀
    simp [HasSameState]
  have htype : c₀.type = c.type := by
    subst hc₀
    rfl
  rw [hset, ← htype]
  cases hfind : findKey Condition.type l c₀.type with
  | none =>
    -- a new type: `meta.SetStatusCondition` appends
    obtain ⟨time', happend⟩ := hM.set_append l c₀ hfind
    have hnew : findKey Condition.type l { c₀ with lastTransitionTime := time' }.type = none :=
      hfind
    refine ⟨_, hsame time', ?_, fun t => ?_⟩
    · rw [happend, List.map_append, List.nodup_append]
      refine ⟨hl, List.nodup_singleton _, ?_⟩
      intro a ha b hb
      rw [List.map_singleton, List.mem_singleton] at hb
      rintro rfl
      exact findKey_eq_none.mp hnew (hb ▸ ha)
    · rw [happend, findKey_append_singleton hnew]
  | some x =>
    -- a present type: the first condition of the type is overwritten in place
    obtain ⟨time', hreplace⟩ := hM.set_replace l c₀ (by simp [hfind])
    have hkey : { c₀ with lastTransitionTime := time' }.type = c₀.type := rfl
    refine ⟨_, hsame time', ?_, fun t => ?_⟩
    · rw [hreplace, map_key_replaceKey hkey]
      exact hl
    · rw [hreplace, findKey_replaceKey hkey, hfind]
      split_ifs <;> rfl

theorem removeStatusCondition_spec (hM : M.Lawful) {l : List Condition}
    (hl : (l.map Condition.type).Nodup) (t₀ : String) :
    ((M.removeStatusCondition l t₀).map Condition.type).Nodup ∧
      ∀ t, findKey Condition.type (M.removeStatusCondition l t₀) t =
        if t = t₀ then none else findKey Condition.type l t := by
  rw [hM.remove]
  exact ⟨nodup_map_eraseKey hl, fun _ => findKey_eraseKey⟩

/-! ## One operation -/

namespace PatchOperation

def conditionType : PatchOperation → String
  | .add after => after.type
  | .change _ after => after.type
  | .remove before => before.type

def Conflicts : PatchOperation → Option Condition → Prop
  | .add after, latest => ∃ l, latest = some l ∧ ¬HasSameState l after
  | .change before after, latest =>
    latest = none ∨ ∃ l, latest = some l ∧ l ≠ before ∧ ¬HasSameState l after
  | .remove before, latest => ∃ l, latest = some l ∧ ¬HasSameState l before

def Applied : PatchOperation → Option Condition → Prop
  | .add after, c => ∃ l, c = some l ∧ HasSameState l after
  | .change _ after, c => ∃ l, c = some l ∧ HasSameState l after
  | .remove _, c => c = none

end PatchOperation

/-- `merged` is `latest` with the operations of `p` applied, none of them in conflict. -/
structure Merged (p : Patch) (latest merged : List Condition) : Prop where
  no_conflict : ∀ op ∈ p, ¬op.Conflicts (findKey Condition.type latest op.conditionType)
  nodup : (merged.map Condition.type).Nodup
  applied : ∀ op ∈ p, op.Applied (findKey Condition.type merged op.conditionType)
  frame : ∀ t ∉ p.map PatchOperation.conditionType,
    findKey Condition.type merged t = findKey Condition.type latest t

section Merged

variable {l : List Condition} {op : PatchOperation}

theorem Merged.nil (hl : (l.map Condition.type).Nodup) : Merged [] l l :=
  ⟨by simp, hl, by simp, fun _ _ => rfl⟩

theorem Merged.cons {rest : Patch} {l₁ l₂ : List Condition} (h₁ : Merged [op] l l₁)
    (h₂ : Merged rest l₁ l₂) (hop : op.conditionType ∉ rest.map PatchOperation.conditionType) :
    Merged (op :: rest) l l₂ := by
  have hkeep : ∀ o ∈ rest, findKey Condition.type l₁ o.conditionType =
      findKey Condition.type l o.conditionType := by
    intro o ho
    apply h₁.frame
    intro hmem
    rw [List.map_singleton, List.mem_singleton] at hmem
    exact hop (hmem ▸ List.mem_map_of_mem ho)
  refine ⟨?_, h₂.nodup, ?_, ?_⟩
  · intro o ho
    rcases List.mem_cons.mp ho with rfl | ho
    · exact h₁.no_conflict o (List.mem_singleton_self o)
    · rw [← hkeep o ho]
      exact h₂.no_conflict o ho
  · intro o ho
    rcases List.mem_cons.mp ho with rfl | ho
    · rw [h₂.frame _ hop]
      exact h₁.applied o (List.mem_singleton_self o)
    · exact h₂.applied o ho
  · intro t ht
    simp only [List.map_cons, List.mem_cons, not_or] at ht
    rw [h₂.frame t ht.2, h₁.frame t (by simpa using ht.1)]

theorem Merged.keep (hl : (l.map Condition.type).Nodup)
    (hconflict : ¬op.Conflicts (findKey Condition.type l op.conditionType))
    (happlied : op.Applied (findKey Condition.type l op.conditionType)) : Merged [op] l l :=
  ⟨by simpa using hconflict, hl, by simpa using happlied, fun _ _ => rfl⟩

theorem Merged.set (hM : M.Lawful) (now : Nat) (hl : (l.map Condition.type).Nodup)
    {after : Condition} (htype : op.conditionType = after.type)
    (hconflict : ¬op.Conflicts (findKey Condition.type l op.conditionType))
    (happlied : ∀ c, HasSameState c after → op.Applied (some c)) :
    Merged [op] l (setStatusCondition M now l after) := by
  obtain ⟨c', hsame, hnodup, hfind⟩ := setStatusCondition_spec hM now hl after
  refine ⟨by simpa using hconflict, hnodup, ?_, ?_⟩
  · intro o ho
    rw [List.mem_singleton.mp ho, hfind, if_pos htype]
    exact happlied c' hsame
  · intro t ht
    have hne : t ≠ after.type := by simpa [htype] using ht
    rw [hfind, if_neg hne]

theorem Merged.remove (hM : M.Lawful) (hl : (l.map Condition.type).Nodup) {before : Condition}
    (hconflict : ¬(PatchOperation.remove before).Conflicts
      (findKey Condition.type l before.type)) :
    Merged [.remove before] l (M.removeStatusCondition l before.type) := by
  obtain ⟨hnodup, hfind⟩ := removeStatusCondition_spec hM hl before.type
  refine ⟨by simpa [PatchOperation.conditionType] using hconflict, hnodup, ?_, ?_⟩
  · simp [PatchOperation.Applied, PatchOperation.conditionType, hfind]
  · intro t ht
    have hne : t ≠ before.type := by simpa [PatchOperation.conditionType] using ht
    rw [hfind, if_neg hne]

end Merged

section Apply

/- With no owned types and no overwriting, every operation goes through the conflict checks. -/
variable (applyOpt : PatchApplyOptions) (hforce : applyOpt.forceOverwrite = false)
  (hown : applyOpt.ownedConditionTypes = [])
include hforce hown

theorem applyOperation_spec (hM : M.Lawful) (now : Nat) {l : List Condition}
    (hl : (l.map Condition.type).Nodup) (op : PatchOperation) :
    match applyOperation M now applyOpt l op with
    | .ok l' => Merged [op] l l'
    | .error _ => op.Conflicts (findKey Condition.type l op.conditionType) := by
  have hnotOwned : ∀ t, ¬(applyOpt.forceOverwrite = true ∨
      applyOpt.isOwnedConditionType t = true) := by
    simp [hforce, PatchApplyOptions.isOwnedConditionType, hown]
  cases op with
  | add after =>
    simp only [applyOperation, if_neg (hnotOwned after.type), hM.find]
    cases hlatest : findKey Condition.type l after.type with
    | none =>
      exact Merged.set hM now hl rfl (by simp [PatchOperation.Conflicts,
        PatchOperation.conditionType, hlatest]) fun c hc => ⟨c, rfl, hc⟩
    | some latestCondition =>
      by_cases hsame : HasSameState latestCondition after
      · simp only [hsame, not_true_eq_false, if_false]
        exact Merged.keep hl (by simp [PatchOperation.Conflicts, PatchOperation.conditionType,
          hlatest, hsame]) ⟨_, hlatest, hsame⟩
      · simp only [hsame, not_false_eq_true, if_true]
        exact ⟨_, hlatest, hsame⟩
  | change before after =>
    simp only [applyOperation, if_neg (hnotOwned after.type), hM.find]
    cases hlatest : findKey Condition.type l after.type with
    | none => exact Or.inl hlatest
    | some latestCondition =>
      by_cases hbefore : latestCondition = before
      · -- latest still has before's condition: after's value is set
        subst hbefore
        simp only [ne_eq, not_true_eq_false, if_false]
        exact Merged.set hM now hl rfl (by simp [PatchOperation.Conflicts,
          PatchOperation.conditionType, hlatest]) fun c hc => ⟨c, rfl, hc⟩
      · by_cases hsame : HasSameState latestCondition after
        · simp only [ne_eq, hbefore, hsame, not_false_eq_true, not_true_eq_false, if_true,
            if_false]
          exact Merged.keep hl (by simp [PatchOperation.Conflicts,
            PatchOperation.conditionType, hlatest, hsame]) ⟨_, hlatest, hsame⟩
        · simp only [ne_eq, hbefore, hsame, not_false_eq_true, if_true]
          exact Or.inr ⟨_, hlatest, hbefore, hsame⟩
  | remove before =>
    by_cases hempty : l = []
    · subst hempty
      simp only [applyOperation, if_true]
      exact Merged.keep hl (by simp [PatchOperation.Conflicts, findKey])
        (by simp [PatchOperation.Applied, findKey])
    · simp only [applyOperation, hempty, if_false, if_neg (hnotOwned before.type), hM.find]
      cases hlatest : findKey Condition.type l before.type with
      | none =>
        exact Merged.remove hM hl (by simp [PatchOperation.Conflicts, hlatest])
      | some latestCondition =>
        by_cases hsame : HasSameState latestCondition before
        · simp only [hsame, not_true_eq_false, if_false]
          exact Merged.remove hM hl (by simp [PatchOperation.Conflicts, hlatest, hsame])
        · simp only [hsame, not_false_eq_true, if_true]
          exact ⟨_, hlatest, hsame⟩

theorem applyOperations_spec (hM : M.Lawful) (now : Nat) :
    ∀ (p : Patch) {l : List Condition}, (l.map Condition.type).Nodup →
      (p.map PatchOperation.conditionType).Nodup →
      match applyOperations M now applyOpt l p with
      | .ok l' => Merged p l l'
      | .error _ => ∃ op ∈ p, op.Conflicts (findKey Condition.type l op.conditionType)
  | [], l, hl, _ => Merged.nil hl
  | op :: rest, l, hl, hp => by
    have hop := applyOperation_spec applyOpt hforce hown hM now hl op
    simp only [List.map_cons, List.nodup_cons] at hp
    simp only [applyOperations]
    cases happ : applyOperation M now applyOpt l op with
    | error e =>
      rw [happ] at hop
      exact ⟨op, List.mem_cons_self, hop⟩
    | ok l₁ =>
      rw [happ] at hop
      dsimp only
      have hrest := applyOperations_spec hM now rest hop.nodup hp.2
      cases hrun : applyOperations M now applyOpt l₁ rest with
      | error e =>
        rw [hrun] at hrest
        obtain ⟨o, ho, hconflict⟩ := hrest
        have hne : o.conditionType ∉ [op].map PatchOperation.conditionType := by
          rw [List.map_singleton, List.mem_singleton]
          intro htype
          exact hp.1 (htype ▸ List.mem_map_of_mem ho)
        rw [hop.frame _ hne] at hconflict
        exact ⟨o, List.mem_cons_of_mem _ ho, hconflict⟩
      | ok l₂ =>
        rw [hrun] at hrest
        exact hop.cons hrest hp.1

end Apply

/-! ## The operations of a patch -/

def PatchOperation.Expected (before after : List Condition) : PatchOperation → Prop
  | .add a => findKey Condition.type after a.type = some a ∧
    findKey Condition.type before a.type = none
  | .change b a => findKey Condition.type after a.type = some a ∧
    findKey Condition.type before a.type = some b ∧ a ≠ b
  | .remove b => findKey Condition.type before b.type = some b ∧
    findKey Condition.type after b.type = none

def Changed (before after : List Condition) (t : String) : Prop :=
  findKey Condition.type before t ≠ findKey Condition.type after t

def Incompatible (before after latest : List Condition) (t : String) : Prop :=
  match findKey Condition.type before t, findKey Condition.type after t,
    findKey Condition.type latest t with
  | none, some a, some l => ¬HasSameState l a
  | some b, some a, none => a ≠ b
  | some b, some a, some l => a ≠ b ∧ l ≠ b ∧ ¬HasSameState l a
  | some b, none, some l => ¬HasSameState l b
  | _, _, _ => False

def HasStateOf (after : List Condition) (t : String) (c : Option Condition) : Prop :=
  match findKey Condition.type after t, c with
  | some a, some c => HasSameState c a
  | none, none => True
  | _, _ => False

section Expected

variable {before after latest : List Condition} {op : PatchOperation} {t : String}

theorem PatchOperation.Expected.changed (he : op.Expected before after) :
    Changed before after op.conditionType := by
  cases op with
  | add a =>
    obtain ⟨hA, hB⟩ := he
    simp [Changed, PatchOperation.conditionType, hA, hB]
  | change b a =>
    obtain ⟨hA, hB, hne⟩ := he
    simp [Changed, PatchOperation.conditionType, hA, hB, Ne.symm hne]
  | remove b =>
    obtain ⟨hB, hA⟩ := he
    simp [Changed, PatchOperation.conditionType, hA, hB]

theorem PatchOperation.Expected.conflicts_iff (he : op.Expected before after) :
    op.Conflicts (findKey Condition.type latest op.conditionType) ↔
      Incompatible before after latest op.conditionType := by
  cases op with
  | add a =>
    obtain ⟨hA, hB⟩ := he
    cases hL : findKey Condition.type latest a.type <;>
      simp [PatchOperation.Conflicts, PatchOperation.conditionType, Incompatible, hA, hB, hL]
  | change b a =>
    obtain ⟨hA, hB, hne⟩ := he
    cases hL : findKey Condition.type latest a.type <;>
      simp [PatchOperation.Conflicts, PatchOperation.conditionType, Incompatible, hA, hB, hL, hne]
  | remove b =>
    obtain ⟨hB, hA⟩ := he
    cases hL : findKey Condition.type latest b.type <;>
      simp [PatchOperation.Conflicts, PatchOperation.conditionType, Incompatible, hA, hB, hL]

theorem PatchOperation.Expected.hasStateOf {c : Option Condition} (he : op.Expected before after)
    (happlied : op.Applied c) : HasStateOf after op.conditionType c := by
  cases op with
  | add a =>
    obtain ⟨l, rfl, hsame⟩ := happlied
    simpa [HasStateOf, PatchOperation.conditionType, he.1] using hsame
  | change b a =>
    obtain ⟨l, rfl, hsame⟩ := happlied
    simpa [HasStateOf, PatchOperation.conditionType, he.1] using hsame
  | remove b =>
    subst happlied
    simp [HasStateOf, PatchOperation.conditionType, he.2]

theorem Incompatible.changed (h : Incompatible before after latest t) : Changed before after t := by
  intro heq
  unfold Incompatible at h
  rw [heq] at h
  cases hA : findKey Condition.type after t <;> cases hL : findKey Condition.type latest t <;>
    simp [hA, hL] at h

theorem not_incompatible_self : ¬Incompatible before after before t := by
  unfold Incompatible
  cases hB : findKey Condition.type before t <;> cases hA : findKey Condition.type after t <;>
    simp [HasSameState]

theorem hasStateOf_of_not_changed (h : ¬Changed before after t) :
    HasStateOf after t (findKey Condition.type before t) := by
  rw [Changed, not_not] at h
  rw [h]
  unfold HasStateOf
  cases findKey Condition.type after t <;> simp [HasSameState]

end Expected

section NewPatch

variable {before after : List Condition} {p : Patch}

theorem addOrChangeOperation_expected (hM : M.Lawful) (ha : (after.map Condition.type).Nodup)
    {a : Condition} (hmem : a ∈ after) {op : PatchOperation}
    (h : addOrChangeOperation M before a = some op) :
    op.Expected before after ∧ op.conditionType = a.type := by
  have hA : findKey Condition.type after a.type = some a :=
    (findKey_eq_some_iff ha).mpr ⟨hmem, rfl⟩
  unfold addOrChangeOperation at h
  rw [hM.find] at h
  cases hB : findKey Condition.type before a.type with
  | none =>
    simp only [hB, Option.some.injEq] at h
    subst h
    exact ⟨⟨hA, hB⟩, rfl⟩
  | some b =>
    by_cases hne : a = b
    · subst hne
      simp [hB] at h
    · simp only [hB, ne_eq, hne, not_false_eq_true, if_true, Option.some.injEq] at h
      subst h
      exact ⟨⟨hA, hB, hne⟩, rfl⟩

theorem removeOperation_eq_some (hM : M.Lawful) {b : Condition} {op : PatchOperation}
    (h : removeOperation M after b = some op) :
    op = .remove b ∧ findKey Condition.type after b.type = none := by
  unfold removeOperation at h
  rw [hM.find] at h
  cases hA : findKey Condition.type after b.type with
  | none =>
    simp only [hA, Option.some.injEq] at h
    exact ⟨h.symm, rfl⟩
  | some a => simp [hA] at h

theorem removeOperation_expected (hM : M.Lawful) (hb : (before.map Condition.type).Nodup)
    {b : Condition} (hmem : b ∈ before) {op : PatchOperation}
    (h : removeOperation M after b = some op) :
    op.Expected before after ∧ op.conditionType = b.type := by
  obtain ⟨rfl, hA⟩ := removeOperation_eq_some hM h
  exact ⟨⟨(findKey_eq_some_iff hb).mpr ⟨hmem, rfl⟩, hA⟩, rfl⟩

section
variable (hM : M.Lawful) (hb : (before.map Condition.type).Nodup)
  (ha : (after.map Condition.type).Nodup) (h : NewPatch M (some before) (some after) = .ok p)
include hM hb ha h

theorem NewPatch_expected {op : PatchOperation} (hop : op ∈ p) : op.Expected before after := by
  simp only [NewPatch, Except.ok.injEq] at h
  subst h
  rcases List.mem_append.mp hop with hop | hop
  · obtain ⟨a, hmem, hop⟩ := List.mem_filterMap.mp hop
    exact (addOrChangeOperation_expected hM ha hmem hop).1
  · obtain ⟨b, hmem, hop⟩ := List.mem_filterMap.mp hop
    exact (removeOperation_expected hM hb hmem hop).1

theorem NewPatch_nodup_conditionType : (p.map PatchOperation.conditionType).Nodup := by
  simp only [NewPatch, Except.ok.injEq] at h
  subst h
  have hA := ha
  have hB := hb
  unfold List.Nodup at hA hB
  rw [List.pairwise_map] at hA hB
  rw [List.map_append, List.nodup_append]
  refine ⟨?_, ?_, ?_⟩
  · -- the adds and changes follow after's conditions, one per type
    unfold List.Nodup
    rw [List.pairwise_map, List.pairwise_filterMap]
    refine hA.imp_of_mem fun hx hy hne o ho o' ho' => ?_
    rw [(addOrChangeOperation_expected hM ha hx ho).2,
      (addOrChangeOperation_expected hM ha hy ho').2]
    exact hne
  · unfold List.Nodup
    rw [List.pairwise_map, List.pairwise_filterMap]
    refine hB.imp_of_mem fun hx hy hne o ho o' ho' => ?_
    rw [(removeOperation_expected hM hb hx ho).2, (removeOperation_expected hM hb hy ho').2]
    exact hne
  · -- a remove is for a type after lacks, an add or a change for one it has
    intro t ht t' ht'
    obtain ⟨o, ho, rfl⟩ := List.mem_map.mp ht
    obtain ⟨o', ho', rfl⟩ := List.mem_map.mp ht'
    intro heq
    obtain ⟨a, hmem, hop⟩ := List.mem_filterMap.mp ho
    obtain ⟨b, -, hop'⟩ := List.mem_filterMap.mp ho'
    obtain ⟨rfl, hnone⟩ := removeOperation_eq_some hM hop'
    rw [(addOrChangeOperation_expected hM ha hmem hop).2] at heq
    simp only [PatchOperation.conditionType] at heq
    have hA' : findKey Condition.type after a.type = some a :=
      (findKey_eq_some_iff ha).mpr ⟨hmem, rfl⟩
    rw [← heq, hA'] at hnone
    cases hnone

theorem NewPatch_exists_of_changed {t : String} (hchanged : Changed before after t) :
    ∃ op ∈ p, op.conditionType = t := by
  simp only [NewPatch, Except.ok.injEq] at h
  subst h
  cases hA : findKey Condition.type after t with
  | some a =>
    obtain ⟨hmem, rfl⟩ := (findKey_eq_some_iff ha).mp hA
    cases hB : findKey Condition.type before a.type with
    | none =>
      refine ⟨.add a, List.mem_append_left _ (List.mem_filterMap.mpr ⟨a, hmem, ?_⟩), rfl⟩
      simp [addOrChangeOperation, hM.find, hB]
    | some b =>
      have hne : a ≠ b := by
        rintro rfl
        exact hchanged (hB.trans hA.symm)
      refine ⟨.change b a, List.mem_append_left _ (List.mem_filterMap.mpr ⟨a, hmem, ?_⟩), rfl⟩
      simp [addOrChangeOperation, hM.find, hB, hne]
  | none =>
    cases hB : findKey Condition.type before t with
    | none => exact absurd (hB.trans hA.symm) hchanged
    | some b =>
      obtain ⟨hmem, rfl⟩ := (findKey_eq_some_iff hb).mp hB
      refine ⟨.remove b, List.mem_append_right _ (List.mem_filterMap.mpr ⟨b, hmem, ?_⟩), rfl⟩
      simp [removeOperation, hM.find, hA]

theorem NewPatch_eq_nil_iff : p = [] ↔ ∀ t, ¬Changed before after t := by
  constructor
  · rintro rfl t hchanged
    obtain ⟨op, hop, -⟩ := NewPatch_exists_of_changed hM hb ha h hchanged
    cases hop
  · intro hnone
    apply List.eq_nil_iff_forall_not_mem.mpr
    intro op hop
    exact hnone _ (NewPatch_expected hM hb ha h hop).changed
end

end NewPatch

/-! ## The default order -/

def sortKey (c : Condition) : Lex (Nat × String) := toLex (sortIndex c, c.type)

theorem defaultSortLessFunc_iff (i j : Condition) :
    defaultSortLessFunc i j = true ↔ sortKey i < sortKey j := by
  simp [defaultSortLessFunc, sortKey, Prod.Lex.toLex_lt_toLex]

theorem sortSliceStable_perm (less : Condition → Condition → Bool) (l : List Condition) :
    (sortSliceStable less l).Perm l :=
  List.mergeSort_perm _ _

theorem sortSliceStable_sorted {l : List Condition} (hl : (l.map Condition.type).Nodup) :
    (sortSliceStable defaultSortLessFunc l).Pairwise fun i j => defaultSortLessFunc i j = true := by
  have hsorted := pairwise_mergeSort_key sortKey defaultSortLessFunc_iff l
  have hdistinct : (sortSliceStable defaultSortLessFunc l).Pairwise fun i j => i.type ≠ j.type :=
    List.pairwise_map.mp
      (((sortSliceStable_perm defaultSortLessFunc l).map Condition.type).nodup_iff.mpr hl)
  refine (hsorted.and hdistinct).imp ?_
  rintro i j ⟨hle, hne⟩
  rw [defaultSortLessFunc_iff]
  refine lt_of_le_of_ne hle fun heq => hne ?_
  exact congrArg (fun k => (ofLex k).2) heq

/-! ## The three-way merge -/

section Merge

variable {before after latest : List Condition} {p : Patch} (now : Nat)

theorem Patch.Apply_of_ne_nil (hp : p ≠ []) :
    p.Apply M now (some latest) [] =
      match applyOperations M now defaultPatchApplyOptions latest p with
      | .error e => .error e
      | .ok l => .ok (some (sortSliceStable defaultSortLessFunc l)) := by
  rw [Patch.Apply, if_neg hp]
  rfl

variable (hM : M.Lawful) (hb : (before.map Condition.type).Nodup)
  (ha : (after.map Condition.type).Nodup) (hl : (latest.map Condition.type).Nodup)
  (h : NewPatch M (some before) (some after) = .ok p)
include hM hb ha hl h

theorem Patch.Apply_error_iff :
    (∃ e, p.Apply M now (some latest) [] = .error e) ↔ ∃ t, Incompatible before after latest t := by
  by_cases hp : p = []
  · -- an empty patch returns at once
    have hnone := (NewPatch_eq_nil_iff hM hb ha h).mp hp
    simp only [Patch.Apply, if_pos hp]
    refine iff_of_false (fun ⟨e, he⟩ => by cases he) ?_
    rintro ⟨t, ht⟩
    exact hnone t ht.changed
  · have hrun := applyOperations_spec defaultPatchApplyOptions rfl rfl hM now p hl
      (NewPatch_nodup_conditionType hM hb ha h)
    rw [Patch.Apply_of_ne_nil now hp]
    cases hres : applyOperations M now defaultPatchApplyOptions latest p with
    | error e =>
      rw [hres] at hrun
      obtain ⟨op, hop, hconflict⟩ := hrun
      exact iff_of_true ⟨e, rfl⟩
        ⟨op.conditionType, (NewPatch_expected hM hb ha h hop).conflicts_iff.mp hconflict⟩
    | ok l' =>
      rw [hres] at hrun
      refine iff_of_false (fun ⟨e, he⟩ => by cases he) ?_
      rintro ⟨t, ht⟩
      obtain ⟨op, hop, rfl⟩ := NewPatch_exists_of_changed hM hb ha h ht.changed
      exact hrun.no_conflict op hop ((NewPatch_expected hM hb ha h hop).conflicts_iff.mpr ht)

theorem Patch.Apply_ok {r : Option (List Condition)} (hr : p.Apply M now (some latest) [] = .ok r) :
    ∃ conditions, r = some conditions ∧ (conditions.map Condition.type).Nodup ∧
      (∀ t, Changed before after t → HasStateOf after t (findKey Condition.type conditions t)) ∧
      (∀ t, ¬Changed before after t →
        findKey Condition.type conditions t = findKey Condition.type latest t) ∧
      ((∃ t, Changed before after t) →
        conditions.Pairwise fun i j => defaultSortLessFunc i j = true) := by
  by_cases hp : p = []
  · have hnone := (NewPatch_eq_nil_iff hM hb ha h).mp hp
    simp only [Patch.Apply, if_pos hp, Except.ok.injEq] at hr
    subst hr
    exact ⟨latest, rfl, hl, fun t ht => absurd ht (hnone t), fun _ _ => rfl,
      fun ⟨t, ht⟩ => absurd ht (hnone t)⟩
  · have hrun := applyOperations_spec defaultPatchApplyOptions rfl rfl hM now p hl
      (NewPatch_nodup_conditionType hM hb ha h)
    rw [Patch.Apply_of_ne_nil now hp] at hr
    cases hres : applyOperations M now defaultPatchApplyOptions latest p with
    | error e =>
      rw [hres] at hr
      cases hr
    | ok l' =>
      rw [hres] at hrun hr
      simp only [Except.ok.injEq] at hr
      subst hr
      have hperm := sortSliceStable_perm defaultSortLessFunc l'
      have hfind : ∀ t, findKey Condition.type (sortSliceStable defaultSortLessFunc l') t =
          findKey Condition.type l' t := fun t => (findKey_perm hrun.nodup hperm.symm).symm
      refine ⟨_, rfl, (hperm.map _).nodup_iff.mpr hrun.nodup, fun t ht => ?_, fun t ht => ?_,
        fun _ => sortSliceStable_sorted hrun.nodup⟩
      · obtain ⟨op, hop, rfl⟩ := NewPatch_exists_of_changed hM hb ha h ht
        rw [hfind]
        exact (NewPatch_expected hM hb ha h hop).hasStateOf (hrun.applied op hop)
      · rw [hfind]
        apply hrun.frame
        intro hmem
        obtain ⟨op, hop, rfl⟩ := List.mem_map.mp hmem
        exact ht (NewPatch_expected hM hb ha h hop).changed

end Merge

/-- The three-way merge of conditions: the patch from before to after, applied to latest,
fails exactly at a type latest changed incompatibly; otherwise the result has unique types,
after's state at every changed type, latest's condition at every other type, and is in the
default order when some type changed; when none did, it is latest itself, in its own order.
Applied to before, it gives after's states. -/
theorem NewPatch_Apply_merge (hM : M.Lawful) (now : Nat) (before after latest : List Condition)
    (hb : (before.map Condition.type).Nodup) (ha : (after.map Condition.type).Nodup)
    (hl : (latest.map Condition.type).Nodup) :
    ∃ p, NewPatch M (some before) (some after) = .ok p ∧
      ((∃ e, p.Apply M now (some latest) [] = .error e) ↔
        ∃ t, Incompatible before after latest t) ∧
      (∀ r, p.Apply M now (some latest) [] = .ok r → ∃ conditions, r = some conditions ∧
        (conditions.map Condition.type).Nodup ∧
        (∀ t, Changed before after t → HasStateOf after t (findKey Condition.type conditions t)) ∧
        (∀ t, ¬Changed before after t →
          findKey Condition.type conditions t = findKey Condition.type latest t) ∧
        ((∃ t, Changed before after t) →
          conditions.Pairwise fun i j => defaultSortLessFunc i j = true)) ∧
      ((∀ t, ¬Changed before after t) → p.Apply M now (some latest) [] = .ok (some latest)) ∧
      ∃ conditions, p.Apply M now (some before) [] = .ok (some conditions) ∧
        ∀ t, HasStateOf after t (findKey Condition.type conditions t) := by
  obtain ⟨p, h⟩ : ∃ p, NewPatch M (some before) (some after) = .ok p := ⟨_, rfl⟩
  refine ⟨p, h, Patch.Apply_error_iff now hM hb ha hl h,
    fun r hr => Patch.Apply_ok now hM hb ha hl h hr, fun hnone => ?_, ?_⟩
  -- nothing changed: the patch is empty and `Apply` returns before it sorts
  · rw [(NewPatch_eq_nil_iff hM hb ha h).mpr hnone]
    rfl
  cases hr : p.Apply M now (some before) [] with
  | error e =>
    obtain ⟨t, ht⟩ := (Patch.Apply_error_iff now hM hb ha hb h).mp ⟨e, hr⟩
    exact absurd ht not_incompatible_self
  | ok r =>
    obtain ⟨conditions, rfl, -, hchanged, hkept, -⟩ := Patch.Apply_ok now hM hb ha hb h hr
    refine ⟨conditions, rfl, fun t => ?_⟩
    by_cases ht : Changed before after t
    · exact hchanged t ht
    · rw [hkept t ht]
      exact hasStateOf_of_not_changed ht

theorem NewPatch_Apply_merge_sample :
    Meta.sample.Lawful ∧ ([⟨"Ready", "False", 1, 0, "", ""⟩].map Condition.type).Nodup ∧
      ([⟨"Ready", "True", 1, 0, "", ""⟩].map Condition.type).Nodup ∧
      ([⟨"Paused", "False", 1, 0, "", ""⟩, ⟨"Ready", "False", 1, 0, "", ""⟩].map
        Condition.type).Nodup ∧
      ∃ p, NewPatch Meta.sample (some [⟨"Ready", "False", 1, 0, "", ""⟩])
          (some [⟨"Ready", "True", 1, 0, "", ""⟩]) = .ok p ∧
        ((∃ e, p.Apply Meta.sample 0 (some [⟨"Paused", "False", 1, 0, "", ""⟩,
            ⟨"Ready", "False", 1, 0, "", ""⟩]) [] = .error e) ↔
          ∃ t, Incompatible [⟨"Ready", "False", 1, 0, "", ""⟩] [⟨"Ready", "True", 1, 0, "", ""⟩]
            [⟨"Paused", "False", 1, 0, "", ""⟩, ⟨"Ready", "False", 1, 0, "", ""⟩] t) ∧
        (∀ r, p.Apply Meta.sample 0 (some [⟨"Paused", "False", 1, 0, "", ""⟩,
            ⟨"Ready", "False", 1, 0, "", ""⟩]) [] = .ok r →
          ∃ conditions, r = some conditions ∧ (conditions.map Condition.type).Nodup ∧
          (∀ t, Changed [⟨"Ready", "False", 1, 0, "", ""⟩] [⟨"Ready", "True", 1, 0, "", ""⟩] t →
            HasStateOf [⟨"Ready", "True", 1, 0, "", ""⟩] t
              (findKey Condition.type conditions t)) ∧
          (∀ t, ¬Changed [⟨"Ready", "False", 1, 0, "", ""⟩] [⟨"Ready", "True", 1, 0, "", ""⟩] t →
            findKey Condition.type conditions t = findKey Condition.type
              [⟨"Paused", "False", 1, 0, "", ""⟩, ⟨"Ready", "False", 1, 0, "", ""⟩] t) ∧
          ((∃ t, Changed [⟨"Ready", "False", 1, 0, "", ""⟩] [⟨"Ready", "True", 1, 0, "", ""⟩] t) →
            conditions.Pairwise fun i j => defaultSortLessFunc i j = true)) ∧
        ((∀ t, ¬Changed [⟨"Ready", "False", 1, 0, "", ""⟩] [⟨"Ready", "True", 1, 0, "", ""⟩] t) →
          p.Apply Meta.sample 0 (some [⟨"Paused", "False", 1, 0, "", ""⟩,
            ⟨"Ready", "False", 1, 0, "", ""⟩]) [] = .ok (some [⟨"Paused", "False", 1, 0, "", ""⟩,
            ⟨"Ready", "False", 1, 0, "", ""⟩])) ∧
        ∃ conditions, p.Apply Meta.sample 0 (some [⟨"Ready", "False", 1, 0, "", ""⟩]) [] =
            .ok (some conditions) ∧
          ∀ t, HasStateOf [⟨"Ready", "True", 1, 0, "", ""⟩] t
            (findKey Condition.type conditions t) :=
  ⟨Meta.sample_lawful, by decide, by decide, by decide,
    NewPatch_Apply_merge Meta.sample_lawful 0 _ _ _ (by decide) (by decide) (by decide)⟩

/-- An empty patch returns before sorting: latest keeps an order the default one does not
allow. -/
theorem NewPatch_Apply_empty_unsorted :
    NewPatch Meta.sample (some []) (some []) = .ok [] ∧
      Patch.Apply Meta.sample 0 []
          (some [⟨"Ready", "True", 1, 0, "", ""⟩, ⟨"Available", "True", 1, 0, "", ""⟩]) [] =
        .ok (some [⟨"Ready", "True", 1, 0, "", ""⟩, ⟨"Available", "True", 1, 0, "", ""⟩]) ∧
      ¬[(⟨"Ready", "True", 1, 0, "", ""⟩ : Condition), ⟨"Available", "True", 1, 0, "", ""⟩].Pairwise
        fun i j => defaultSortLessFunc i j = true :=
  ⟨rfl, rfl, by decide⟩

end ClusterApi.Conditions
