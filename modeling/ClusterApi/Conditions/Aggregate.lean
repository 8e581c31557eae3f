import ClusterApi.Conditions.Patch
import ClusterApi.Lib.GoStrings

/-!
# Aggregating one condition over many objects

`NewAggregateCondition` of `util/conditions/aggregate.go` and the default merge strategy of
`merge_strategies.go`. The conditions are split into issues, unknown and info by a priority
function; the status and reason follow the highest group, and the aggregate message names, for
each kind of object, up to three messages of that group with the objects reporting them, three
lines in all, and counts the objects of the other messages on `And` lines.

`aggregateMessageLines` builds the lines of the message as `MessageLine`s and `aggregateMessages`
prints them; a Go map is kept with its keys in the order they were first set (`addKey`), and
`flect.Pluralize` is the parameter `pluralize`.
-/

namespace ClusterApi.Conditions
open ClusterApi.Lib.KeyedList ClusterApi.Lib.GoStrings

structure ConditionOwnerInfo where
  kind : String
  name : String
  isControlPlaneMachine : Bool
  deriving DecidableEq, Repr

structure ConditionWithOwnerInfo where
  ownerResource : ConditionOwnerInfo
  condition : Condition
  deriving DecidableEq, Repr

inductive MergeOperation
  | Summary
  | Aggregate
  deriving DecidableEq, Repr

inductive MergePriority
  | Issue
  | Unknown
  | Info
  deriving DecidableEq, Repr

def MergePriority.toNat : MergePriority → Nat
  | .Issue => 0
  | .Unknown => 1
  | .Info => 2

def GetDefaultMergePriorityFunc (negativePolarityConditionTypes : List String)
    (condition : Condition) : MergePriority :=
  if condition.status = "True" then
    if condition.type ∈ negativePolarityConditionTypes then .Issue else .Info
  else if condition.status = "False" then
    if condition.type ∈ negativePolarityConditionTypes then .Info else .Issue
  -- `Unknown`, and any other status
  else .Unknown

def issuesReportedReason : String := "IssuesReported"

def unknownReportedReason : String := "UnknownReported"

def infoReportedReason : String := "InfoReported"

def GetDefaultComputeMergeReasonFunc (issueReason unknownReason infoReason : String)
    (issueConditions unknownConditions _infoConditions : List ConditionWithOwnerInfo) : String :=
  if 0 < issueConditions.length then issueReason
  else if 0 < unknownConditions.length then unknownReason
  else infoReason

structure defaultMergeStrategy where
  getPriorityFunc : Condition → MergePriority
  targetConditionHasPositivePolarity : Bool
  computeReasonFunc :
    List ConditionWithOwnerInfo → List ConditionWithOwnerInfo → List ConditionWithOwnerInfo → String
  summaryMessageTransformFunc : Option (List String → List String)

/-- `DefaultMergeStrategy` with the `TargetConditionHasPositivePolarity` and `GetPriorityFunc`
options. -/
def DefaultMergeStrategy (targetConditionHasPositivePolarity : Bool)
    (getPriorityFunc : Condition → MergePriority) : defaultMergeStrategy where
  getPriorityFunc := getPriorityFunc
  targetConditionHasPositivePolarity := targetConditionHasPositivePolarity
  computeReasonFunc :=
    GetDefaultComputeMergeReasonFunc issuesReportedReason unknownReportedReason infoReportedReason
  summaryMessageTransformFunc := none

def sliceStable {α : Type} (l : List α) (less : α → α → Bool) : List α :=
  l.mergeSort fun a b => !less b a

/-- `conditionOrder`: the index of a type in the list, the last one for a type listed twice,
and `0` for a type not listed. -/
def conditionOrderOf (orderedConditionTypes : List String) : String → Nat :=
  orderedConditionTypes.zipIdx.foldl
    (fun conditionOrder (conditionType, i) => Function.update conditionOrder conditionType i)
    fun _ => 0

def sortConditions (conditions : List ConditionWithOwnerInfo)
    (orderedConditionTypes : List String) : List ConditionWithOwnerInfo :=
  let conditionOrder := conditionOrderOf orderedConditionTypes
  sliceStable conditions fun i j =>
    conditionOrder i.condition.type < conditionOrder j.condition.type ||
      (conditionOrder i.condition.type == conditionOrder j.condition.type &&
        i.condition.lastTransitionTime < j.condition.lastTransitionTime)

def splitConditionsByPriority (conditions : List ConditionWithOwnerInfo)
    (getPriority : Condition → MergePriority) :
    List ConditionWithOwnerInfo × List ConditionWithOwnerInfo × List ConditionWithOwnerInfo :=
  (conditions.filter fun c => getPriority c.condition = .Issue,
    conditions.filter fun c => getPriority c.condition = .Unknown,
    conditions.filter fun c => getPriority c.condition = .Info)

def isSpace (c : Char) : Bool :=
  c = ' ' || c = '\t' || c = '\n' || c = Char.ofNat 12 || c = '\r'

/-- `re.MatchString` for `re = \s*\*\s+`: a `*` followed by a space somewhere. -/
def matchesBullet (s : String) : Bool :=
  (s.toList.zip s.toList.tail).any fun (a, b) => a = '*' && isSpace b

def indentIfMultiline (m : String) : String :=
  if Contains m '\n' || matchesBullet m then
    let lines := Split m '\n'
    let indent := "  "
    let hasLinesWithoutBullet := lines.any fun l => !matchesBullet l
    "\n" ++ "\n".intercalate (lines.map fun l =>
      (if hasLinesWithoutBullet then
        if !matchesBullet l then indent ++ "* " else indent ++ "  "
      else indent) ++ l)
  else " " ++ m

def summaryMessage (conditions : List ConditionWithOwnerInfo) (d : defaultMergeStrategy)
    (status : String) : String :=
  let messages := conditions.filterMap fun condition =>
    -- info messages go only when nothing worse is surfaced, and never empty
    if d.getPriorityFunc condition.condition = .Info ∧
        (status ≠ "True" ∨ condition.condition.message = "") then none
    else some ("* " ++ condition.condition.type ++ ":" ++
      if condition.condition.message ≠ "" then indentIfMultiline condition.condition.message
      else " " ++ condition.condition.reason)
  let messages := match d.summaryMessageTransformFunc with
    | some f => f messages
    | none => messages
  "\n".intercalate messages

/-! ## The aggregate message -/

structure MessageMaps where
  kinds : List String
  messages : String → List String
  messageObjMap : String → String → List String
  messagePriorityMap : String → Option MergePriority
  messageMustGoFirst : String → Bool
  cpMachines : String → Bool

def MessageMaps.empty : MessageMaps :=
  ⟨[], fun _ => [], fun _ _ => [], fun _ => none, fun _ => false, fun _ => false⟩

def mergedPriority (currentPriority : Option MergePriority) (newPriority : MergePriority) :
    MergePriority :=
  match currentPriority with
  | none => newPriority
  | some .Issue => .Issue
  | some .Unknown => if newPriority = .Issue then newPriority else .Unknown
  | some .Info => newPriority

def MessageMaps.add (getPriority : Condition → MergePriority) (s : MessageMaps)
    (condition : ConditionWithOwnerInfo) : MessageMaps :=
  let kind := condition.ownerResource.kind
  let name := condition.ownerResource.name
  let m := condition.condition.message
  let isControlPlaneMachine := condition.ownerResource.isControlPlaneMachine
  { kinds := addKey s.kinds kind
    messages := Function.update s.messages kind (addKey (s.messages kind) m)
    messageObjMap := Function.update s.messageObjMap kind
      (Function.update (s.messageObjMap kind) m (s.messageObjMap kind m ++ [name]))
    cpMachines :=
      if isControlPlaneMachine then Function.update s.cpMachines name true else s.cpMachines
    messagePriorityMap := Function.update s.messagePriorityMap m
      (some (mergedPriority (s.messagePriorityMap m) (getPriority condition.condition)))
    -- one control plane machine reporting the message is enough
    messageMustGoFirst :=
      if !s.messageMustGoFirst m && isControlPlaneMachine then
        Function.update s.messageMustGoFirst m true
      else s.messageMustGoFirst }

def messageMapsOf (conditions : List ConditionWithOwnerInfo) (dropEmpty : Bool)
    (getPriority : Condition → MergePriority) : MessageMaps :=
  conditions.foldl (fun s condition =>
    if dropEmpty && condition.condition.message = "" then s else s.add getPriority condition) .empty

/-- The priority of a message as `messagePriorityMap[m]` reads it: `Issue`, the zero value, for a
message not in the map. -/
def MessageMaps.priority (maps : MessageMaps) (m : String) : MergePriority :=
  (maps.messagePriorityMap m).getD .Issue

def sortMessage (i j : String) (messageMustGoFirst : String → Bool)
    (messagePriorityMap : String → Option MergePriority)
    (messageObjMapForKind : String → List String) : Bool :=
  let priority (m : String) := ((messagePriorityMap m).getD .Issue).toNat
  if messageMustGoFirst i && !messageMustGoFirst j then true
  else if !messageMustGoFirst i && messageMustGoFirst j then false
  else if priority i < priority j then true
  else if priority i > priority j then false
  else if (messageObjMapForKind i).length > (messageObjMapForKind j).length then true
  else if (messageObjMapForKind i).length < (messageObjMapForKind j).length then false
  else decide (",".intercalate (messageObjMapForKind i) < ",".intercalate (messageObjMapForKind j))

def sortObj (i j : String) (cpMachines : String → Bool) : Bool :=
  if cpMachines i && !cpMachines j then true
  else if !cpMachines i && cpMachines j then false
  else decide (i < j)

inductive MessageLine
  /-- `* <kind> <objects>: <message>`, for the objects reporting a message. -/
  | objects (kind kindPlural : String) (allObjects : List String) (message : String)
  /-- `And <count> <kind> <otherMessage>`, for the objects of messages past the budget. -/
  | others (kind kindPlural : String) (count : Nat) (otherMessage : String)
  deriving DecidableEq, Repr

def MessageLine.render : MessageLine → String
  | .objects kind kindPlural allObjects m =>
    -- no entry of the map has no objects, so the first branch is never taken
    (if allObjects.length = 0 then ""
    else if allObjects.length = 1 then "* " ++ kind ++ " " ++ ", ".intercalate allObjects ++ ":"
    else if allObjects.length ≤ 3 then
      "* " ++ kindPlural ++ " " ++ ", ".intercalate allObjects ++ ":"
    else "* " ++ kindPlural ++ " " ++ ", ".intercalate (allObjects.take 3) ++ ", ... (" ++
      toString (allObjects.length - 3) ++ " more):") ++ indentIfMultiline m
  | .others kind kindPlural other otherMessage =>
    if other = 1 then "And " ++ toString other ++ " " ++ kind ++ " " ++ otherMessage
    else "And " ++ toString other ++ " " ++ kindPlural ++ " " ++ otherMessage

def MessageLine.kind : MessageLine → String
  | .objects kind .. => kind
  | .others kind .. => kind

def MessageLine.count : MessageLine → Nat
  | .objects _ _ allObjects _ => allObjects.length
  | .others _ _ other _ => other

def MessageLine.message? : MessageLine → Option String
  | .objects _ _ _ m => some m
  | .others .. => none

structure KindLoop where
  n : Nat
  others : MergePriority → Option Nat
  lines : List MessageLine

def objectsLine (maps : MessageMaps) (kind kindPlural m : String) : MessageLine :=
  .objects kind kindPlural
    (sliceStable (maps.messageObjMap kind m) fun i j => sortObj i j maps.cpMachines) m

def KindLoop.step (maps : MessageMaps) (kind kindPlural : String) (st : KindLoop) (m : String) :
    KindLoop :=
  if st.n = 0 then
    let p := maps.priority m
    let other := (st.others p).getD 0 + (maps.messageObjMap kind m).length
    { st with others := Function.update st.others p (some other) }
  else { st with n := st.n - 1, lines := st.lines ++ [objectsLine maps kind kindPlural m] }

def otherLine (kind kindPlural : String) (others : MergePriority → Option Nat)
    (otherMessages : MergePriority → Option String) (p : MergePriority) : Option MessageLine :=
  match others p, otherMessages p with
  | some other, some otherMessage =>
    if other = 0 then none else some (.others kind kindPlural other otherMessage)
  | _, _ => none

def otherLines (kind kindPlural : String) (others : MergePriority → Option Nat)
    (otherMessages : MergePriority → Option String) : List MessageLine :=
  [MergePriority.Issue, .Unknown, .Info].filterMap (otherLine kind kindPlural others otherMessages)

def messageIndexOf (maps : MessageMaps) (kind : String) : List String :=
  sliceStable (maps.messages kind) fun i j =>
    sortMessage i j maps.messageMustGoFirst maps.messagePriorityMap (maps.messageObjMap kind)

def kindLines (maps : MessageMaps) (pluralize : String → String)
    (otherMessages : MergePriority → Option String) (n : Nat) (kind : String) :
    List MessageLine × Nat :=
  let kindPlural := pluralize kind
  let st := (messageIndexOf maps kind).foldl (KindLoop.step maps kind kindPlural)
    ⟨n, fun _ => none, []⟩
  (st.lines ++ otherLines kind kindPlural st.others otherMessages, st.n)

def addKindLines (maps : MessageMaps) (pluralize : String → String)
    (otherMessages : MergePriority → Option String) (acc : List MessageLine × Nat)
    (kind : String) : List MessageLine × Nat :=
  let linesAndBudget := kindLines maps pluralize otherMessages acc.2 kind
  (acc.1 ++ linesAndBudget.1, linesAndBudget.2)

def aggregateMessageLines (pluralize : String → String) (conditions : List ConditionWithOwnerInfo)
    (n : Nat) (dropEmpty : Bool) (getPriority : Condition → MergePriority)
    (otherMessages : MergePriority → Option String) : List MessageLine × Nat :=
  let maps := messageMapsOf conditions dropEmpty getPriority
  -- the kinds, in a stable order
  let kinds := sliceStable maps.kinds fun a b => decide (a < b)
  kinds.foldl (addKindLines maps pluralize otherMessages) ([], n)

/-- `aggregateMessages`, with the budget `n` it leaves. -/
def aggregateMessages (pluralize : String → String) (conditions : List ConditionWithOwnerInfo)
    (n : Nat) (dropEmpty : Bool) (getPriority : Condition → MergePriority)
    (otherMessages : MergePriority → Option String) : List String × Nat :=
  let (lines, n) := aggregateMessageLines pluralize conditions n dropEmpty getPriority otherMessages
  (lines.map MessageLine.render, n)

def issueOtherMessages : MergePriority → Option String
  | .Issue => some "with other issues"
  | .Unknown => some "with status unknown"
  | .Info => none

def infoOtherMessages : MergePriority → Option String
  | .Info => some "with additional info"
  | _ => none

def defaultMergeStrategy.Merge (d : defaultMergeStrategy) (pluralize : String → String)
    (operation : MergeOperation) (conditions : List ConditionWithOwnerInfo)
    (conditionTypes : List String) : Except String (String × String × String) :=
  if conditions.length = 0 then .error "can't merge an empty list of conditions" else
  let conditions := sortConditions conditions conditionTypes
  let (issueConditions, unknownConditions, infoConditions) :=
    splitConditionsByPriority conditions d.getPriorityFunc
  let status? : Option String :=
    if 0 < issueConditions.length then
      some (if d.targetConditionHasPositivePolarity then "False" else "True")
    else if 0 < unknownConditions.length then some "Unknown"
    else if 0 < infoConditions.length then
      some (if d.targetConditionHasPositivePolarity then "True" else "False")
    else none
  match status? with
  | none => .error "can't merge an empty list of conditions"
  | some status =>
    let reason := d.computeReasonFunc issueConditions unknownConditions infoConditions
    let message := match operation with
      | .Summary => summaryMessage conditions d status
      | .Aggregate =>
        let n := 3
        let (issueMessages, n) :=
          if 0 < issueConditions.length || 0 < unknownConditions.length then
            aggregateMessages pluralize (issueConditions ++ unknownConditions) n false
              d.getPriorityFunc issueOtherMessages
          else ([], n)
        -- info messages only when there are neither issues nor unknown conditions
        let infoMessages :=
          if issueConditions.length = 0 && unknownConditions.length = 0 &&
              0 < infoConditions.length then
            (aggregateMessages pluralize infoConditions n true d.getPriorityFunc
              infoOtherMessages).1
          else []
        "\n".intercalate (issueMessages ++ infoMessages)
    .ok (status, reason, message)

/-! ## `NewAggregateCondition` -/

structure SourceObject where
  kind : String
  name : String
  labels : List (String × String)
  conditions : List Condition
  deriving DecidableEq, Repr

def MachineControlPlaneLabel : String := "cluster.x-k8s.io/control-plane"

def NotYetReportedReason : String := "NotYetReported"

def getConditionOwnerInfo (obj : SourceObject) : ConditionOwnerInfo where
  kind := obj.kind
  name := obj.name
  isControlPlaneMachine :=
    obj.kind = "Machine" && (obj.labels.lookup MachineControlPlaneLabel).isSome

def getConditionsWithOwnerInfo (obj : SourceObject) : List ConditionWithOwnerInfo :=
  obj.conditions.map fun condition => ⟨getConditionOwnerInfo obj, condition⟩

structure AggregateOptions where
  targetConditionType : Option String := none
  negativePolarityConditionTypes : List String := []

def conditionInScope (sourceConditionType : String) (obj : SourceObject) :
    ConditionWithOwnerInfo :=
  match (getConditionsWithOwnerInfo obj).find? fun c => c.condition.type = sourceConditionType with
  | some condition => condition
  | none =>
    ⟨getConditionOwnerInfo obj,
      { type := sourceConditionType, status := "Unknown", observedGeneration := 0,
        lastTransitionTime := 0, reason := NotYetReportedReason,
        message := "Condition " ++ sourceConditionType ++ " not yet reported" }⟩

def NewAggregateCondition (pluralize : String → String) (sourceObjs : List SourceObject)
    (sourceConditionType : String) (aggregateOpt : AggregateOptions) : Except String Condition :=
  if sourceObjs.length = 0 then .error "sourceObjs can't be empty" else
  let targetConditionType := aggregateOpt.targetConditionType.getD sourceConditionType
  let negativePolarityConditionTypes := aggregateOpt.negativePolarityConditionTypes
  if negativePolarityConditionTypes.length ≠ 0 ∧
      (negativePolarityConditionTypes.head? ≠ some sourceConditionType ∨
        negativePolarityConditionTypes.length > 1) then
    .error ("negativePolarityConditionTypes can only be set to [" ++ quote sourceConditionType ++ "]")
  else
  let mergeStrategy := DefaultMergeStrategy
    (!decide (sourceConditionType ∈ negativePolarityConditionTypes))
    (GetDefaultMergePriorityFunc negativePolarityConditionTypes)
  let conditionsInScope := sourceObjs.map (conditionInScope sourceConditionType)
  match mergeStrategy.Merge pluralize .Aggregate conditionsInScope [sourceConditionType] with
  | .error e => .error e
  | .ok (status, reason, message) =>
    .ok { type := targetConditionType
          status := status
          observedGeneration := 0
          lastTransitionTime := 0
          reason := reason
          message := message }

/-! ## What the maps hold -/

section Maps

variable {getPriority : Condition → MergePriority}

structure MessageMaps.Spec (getPriority : Condition → MergePriority)
    (kept : List ConditionWithOwnerInfo) (maps : MessageMaps) : Prop where
  kinds_nodup : maps.kinds.Nodup
  mem_kinds : ∀ kind, kind ∈ maps.kinds ↔ ∃ c ∈ kept, c.ownerResource.kind = kind
  messages_nodup : ∀ kind, (maps.messages kind).Nodup
  mem_messages : ∀ kind m, m ∈ maps.messages kind ↔
    ∃ c ∈ kept, c.ownerResource.kind = kind ∧ c.condition.message = m
  messageObjMap_eq : ∀ kind m, maps.messageObjMap kind m =
    (kept.filter fun c => c.ownerResource.kind = kind ∧ c.condition.message = m).map
      (·.ownerResource.name)
  priority_of : ∀ m p, maps.messagePriorityMap m = some p →
    ∃ c ∈ kept, c.condition.message = m ∧ getPriority c.condition = p
  priority_ne_none : ∀ c ∈ kept, maps.messagePriorityMap c.condition.message ≠ none
  mustGoFirst_iff : ∀ m, maps.messageMustGoFirst m = true ↔
    ∃ c ∈ kept, c.condition.message = m ∧ c.ownerResource.isControlPlaneMachine = true

theorem MessageMaps.Spec.empty : MessageMaps.empty.Spec getPriority [] where
  kinds_nodup := List.nodup_nil
  mem_kinds _ := by simp [MessageMaps.empty]
  messages_nodup _ := List.nodup_nil
  mem_messages _ _ := by simp [MessageMaps.empty]
  messageObjMap_eq _ _ := rfl
  priority_of _ _ h := by cases h
  priority_ne_none _ h := by cases h
  mustGoFirst_iff _ := by simp [MessageMaps.empty]

theorem mergedPriority_cases (currentPriority : Option MergePriority)
    (newPriority : MergePriority) :
    mergedPriority currentPriority newPriority = newPriority ∨
      currentPriority = some (mergedPriority currentPriority newPriority) := by
  rcases currentPriority with _ | _ | _ | _
  · exact .inl rfl
  · exact .inr rfl
  · by_cases h : newPriority = .Issue
    · exact .inl (by simp [mergedPriority, h])
    · exact .inr (by simp [mergedPriority, h])
  · exact .inl rfl

variable {kept : List ConditionWithOwnerInfo} {s : MessageMaps} {c : ConditionWithOwnerInfo}

@[simp] theorem MessageMaps.add_kinds : (s.add getPriority c).kinds = addKey s.kinds c.ownerResource.kind :=
  rfl

theorem MessageMaps.add_messages (kind : String) :
    (s.add getPriority c).messages kind =
      if kind = c.ownerResource.kind then addKey (s.messages kind) c.condition.message
      else s.messages kind := by
  simp only [MessageMaps.add, Function.update_apply]
  split_ifs with hk
  · rw [hk]
  · rfl

theorem MessageMaps.add_messageObjMap (kind m : String) :
    (s.add getPriority c).messageObjMap kind m =
      if kind = c.ownerResource.kind ∧ m = c.condition.message then
        s.messageObjMap kind m ++ [c.ownerResource.name]
      else s.messageObjMap kind m := by
  simp only [MessageMaps.add, Function.update_apply]
  by_cases hk : kind = c.ownerResource.kind
  · by_cases hm : m = c.condition.message
    · subst hk hm
      simp
    · simp [hk, hm]
  · simp [hk]

theorem MessageMaps.add_messagePriorityMap (m : String) :
    (s.add getPriority c).messagePriorityMap m =
      if m = c.condition.message then
        some (mergedPriority (s.messagePriorityMap m) (getPriority c.condition))
      else s.messagePriorityMap m := by
  simp only [MessageMaps.add, Function.update_apply]
  split_ifs with hm
  · rw [hm]
  · rfl

theorem MessageMaps.add_messageMustGoFirst (m : String) :
    (s.add getPriority c).messageMustGoFirst m =
      (s.messageMustGoFirst m || decide (m = c.condition.message) &&
        c.ownerResource.isControlPlaneMachine) := by
  simp only [MessageMaps.add]
  by_cases hm : m = c.condition.message
  · subst hm
    cases hfirst : s.messageMustGoFirst c.condition.message <;>
      cases c.ownerResource.isControlPlaneMachine <;> simp [hfirst]
  · split_ifs <;> simp [hm]

theorem MessageMaps.Spec.add (hs : s.Spec getPriority kept) (c : ConditionWithOwnerInfo) :
    (s.add getPriority c).Spec getPriority (kept ++ [c]) where
  kinds_nodup := nodup_addKey hs.kinds_nodup
  mem_kinds kind := by
    simp only [MessageMaps.add_kinds, mem_addKey, hs.mem_kinds, List.mem_append,
      List.mem_singleton]
    grind
  messages_nodup kind := by
    rw [MessageMaps.add_messages]
    split_ifs with hk
    · exact nodup_addKey (hs.messages_nodup _)
    · exact hs.messages_nodup kind
  mem_messages kind m := by
    rw [MessageMaps.add_messages]
    split_ifs with hk
    · rw [mem_addKey, hs.mem_messages]
      grind
    · rw [hs.mem_messages]
      grind
  messageObjMap_eq kind m := by
    rw [MessageMaps.add_messageObjMap, hs.messageObjMap_eq, List.filter_append, List.map_append]
    split_ifs with h
    · simp [h]
    · have hc : ¬(c.ownerResource.kind = kind ∧ c.condition.message = m) :=
        fun ⟨hk, hm⟩ => h ⟨hk.symm, hm.symm⟩
      simp [hc]
  priority_of m p hp := by
    rw [MessageMaps.add_messagePriorityMap] at hp
    split_ifs at hp with hm
    · -- the message of `c`: its priority is `c`'s or the one kept before
      subst hm
      rcases mergedPriority_cases (s.messagePriorityMap c.condition.message)
        (getPriority c.condition) with h | h
      · exact ⟨c, by simp, rfl, by rw [← h]; exact Option.some.inj hp⟩
      · obtain ⟨c', hc', hm', hp'⟩ := hs.priority_of _ p (by rw [h, hp])
        exact ⟨c', List.mem_append_left _ hc', hm', hp'⟩
    · obtain ⟨c', hc', hm', hp'⟩ := hs.priority_of m p hp
      exact ⟨c', List.mem_append_left _ hc', hm', hp'⟩
  priority_ne_none c' hc' := by
    rw [MessageMaps.add_messagePriorityMap]
    split_ifs with hm
    · simp
    · rcases List.mem_append.mp hc' with hc' | hc'
      · exact hs.priority_ne_none c' hc'
      · exact absurd (congrArg (·.condition.message) (List.mem_singleton.mp hc')) hm
  mustGoFirst_iff m := by
    rw [MessageMaps.add_messageMustGoFirst, Bool.or_eq_true, hs.mustGoFirst_iff]
    simp only [List.mem_append, List.mem_singleton, Bool.and_eq_true, decide_eq_true_eq]
    grind

theorem MessageMaps.Spec.priority_mem (hs : s.Spec getPriority kept) {kind m : String}
    (hm : m ∈ s.messages kind) : ∃ c ∈ kept, getPriority c.condition = s.priority m := by
  obtain ⟨c, hc, -, rfl⟩ := (hs.mem_messages kind m).mp hm
  obtain ⟨p, hp⟩ := Option.ne_none_iff_exists'.mp (hs.priority_ne_none c hc)
  obtain ⟨c', hc', -, hp'⟩ := hs.priority_of _ p hp
  exact ⟨c', hc', by rw [hp', MessageMaps.priority, hp, Option.getD_some]⟩

def keptConditions (conditions : List ConditionWithOwnerInfo) (dropEmpty : Bool) :
    List ConditionWithOwnerInfo :=
  conditions.filter fun c => !(dropEmpty && c.condition.message = "")

theorem messageMapsOf_spec (conditions : List ConditionWithOwnerInfo) (dropEmpty : Bool) :
    (messageMapsOf conditions dropEmpty getPriority).Spec getPriority
      (keptConditions conditions dropEmpty) := by
  unfold messageMapsOf keptConditions
  -- the loop keeps the invariant over the conditions it has read, from any state
  suffices h : ∀ (before : List ConditionWithOwnerInfo) (s : MessageMaps),
      s.Spec getPriority (before.filter fun c => !(dropEmpty && c.condition.message = "")) →
      (conditions.foldl (fun s c =>
          if dropEmpty && c.condition.message = "" then s else s.add getPriority c) s).Spec
        getPriority ((before ++ conditions).filter fun c =>
          !(dropEmpty && c.condition.message = "")) from
    h [] _ MessageMaps.Spec.empty
  induction conditions with
  | nil =>
    intro before s hs
    simpa using hs
  | cons c rest ih =>
    intro before s hs
    rw [List.foldl_cons, ← List.singleton_append, ← List.append_assoc]
    apply ih
    rw [List.filter_append, List.filter_singleton]
    by_cases hdrop : (dropEmpty && c.condition.message = "") = true
    · rw [if_pos hdrop, hdrop, Bool.not_true, cond_false, List.append_nil]
      exact hs
    · rw [if_neg hdrop, Bool.eq_false_iff.mpr hdrop, Bool.not_false, cond_true]
      exact hs.add c

end Maps

/-! ## The loop over the messages of a kind -/

section KindLoop

variable {maps : MessageMaps} {kind kindPlural : String} {st : KindLoop} {m : String}

theorem KindLoop.step_of_eq_zero (hn : st.n = 0) :
    KindLoop.step maps kind kindPlural st m =
      { st with others := (Function.update st.others (maps.priority m)
          (some ((st.others (maps.priority m)).getD 0 + (maps.messageObjMap kind m).length))) } := by
  simp [KindLoop.step, hn]

theorem KindLoop.step_of_ne_zero (hn : st.n ≠ 0) :
    KindLoop.step maps kind kindPlural st m =
      { st with n := st.n - 1, lines := st.lines ++ [objectsLine maps kind kindPlural m] } := by
  simp [KindLoop.step, hn]

theorem KindLoop.foldl_n (l : List String) (st : KindLoop) :
    (l.foldl (KindLoop.step maps kind kindPlural) st).n = st.n - min st.n l.length := by
  induction l generalizing st with
  | nil => simp
  | cons m rest ih =>
    rw [List.foldl_cons, ih]
    by_cases hn : st.n = 0
    · simp [KindLoop.step_of_eq_zero hn, hn]
    · simp only [KindLoop.step_of_ne_zero hn, List.length_cons]
      omega

theorem KindLoop.foldl_lines (l : List String) (st : KindLoop) :
    (l.foldl (KindLoop.step maps kind kindPlural) st).lines =
      st.lines ++ (l.take st.n).map (objectsLine maps kind kindPlural) := by
  induction l generalizing st with
  | nil => simp
  | cons m rest ih =>
    rw [List.foldl_cons, ih]
    by_cases hn : st.n = 0
    · simp [KindLoop.step_of_eq_zero hn, hn]
    · obtain ⟨k, hk⟩ : ∃ k, st.n = k + 1 := ⟨st.n - 1, by omega⟩
      simp [KindLoop.step_of_ne_zero hn, hk]

theorem KindLoop.foldl_others (l : List String) (st : KindLoop) (p : MergePriority) :
    ((l.foldl (KindLoop.step maps kind kindPlural) st).others p).getD 0 =
      (st.others p).getD 0 + (((l.drop st.n).filter (maps.priority · = p)).map fun m =>
        (maps.messageObjMap kind m).length).sum := by
  induction l generalizing st with
  | nil => simp
  | cons m rest ih =>
    rw [List.foldl_cons, ih]
    by_cases hn : st.n = 0
    · rw [KindLoop.step_of_eq_zero hn]
      simp only [hn, List.drop_zero, List.filter_cons]
      by_cases hp : maps.priority m = p
      · subst hp
        simp
        omega
      · simp [Ne.symm hp, hp]
    · obtain ⟨k, hk⟩ : ∃ k, st.n = k + 1 := ⟨st.n - 1, by omega⟩
      simp [KindLoop.step_of_ne_zero hn, hk]

theorem sum_filter_priority (priority : String → MergePriority) (g : String → Nat)
    (l : List String) :
    ([MergePriority.Issue, .Unknown, .Info].map fun p =>
        ((l.filter (priority · = p)).map g).sum).sum = (l.map g).sum := by
  induction l with
  | nil => simp
  | cons m rest ih =>
    simp only [List.map_cons, List.map_nil, List.sum_cons, List.sum_nil] at ih ⊢
    cases hm : priority m <;> simp [hm] <;> omega

theorem otherLine_count (others : MergePriority → Option Nat)
    (otherMessages : MergePriority → Option String) (p : MergePriority)
    (h : (others p).getD 0 ≠ 0 → otherMessages p ≠ none) :
    ((otherLine kind kindPlural others otherMessages p).map MessageLine.count).getD 0 =
      (others p).getD 0 := by
  unfold otherLine
  cases hp : others p with
  | none => rfl
  | some other =>
    cases hm : otherMessages p with
    | none =>
      have : other = 0 := by simpa [hp, hm] using h
      simp [this]
    | some otherMessage =>
      by_cases h0 : other = 0
      · simp [h0]
      · simp [h0, MessageLine.count]

theorem otherLines_count (others : MergePriority → Option Nat)
    (otherMessages : MergePriority → Option String)
    (h : ∀ p, (others p).getD 0 ≠ 0 → otherMessages p ≠ none) :
    ((otherLines kind kindPlural others otherMessages).map MessageLine.count).sum =
      ([MergePriority.Issue, .Unknown, .Info].map fun p => (others p).getD 0).sum := by
  rw [otherLines, sum_map_filterMap]
  simp only [List.map_cons, List.map_nil, otherLine_count others otherMessages _ (h _)]

theorem mem_otherLines {others : MergePriority → Option Nat}
    {otherMessages : MergePriority → Option String} {line : MessageLine}
    (h : line ∈ otherLines kind kindPlural others otherMessages) :
    line.kind = kind ∧ line.message? = none := by
  obtain ⟨p, -, hp⟩ := List.mem_filterMap.mp h
  unfold otherLine at hp
  split at hp
  · split_ifs at hp
    cases hp
    exact ⟨rfl, rfl⟩
  · cases hp

end KindLoop

/-! ## The lines of a kind -/

section Kind

variable {maps : MessageMaps} {pluralize : String → String}
  {otherMessages : MergePriority → Option String} {kind : String}

@[simp] theorem objectsLine_kind (m : String) :
    (objectsLine maps kind (pluralize kind) m).kind = kind := rfl

@[simp] theorem objectsLine_message? (m : String) :
    (objectsLine maps kind (pluralize kind) m).message? = some m := rfl

theorem kindLines_eq (n : Nat) :
    kindLines maps pluralize otherMessages n kind =
      (((messageIndexOf maps kind).take n).map (objectsLine maps kind (pluralize kind)) ++
        otherLines kind (pluralize kind) ((messageIndexOf maps kind).foldl
          (KindLoop.step maps kind (pluralize kind)) ⟨n, fun _ => none, []⟩).others otherMessages,
        n - min n (messageIndexOf maps kind).length) := by
  simp only [kindLines, KindLoop.foldl_lines, KindLoop.foldl_n, List.nil_append]

theorem kindLines_snd (n : Nat) :
    (kindLines maps pluralize otherMessages n kind).2 = n - min n (messageIndexOf maps kind).length := by
  rw [kindLines_eq]

theorem otherLines_kindLines_count (n : Nat)
    (hlabels : ∀ m ∈ messageIndexOf maps kind, otherMessages (maps.priority m) ≠ none) :
    ((otherLines kind (pluralize kind) ((messageIndexOf maps kind).foldl
        (KindLoop.step maps kind (pluralize kind)) ⟨n, fun _ => none, []⟩).others
        otherMessages).map MessageLine.count).sum =
      (((messageIndexOf maps kind).drop n).map fun m => (maps.messageObjMap kind m).length).sum := by
  have hothers : ∀ p, (((messageIndexOf maps kind).foldl (KindLoop.step maps kind
      (pluralize kind)) ⟨n, fun _ => none, []⟩).others p).getD 0 =
        ((((messageIndexOf maps kind).drop n).filter (maps.priority · = p)).map
          fun m => (maps.messageObjMap kind m).length).sum := by
    intro p
    rw [KindLoop.foldl_others]
    simp
  rw [otherLines_count]
  · simp only [hothers]
    exact sum_filter_priority maps.priority _ _
  · -- a priority with objects past the budget is the priority of one of their messages
    intro p hp
    rw [hothers] at hp
    cases hf : ((messageIndexOf maps kind).drop n).filter (maps.priority · = p) with
    | nil => simp [hf] at hp
    | cons m _ =>
      have hm : m ∈ ((messageIndexOf maps kind).drop n).filter (maps.priority · = p) := by
        simp [hf]
      rw [List.mem_filter, decide_eq_true_eq] at hm
      rw [← hm.2]
      exact hlabels m (List.mem_of_mem_drop hm.1)

theorem kindLines_of_length_le {n : Nat} (h : (messageIndexOf maps kind).length ≤ n) :
    (kindLines maps pluralize otherMessages n kind).1 =
      (messageIndexOf maps kind).map (objectsLine maps kind (pluralize kind)) := by
  rw [kindLines_eq, List.take_of_length_le h]
  have hzero : ∀ p, (((messageIndexOf maps kind).foldl (KindLoop.step maps kind (pluralize kind))
      ⟨n, fun _ => none, []⟩).others p).getD 0 = 0 := by
    intro p
    rw [KindLoop.foldl_others, List.drop_of_length_le h]
    rfl
  have hnil : otherLines kind (pluralize kind) ((messageIndexOf maps kind).foldl
      (KindLoop.step maps kind (pluralize kind)) ⟨n, fun _ => none, []⟩).others otherMessages = [] := by
    apply List.filterMap_eq_nil_iff.mpr
    intro p _
    unfold otherLine
    split
    · rename_i other _ hp _
      have := hzero p
      rw [hp, Option.getD_some] at this
      rw [if_pos this]
    · rfl
  rw [hnil, List.append_nil]

theorem kindLines_kind (n : Nat) {line : MessageLine}
    (h : line ∈ (kindLines maps pluralize otherMessages n kind).1) : line.kind = kind := by
  rw [kindLines_eq] at h
  rcases List.mem_append.mp h with h | h
  · obtain ⟨m, -, rfl⟩ := List.mem_map.mp h
    rfl
  · exact (mem_otherLines h).1

theorem kindLines_messages (n : Nat) :
    (kindLines maps pluralize otherMessages n kind).1.filterMap MessageLine.message? =
      (messageIndexOf maps kind).take n := by
  rw [kindLines_eq, List.filterMap_append, List.filterMap_map]
  have hothers : (otherLines kind (pluralize kind) ((messageIndexOf maps kind).foldl
      (KindLoop.step maps kind (pluralize kind)) ⟨n, fun _ => none, []⟩).others
      otherMessages).filterMap MessageLine.message? = [] :=
    List.filterMap_eq_nil_iff.mpr fun _ h => (mem_otherLines h).2
  rw [hothers, List.append_nil]
  simp [Function.comp_def]

theorem kindLines_filter_others (n : Nat) :
    (kindLines maps pluralize otherMessages n kind).1.filter (·.message? = none) =
      otherLines kind (pluralize kind) ((messageIndexOf maps kind).foldl
        (KindLoop.step maps kind (pluralize kind)) ⟨n, fun _ => none, []⟩).others otherMessages := by
  rw [kindLines_eq, List.filter_append, List.filter_map]
  have hobjects : ((messageIndexOf maps kind).take n).filter
      ((fun line => decide (line.message? = none)) ∘ objectsLine maps kind (pluralize kind)) = [] :=
    List.filter_eq_nil_iff.mpr fun _ _ => by simp
  rw [hobjects, List.map_nil, List.nil_append]
  exact List.filter_eq_self.mpr fun _ h => by simp [(mem_otherLines h).2]

theorem render_objects {kindPlural m : String} {allObjects : List String} (h : allObjects ≠ []) :
    (MessageLine.objects kind kindPlural allObjects m).render =
      "* " ++ (if allObjects.length = 1 then kind else kindPlural) ++ " " ++
        ", ".intercalate (allObjects.take 3) ++
        (if 3 < allObjects.length then ", ... (" ++ toString (allObjects.length - 3) ++ " more):"
          else ":") ++ indentIfMultiline m := by
  have hpos : allObjects.length ≠ 0 := by simpa using h
  rw [MessageLine.render, if_neg hpos]
  by_cases h₁ : allObjects.length = 1
  · rw [if_pos h₁, if_pos h₁, if_neg (by omega), List.take_of_length_le (by omega)]
  rw [if_neg h₁, if_neg h₁]
  by_cases h₃ : allObjects.length ≤ 3
  · rw [if_pos h₃, if_neg (by omega), List.take_of_length_le h₃]
  · rw [if_neg h₃, if_pos (by omega)]
    simp only [String.append_assoc]

theorem render_others {kindPlural otherMessage : String} {count : Nat} :
    (MessageLine.others kind kindPlural count otherMessage).render =
      "And " ++ toString count ++ " " ++ (if count = 1 then kind else kindPlural) ++ " " ++
        otherMessage := by
  rw [MessageLine.render]
  split_ifs <;> rfl

end Kind

/-! ## The order of the messages -/

/-- The order `sortMessage` compares messages in: control plane first, then by priority, then
by more objects, then by the objects' names joined. -/
def messageKey (maps : MessageMaps) (kind m : String) : Lex (ℕ × Lex (ℕ × Lex (ℕᵒᵈ × String))) :=
  toLex (if maps.messageMustGoFirst m then 0 else 1, toLex ((maps.priority m).toNat,
    toLex (OrderDual.toDual (maps.messageObjMap kind m).length,
      ",".intercalate (maps.messageObjMap kind m))))

theorem sortMessage_iff (maps : MessageMaps) (kind i j : String) :
    sortMessage i j maps.messageMustGoFirst maps.messagePriorityMap (maps.messageObjMap kind) =
      true ↔ messageKey maps kind i < messageKey maps kind j := by
  unfold sortMessage messageKey MessageMaps.priority
  simp only [Prod.Lex.toLex_lt_toLex, OrderDual.toDual_lt_toDual]
  by_cases hs : ",".intercalate (maps.messageObjMap kind i) <
    ",".intercalate (maps.messageObjMap kind j)
  all_goals
    cases maps.messageMustGoFirst i <;> cases maps.messageMustGoFirst j <;> simp [hs] <;> omega
section Order

variable {maps : MessageMaps} {kind : String}

theorem messageIndexOf_perm : (messageIndexOf maps kind).Perm (maps.messages kind) :=
  List.mergeSort_perm _ _

theorem messageIndexOf_sorted :
    (messageIndexOf maps kind).Pairwise fun a b => messageKey maps kind a ≤ messageKey maps kind b :=
  pairwise_mergeSort_key _ (sortMessage_iff maps kind) _

theorem mustGoFirst_of_messageKey_le {a b : String}
    (h : messageKey maps kind a ≤ messageKey maps kind b) (hb : maps.messageMustGoFirst b = true) :
    maps.messageMustGoFirst a = true := by
  unfold messageKey at h
  rw [Prod.Lex.toLex_le_toLex, hb, if_pos rfl] at h
  by_contra ha
  rw [if_neg ha] at h
  rcases h with h | ⟨h, -⟩ <;> omega

theorem take_messageIndexOf_pairwise (n : Nat) :
    ((messageIndexOf maps kind).take n).Pairwise fun a b =>
      maps.messageMustGoFirst b = true → maps.messageMustGoFirst a = true :=
  (messageIndexOf_sorted.sublist (List.take_sublist _ _)).imp mustGoFirst_of_messageKey_le

theorem mem_take_messageIndexOf_of_mustGoFirst (n : Nat) {m m' : String}
    (hm : m ∈ (messageIndexOf maps kind).take n) (hfirst : maps.messageMustGoFirst m = false)
    (hm' : m' ∈ messageIndexOf maps kind) (hfirst' : maps.messageMustGoFirst m' = true) :
    m' ∈ (messageIndexOf maps kind).take n := by
  by_contra hnot
  have hsorted := @messageIndexOf_sorted maps kind
  rw [← List.take_append_drop n (messageIndexOf maps kind)] at hsorted hm'
  have hdrop : m' ∈ (messageIndexOf maps kind).drop n :=
    (List.mem_append.mp hm').resolve_left hnot
  have hle := (List.pairwise_append.mp hsorted).2.2 m hm m' hdrop
  rw [mustGoFirst_of_messageKey_le hle hfirst'] at hfirst
  cases hfirst

end Order

/-! ## The loop over the kinds -/

section Kinds

variable {maps : MessageMaps} {pluralize : String → String}
  {otherMessages : MergePriority → Option String}

theorem foldl_addKindLines_filter {ks : List String} (hks : ks.Nodup)
    (acc : List MessageLine × Nat) (kind : String) :
    ∃ n, (ks.foldl (addKindLines maps pluralize otherMessages) acc).1.filter (·.kind = kind) =
      acc.1.filter (·.kind = kind) ++
        if kind ∈ ks then (kindLines maps pluralize otherMessages n kind).1 else [] := by
  induction ks generalizing acc with
  | nil => exact ⟨0, by simp⟩
  | cons k rest ih =>
    rw [List.nodup_cons] at hks
    obtain ⟨n, hn⟩ := ih hks.2 (addKindLines maps pluralize otherMessages acc k)
    have hk : (kindLines maps pluralize otherMessages acc.2 k).1.filter (·.kind = kind) =
        if kind = k then (kindLines maps pluralize otherMessages acc.2 k).1 else [] := by
      split_ifs with hkind
      · exact List.filter_eq_self.mpr fun line h => by simp [kindLines_kind acc.2 h, hkind]
      · exact List.filter_eq_nil_iff.mpr fun line h => by
          simp [kindLines_kind acc.2 h, Ne.symm hkind]
    rw [List.foldl_cons, hn]
    simp only [addKindLines, List.filter_append, hk, List.mem_cons, List.append_assoc]
    by_cases hkind : kind = k
    · subst hkind
      exact ⟨acc.2, by simp [hks.1]⟩
    · exact ⟨n, by simp [hkind]⟩

theorem foldl_addKindLines_budget (ks : List String) (acc : List MessageLine × Nat) :
    ((ks.foldl (addKindLines maps pluralize otherMessages) acc).1.filterMap
        MessageLine.message?).length + (ks.foldl (addKindLines maps pluralize otherMessages) acc).2 =
      (acc.1.filterMap MessageLine.message?).length + acc.2 := by
  induction ks generalizing acc with
  | nil => rfl
  | cons k rest ih =>
    rw [List.foldl_cons, ih]
    simp only [addKindLines, List.filterMap_append, List.length_append, kindLines_messages,
      List.length_take, kindLines_snd]
    omega

end Kinds

/-! ## The aggregate lines -/

def ReportedByControlPlane (conditions : List ConditionWithOwnerInfo) (m : String) : Prop :=
  ∃ c ∈ conditions, c.condition.message = m ∧ c.ownerResource.isControlPlaneMachine = true

theorem ReportedByControlPlane_perm {l l' : List ConditionWithOwnerInfo} (h : l.Perm l')
    (m : String) : ReportedByControlPlane l m ↔ ReportedByControlPlane l' m := by
  simp only [ReportedByControlPlane, h.mem_iff]

section Aggregate

variable {pluralize : String → String} {conditions : List ConditionWithOwnerInfo}
  {dropEmpty : Bool} {getPriority : Condition → MergePriority}
  {otherMessages : MergePriority → Option String}

theorem aggregateMessageLines_filter_kind (n : Nat) (kind : String) :
    ∃ n', (aggregateMessageLines pluralize conditions n dropEmpty getPriority
        otherMessages).1.filter (·.kind = kind) =
      if kind ∈ (messageMapsOf conditions dropEmpty getPriority).kinds then
        (kindLines (messageMapsOf conditions dropEmpty getPriority) pluralize otherMessages n'
          kind).1
      else [] := by
  have hspec := @messageMapsOf_spec getPriority conditions dropEmpty
  have hperm : (sliceStable (messageMapsOf conditions dropEmpty getPriority).kinds
      fun a b => decide (a < b)).Perm (messageMapsOf conditions dropEmpty getPriority).kinds :=
    List.mergeSort_perm _ _
  obtain ⟨n', h⟩ := @foldl_addKindLines_filter (messageMapsOf conditions dropEmpty getPriority)
    pluralize otherMessages _ (hperm.nodup_iff.mpr hspec.kinds_nodup) ([], n) kind
  refine ⟨n', ?_⟩
  simp only [aggregateMessageLines, h, List.filter_nil, List.nil_append, hperm.mem_iff]

theorem aggregateMessageLines_objects (n : Nat) {kind kindPlural : String}
    {allObjects : List String} {m : String}
    (h : .objects kind kindPlural allObjects m ∈
      (aggregateMessageLines pluralize conditions n dropEmpty getPriority otherMessages).1) :
    allObjects.Perm (((keptConditions conditions dropEmpty).filter fun c =>
      c.ownerResource.kind = kind ∧ c.condition.message = m).map (·.ownerResource.name)) := by
  have hspec := @messageMapsOf_spec getPriority conditions dropEmpty
  obtain ⟨n', hkind⟩ := @aggregateMessageLines_filter_kind pluralize conditions
    dropEmpty getPriority otherMessages n kind
  have hmem : MessageLine.objects kind kindPlural allObjects m ∈
      (aggregateMessageLines pluralize conditions n dropEmpty getPriority otherMessages).1.filter
        (·.kind = kind) := List.mem_filter.mpr ⟨h, by simp [MessageLine.kind]⟩
  rw [hkind] at hmem
  split_ifs at hmem
  · rw [kindLines_eq] at hmem
    rcases List.mem_append.mp hmem with hline | hline
    · obtain ⟨m', -, hm'⟩ := List.mem_map.mp hline
      simp only [objectsLine, MessageLine.objects.injEq] at hm'
      obtain ⟨-, -, rfl, rfl⟩ := hm'
      rw [← hspec.messageObjMap_eq]
      exact List.mergeSort_perm _ _
    · cases (mem_otherLines hline).2
  · cases hmem

theorem aggregateMessageLines_objects_line (n : Nat) {kind kindPlural : String}
    {allObjects : List String} {m : String}
    (h : .objects kind kindPlural allObjects m ∈
      (aggregateMessageLines pluralize conditions n dropEmpty getPriority otherMessages).1) :
    kindPlural = pluralize kind ∧ ∃ c ∈ keptConditions conditions dropEmpty,
      c.ownerResource.kind = kind ∧ c.condition.message = m := by
  have hspec := @messageMapsOf_spec getPriority conditions dropEmpty
  obtain ⟨n', hkind⟩ := @aggregateMessageLines_filter_kind pluralize conditions
    dropEmpty getPriority otherMessages n kind
  have hmem : MessageLine.objects kind kindPlural allObjects m ∈
      (aggregateMessageLines pluralize conditions n dropEmpty getPriority otherMessages).1.filter
        (·.kind = kind) := List.mem_filter.mpr ⟨h, by simp [MessageLine.kind]⟩
  rw [hkind] at hmem
  split_ifs at hmem
  · rw [kindLines_eq] at hmem
    rcases List.mem_append.mp hmem with hline | hline
    · obtain ⟨m', hm', hline'⟩ := List.mem_map.mp hline
      simp only [objectsLine, MessageLine.objects.injEq] at hline'
      obtain ⟨-, rfl, -, rfl⟩ := hline'
      have hindex := messageIndexOf_perm.subset (List.mem_of_mem_take hm')
      exact ⟨rfl, (hspec.mem_messages kind m').mp hindex⟩
    · cases (mem_otherLines hline).2
  · cases hmem

theorem aggregateMessageLines_others_line (n : Nat) {kind kindPlural otherMessage : String}
    {count : Nat}
    (h : .others kind kindPlural count otherMessage ∈
      (aggregateMessageLines pluralize conditions n dropEmpty getPriority otherMessages).1) :
    kindPlural = pluralize kind ∧ 0 < count := by
  obtain ⟨n', hkind⟩ := @aggregateMessageLines_filter_kind pluralize conditions
    dropEmpty getPriority otherMessages n kind
  have hmem : MessageLine.others kind kindPlural count otherMessage ∈
      (aggregateMessageLines pluralize conditions n dropEmpty getPriority otherMessages).1.filter
        (·.kind = kind) := List.mem_filter.mpr ⟨h, by simp [MessageLine.kind]⟩
  rw [hkind] at hmem
  split_ifs at hmem
  · rw [kindLines_eq] at hmem
    rcases List.mem_append.mp hmem with hline | hline
    · obtain ⟨m', -, hline'⟩ := List.mem_map.mp hline
      cases hline'
    · -- `otherLine` gives a line only for a count that is not zero
      obtain ⟨p, -, hp⟩ := List.mem_filterMap.mp hline
      unfold otherLine at hp
      split at hp
      · split_ifs at hp with hzero
        simp only [Option.some.injEq, MessageLine.others.injEq] at hp
        obtain ⟨-, rfl, rfl, -⟩ := hp
        exact ⟨rfl, Nat.pos_of_ne_zero hzero⟩
      · cases hp
  · cases hmem

def shownMessages (lines : List MessageLine) (kind : String) : List String :=
  (lines.filter (·.kind = kind)).filterMap MessageLine.message?

theorem aggregateMessageLines_nodup (n : Nat) (kind : String) :
    (shownMessages (aggregateMessageLines pluralize conditions n dropEmpty getPriority
      otherMessages).1 kind).Nodup := by
  have hspec := @messageMapsOf_spec getPriority conditions dropEmpty
  obtain ⟨n', hkind⟩ := @aggregateMessageLines_filter_kind pluralize conditions
    dropEmpty getPriority otherMessages n kind
  unfold shownMessages
  rw [hkind]
  split_ifs
  · rw [kindLines_messages]
    exact (messageIndexOf_perm.nodup_iff.mpr (hspec.messages_nodup kind)).sublist
      (List.take_sublist _ _)
  · exact List.nodup_nil

theorem filter_kind_message (l : List ConditionWithOwnerInfo) (kind m : String) :
    (l.filter fun c => c.ownerResource.kind = kind ∧ c.condition.message = m) =
      (l.filter (·.ownerResource.kind = kind)).filter (·.condition.message = m) := by
  rw [List.filter_filter]
  apply List.filter_congr
  intro c _
  simp only [Bool.decide_and]
  exact Bool.and_comm _ _

theorem aggregateMessageLines_others (n : Nat) (kind : String)
    (hlabels : ∀ c ∈ keptConditions conditions dropEmpty,
      otherMessages (getPriority c.condition) ≠ none) :
    ((((aggregateMessageLines pluralize conditions n dropEmpty getPriority
        otherMessages).1.filter (·.kind = kind)).filter (·.message? = none)).map
        MessageLine.count).sum =
      ((keptConditions conditions dropEmpty).filter fun c => c.ownerResource.kind = kind ∧
        c.condition.message ∉ shownMessages (aggregateMessageLines pluralize conditions n
          dropEmpty getPriority otherMessages).1 kind).length := by
  have hspec := @messageMapsOf_spec getPriority conditions dropEmpty
  obtain ⟨n', hkind⟩ := @aggregateMessageLines_filter_kind pluralize conditions
    dropEmpty getPriority otherMessages n kind
  unfold shownMessages
  rw [hkind]
  split_ifs with hk
  · have hidx := @messageIndexOf_perm (messageMapsOf conditions dropEmpty getPriority) kind
    have hnodup := hidx.nodup_iff.mpr (hspec.messages_nodup kind)
    rw [kindLines_filter_others, otherLines_kindLines_count, kindLines_messages]
    · calc _ = (((messageIndexOf (messageMapsOf conditions dropEmpty getPriority) kind).drop
              n').map fun m => (((keptConditions conditions dropEmpty).filter
                (·.ownerResource.kind = kind)).filter (·.condition.message = m)).length).sum := by
            congr 1
            apply List.map_congr_left
            intro m _
            rw [hspec.messageObjMap_eq, List.length_map, filter_kind_message]
        _ = (((keptConditions conditions dropEmpty).filter (·.ownerResource.kind = kind)).filter
              fun c => c.condition.message ∈ (messageIndexOf (messageMapsOf conditions dropEmpty
                getPriority) kind).drop n').length :=
            sum_length_filter _ (hnodup.sublist (List.drop_sublist _ _))
        _ = _ := by
            rw [List.filter_filter]
            congr 1
            apply List.filter_congr
            intro c hc
            by_cases hck : c.ownerResource.kind = kind
            · have hmem : c.condition.message ∈ messageIndexOf (messageMapsOf conditions dropEmpty
                  getPriority) kind :=
                hidx.mem_iff.mpr ((hspec.mem_messages kind _).mpr ⟨c, hc, hck, rfl⟩)
              simp [hck, mem_drop_iff_not_mem_take hnodup hmem n']
            · simp [hck]
    · intro m hm
      obtain ⟨c, hc, hp⟩ := hspec.priority_mem (hidx.mem_iff.mp hm)
      rw [← hp]
      exact hlabels c hc
  · -- no condition has the kind
    have hnone : ∀ c ∈ keptConditions conditions dropEmpty, c.ownerResource.kind ≠ kind :=
      fun c hc hck => hk ((hspec.mem_kinds kind).mpr ⟨c, hc, hck⟩)
    simp only [List.filter_nil, List.map_nil, List.sum_nil]
    symm
    rw [List.length_eq_zero_iff, List.filter_eq_nil_iff]
    intro c hc
    simp [hnone c hc]

theorem aggregateMessageLines_budget (n : Nat) :
    ((aggregateMessageLines pluralize conditions n dropEmpty getPriority otherMessages).1.filterMap
      MessageLine.message?).length ≤ n := by
  have h := @foldl_addKindLines_budget (messageMapsOf conditions dropEmpty getPriority)
    pluralize otherMessages (sliceStable (messageMapsOf conditions dropEmpty getPriority).kinds
      fun a b => decide (a < b)) ([], n)
  simp only [List.filterMap_nil, List.length_nil, Nat.zero_add] at h
  simp only [aggregateMessageLines]
  omega

theorem aggregateMessageLines_controlPlane_first (n : Nat) (kind : String) :
    (shownMessages (aggregateMessageLines pluralize conditions n dropEmpty getPriority
        otherMessages).1 kind).Pairwise (fun a b =>
        ReportedByControlPlane (keptConditions conditions dropEmpty) b →
          ReportedByControlPlane (keptConditions conditions dropEmpty) a) ∧
      ∀ m ∈ shownMessages (aggregateMessageLines pluralize conditions n dropEmpty getPriority
          otherMessages).1 kind,
        ¬ReportedByControlPlane (keptConditions conditions dropEmpty) m →
        ∀ c ∈ keptConditions conditions dropEmpty, c.ownerResource.kind = kind →
          ReportedByControlPlane (keptConditions conditions dropEmpty) c.condition.message →
          c.condition.message ∈ shownMessages (aggregateMessageLines pluralize conditions n
            dropEmpty getPriority otherMessages).1 kind := by
  have hspec := @messageMapsOf_spec getPriority conditions dropEmpty
  have hfirst := hspec.mustGoFirst_iff
  obtain ⟨n', hkind⟩ := @aggregateMessageLines_filter_kind pluralize conditions
    dropEmpty getPriority otherMessages n kind
  unfold shownMessages
  rw [hkind]
  split_ifs
  · rw [kindLines_messages]
    refine ⟨(take_messageIndexOf_pairwise n').imp fun h hb =>
      (hfirst _).mp (h ((hfirst _).mpr hb)), ?_⟩
    intro m hm hnot c hc hck hcp
    refine mem_take_messageIndexOf_of_mustGoFirst n' hm ?_ ?_ ((hfirst _).mpr hcp)
    · rw [← Bool.not_eq_true, hfirst]
      exact hnot
    · exact messageIndexOf_perm.mem_iff.mpr ((hspec.mem_messages kind _).mpr ⟨c, hc, hck, rfl⟩)
  · simp

end Aggregate

/-! ## The aggregate message of `Merge` -/

/-- The conditions an aggregate message reports on: the issues and unknown conditions, or, when
there are none, the info conditions with a message. -/
def reportedGroup (getPriority : Condition → MergePriority)
    (conditions : List ConditionWithOwnerInfo) : List ConditionWithOwnerInfo :=
  if conditions.any fun c => getPriority c.condition ≠ .Info then
    conditions.filter fun c => getPriority c.condition ≠ .Info
  else conditions.filter fun c => c.condition.message ≠ ""

section Merge

variable {getPriority : Condition → MergePriority}

theorem filter_issue_append_unknown_perm (l : List ConditionWithOwnerInfo) :
    ((l.filter fun c => getPriority c.condition = .Issue) ++
        l.filter fun c => getPriority c.condition = .Unknown).Perm
      (l.filter fun c => getPriority c.condition ≠ .Info) := by
  induction l with
  | nil => simp
  | cons c rest ih =>
    cases hc : getPriority c.condition
    · simpa [List.filter_cons, hc] using ih
    · simpa [List.filter_cons, hc] using List.perm_middle.trans (ih.cons c)
    · simpa [List.filter_cons, hc] using ih

theorem mem_sortConditions_filter {conditions : List ConditionWithOwnerInfo}
    {conditionTypes : List String} {c : ConditionWithOwnerInfo} {q : MergePriority} :
    c ∈ (sortConditions conditions conditionTypes).filter (fun c => getPriority c.condition = q) ↔
      c ∈ conditions ∧ getPriority c.condition = q := by
  have hsorted : (sortConditions conditions conditionTypes).Perm conditions :=
    List.mergeSort_perm _ _
  rw [List.mem_filter, hsorted.mem_iff, decide_eq_true_eq]

section Branches

variable {d : defaultMergeStrategy} {pluralize : String → String}
  {conditions : List ConditionWithOwnerInfo} {conditionTypes : List String}
  {issueConditions unknownConditions infoConditions : List ConditionWithOwnerInfo}
  (hsplit : splitConditionsByPriority (sortConditions conditions conditionTypes)
    d.getPriorityFunc = (issueConditions, unknownConditions, infoConditions))
include hsplit

theorem length_ne_zero_of_split
    (h : 0 < issueConditions.length ∨ 0 < unknownConditions.length ∨ 0 < infoConditions.length) :
    conditions.length ≠ 0 := by
  intro h0
  rw [List.eq_nil_of_length_eq_zero h0] at hsplit
  simp only [sortConditions, sliceStable, List.mergeSort_nil, splitConditionsByPriority,
    List.filter_nil, Prod.mk.injEq] at hsplit
  obtain ⟨rfl, rfl, rfl⟩ := hsplit
  simp at h

theorem Merge_aggregate_issues (h : 0 < issueConditions.length) :
    d.Merge pluralize .Aggregate conditions conditionTypes =
      .ok (if d.targetConditionHasPositivePolarity then "False" else "True",
        d.computeReasonFunc issueConditions unknownConditions infoConditions,
        "\n".intercalate ((aggregateMessageLines pluralize (issueConditions ++ unknownConditions) 3
          false d.getPriorityFunc issueOtherMessages).1.map MessageLine.render)) := by
  simp only [defaultMergeStrategy.Merge, if_neg (length_ne_zero_of_split hsplit (.inl h)), hsplit]
  have hissue : (decide (0 < issueConditions.length) ||
      decide (0 < unknownConditions.length)) = true := by
    simp [h]
  have hnoinfo : ¬(decide (issueConditions.length = 0) &&
      decide (unknownConditions.length = 0) && decide (0 < infoConditions.length)) = true := by
    simp only [Bool.and_eq_true, decide_eq_true_eq, not_and]
    omega
  rw [if_pos h, if_pos hissue, if_neg hnoinfo, List.append_nil]
  rfl

theorem Merge_aggregate_unknown (hI : issueConditions.length = 0)
    (h : 0 < unknownConditions.length) :
    d.Merge pluralize .Aggregate conditions conditionTypes =
      .ok ("Unknown", d.computeReasonFunc issueConditions unknownConditions infoConditions,
        "\n".intercalate ((aggregateMessageLines pluralize (issueConditions ++ unknownConditions) 3
          false d.getPriorityFunc issueOtherMessages).1.map MessageLine.render)) := by
  simp only [defaultMergeStrategy.Merge,
    if_neg (length_ne_zero_of_split hsplit (.inr (.inl h))), hsplit]
  have hissue : (decide (0 < issueConditions.length) ||
      decide (0 < unknownConditions.length)) = true := by
    simp [h]
  have hnoinfo : ¬(decide (issueConditions.length = 0) &&
      decide (unknownConditions.length = 0) && decide (0 < infoConditions.length)) = true := by
    simp only [Bool.and_eq_true, decide_eq_true_eq, not_and]
    omega
  have hi : ¬0 < issueConditions.length := by omega
  rw [if_neg hi, if_pos h, if_pos hissue, if_neg hnoinfo, List.append_nil]
  rfl

theorem Merge_aggregate_info (hI : issueConditions.length = 0) (hU : unknownConditions.length = 0)
    (h : 0 < infoConditions.length) :
    d.Merge pluralize .Aggregate conditions conditionTypes =
      .ok (if d.targetConditionHasPositivePolarity then "True" else "False",
        d.computeReasonFunc issueConditions unknownConditions infoConditions,
        "\n".intercalate ((aggregateMessageLines pluralize infoConditions 3 true d.getPriorityFunc
          infoOtherMessages).1.map MessageLine.render)) := by
  simp only [defaultMergeStrategy.Merge,
    if_neg (length_ne_zero_of_split hsplit (.inr (.inr h))), hsplit]
  have hnoissue : ¬(decide (0 < issueConditions.length) ||
      decide (0 < unknownConditions.length)) = true := by
    simp [hI, hU]
  have hinfo : (decide (issueConditions.length = 0) &&
      decide (unknownConditions.length = 0) && decide (0 < infoConditions.length)) = true := by
    simp only [Bool.and_eq_true, decide_eq_true_eq]
    omega
  have hi : ¬0 < issueConditions.length := by omega
  have hu : ¬0 < unknownConditions.length := by omega
  rw [if_neg hi, if_neg hu, if_pos h, if_neg hnoissue, if_pos hinfo, List.nil_append]
  rfl

theorem split_filters :
    (sortConditions conditions conditionTypes).filter
        (fun c => d.getPriorityFunc c.condition = .Issue) = issueConditions ∧
      (sortConditions conditions conditionTypes).filter
        (fun c => d.getPriorityFunc c.condition = .Unknown) = unknownConditions ∧
      (sortConditions conditions conditionTypes).filter
        (fun c => d.getPriorityFunc c.condition = .Info) = infoConditions := by
  simp only [splitConditionsByPriority, Prod.mk.injEq] at hsplit
  exact hsplit

theorem reportedGroup_of_split
    (hA : 0 < issueConditions.length ∨ 0 < unknownConditions.length) :
    (issueConditions ++ unknownConditions).Perm (reportedGroup d.getPriorityFunc conditions) := by
  obtain ⟨hI, hU, -⟩ := split_filters hsplit
  have hsorted : (sortConditions conditions conditionTypes).Perm conditions :=
    List.mergeSort_perm _ _
  have hany : conditions.any fun c => d.getPriorityFunc c.condition ≠ .Info := by
    obtain ⟨c, hc⟩ : ∃ c, c ∈ issueConditions ++ unknownConditions := by
      rcases hA with h | h
      · exact ⟨_, List.mem_append_left _ (List.getElem_mem h)⟩
      · exact ⟨_, List.mem_append_right _ (List.getElem_mem h)⟩
    rw [← hI, ← hU] at hc
    have hc' := (filter_issue_append_unknown_perm _).mem_iff.mp hc
    rw [List.mem_filter] at hc'
    exact List.any_eq_true.mpr ⟨c, hsorted.mem_iff.mp hc'.1, hc'.2⟩
  rw [reportedGroup, if_pos hany, ← hI, ← hU]
  exact (filter_issue_append_unknown_perm _).trans (hsorted.filter _)

theorem issueOtherMessages_of_split {c : ConditionWithOwnerInfo}
    (hc : c ∈ issueConditions ++ unknownConditions) :
    issueOtherMessages (d.getPriorityFunc c.condition) ≠ none := by
  obtain ⟨hI, hU, -⟩ := split_filters hsplit
  rw [← hI, ← hU] at hc
  rcases List.mem_append.mp hc with hc | hc
  · rw [(mem_sortConditions_filter.mp hc).2]
    simp [issueOtherMessages]
  · rw [(mem_sortConditions_filter.mp hc).2]
    simp [issueOtherMessages]

theorem reportedGroup_of_split_info (hne : conditions ≠ []) (hI0 : issueConditions = [])
    (hU0 : unknownConditions = []) :
    0 < infoConditions.length ∧
      (keptConditions infoConditions true).Perm (reportedGroup d.getPriorityFunc conditions) := by
  obtain ⟨hI, hU, hF⟩ := split_filters hsplit
  have hinfo : ∀ c ∈ conditions, d.getPriorityFunc c.condition = .Info := by
    intro c hc
    cases hp : d.getPriorityFunc c.condition
    · have : c ∈ issueConditions := by rw [← hI]; exact mem_sortConditions_filter.mpr ⟨hc, hp⟩
      simp [hI0] at this
    · have : c ∈ unknownConditions := by rw [← hU]; exact mem_sortConditions_filter.mpr ⟨hc, hp⟩
      simp [hU0] at this
    · rfl
  refine ⟨?_, ?_⟩
  · obtain ⟨c, hc⟩ := List.exists_mem_of_ne_nil _ hne
    have : c ∈ infoConditions := by
      rw [← hF]
      exact mem_sortConditions_filter.mpr ⟨hc, hinfo c hc⟩
    exact List.length_pos_of_mem this
  · have hnone : ¬(conditions.any fun c => d.getPriorityFunc c.condition ≠ .Info) := by
      simpa using hinfo
    rw [reportedGroup, if_neg hnone, keptConditions, ← hF, List.filter_filter]
    refine ((List.mergeSort_perm _ _).filter _).trans
      (List.Perm.of_eq (List.filter_congr fun c hc => ?_))
    simp [hinfo c hc]

theorem infoOtherMessages_of_split {c : ConditionWithOwnerInfo} (hc : c ∈ infoConditions) :
    infoOtherMessages (d.getPriorityFunc c.condition) ≠ none := by
  obtain ⟨-, -, hF⟩ := split_filters hsplit
  rw [← hF] at hc
  rw [(mem_sortConditions_filter.mp hc).2]
  simp [infoOtherMessages]

end Branches

theorem Merge_aggregate (d : defaultMergeStrategy) (pluralize : String → String)
    {conditions : List ConditionWithOwnerInfo} (conditionTypes : List String)
    (hne : conditions ≠ []) :
    ∃ (status reason : String) (group : List ConditionWithOwnerInfo) (dropEmpty : Bool)
      (otherMessages : MergePriority → Option String),
      d.Merge pluralize .Aggregate conditions conditionTypes =
        .ok (status, reason, "\n".intercalate ((aggregateMessageLines pluralize group 3 dropEmpty
          d.getPriorityFunc otherMessages).1.map MessageLine.render)) ∧
      (keptConditions group dropEmpty).Perm (reportedGroup d.getPriorityFunc conditions) ∧
      ∀ c ∈ keptConditions group dropEmpty, otherMessages (d.getPriorityFunc c.condition) ≠ none := by
  obtain ⟨issueConditions, unknownConditions, infoConditions, hsplit⟩ : ∃ I U F,
      splitConditionsByPriority (sortConditions conditions conditionTypes) d.getPriorityFunc =
        (I, U, F) := ⟨_, _, _, rfl⟩
  by_cases hA : 0 < issueConditions.length ∨ 0 < unknownConditions.length
  · -- issues or unknown conditions: their lines, and no info line
    have hkept : keptConditions (issueConditions ++ unknownConditions) false =
        issueConditions ++ unknownConditions := by
      simp [keptConditions]
    have hgroup := reportedGroup_of_split hsplit hA
    have hlabels : ∀ c ∈ issueConditions ++ unknownConditions,
        issueOtherMessages (d.getPriorityFunc c.condition) ≠ none :=
      fun _ hc => issueOtherMessages_of_split hsplit hc
    rw [← hkept] at hgroup hlabels
    by_cases hi : 0 < issueConditions.length
    · exact ⟨_, _, _, false, issueOtherMessages, Merge_aggregate_issues hsplit hi, hgroup,
        hlabels⟩
    · exact ⟨_, _, _, false, issueOtherMessages,
        Merge_aggregate_unknown hsplit (by omega) (hA.resolve_left hi), hgroup, hlabels⟩
  · -- only info conditions: the lines of those with a message
    obtain ⟨hF0, hgroup⟩ := reportedGroup_of_split_info hsplit hne
      (List.eq_nil_of_length_eq_zero (by omega)) (List.eq_nil_of_length_eq_zero (by omega))
    refine ⟨_, _, _, true, infoOtherMessages,
      Merge_aggregate_info hsplit (by omega) (by omega) hF0, hgroup, fun c hc => ?_⟩
    exact infoOtherMessages_of_split hsplit (List.mem_filter.mp hc).1

/-- Every object of the reported group is counted once in the aggregate message: named on the
line of its message or counted in that line's `(k more)`, or counted on an `And` line of its
kind; at most three lines name objects, and within a kind the messages a control plane machine
reports come first. -/
theorem Merge_aggregate_accounts (d : defaultMergeStrategy) (pluralize : String → String)
    (conditions : List ConditionWithOwnerInfo) (conditionTypes : List String)
    (hne : conditions ≠ []) :
    ∃ (status reason : String) (lines : List MessageLine),
      d.Merge pluralize .Aggregate conditions conditionTypes =
        .ok (status, reason, "\n".intercalate (lines.map MessageLine.render)) ∧
      (∀ kind kindPlural allObjects m, .objects kind kindPlural allObjects m ∈ lines →
        allObjects.Perm (((reportedGroup d.getPriorityFunc conditions).filter fun c =>
          c.ownerResource.kind = kind ∧ c.condition.message = m).map (·.ownerResource.name)) ∧
        (MessageLine.objects kind kindPlural allObjects m).render =
          "* " ++ (if allObjects.length = 1 then kind else pluralize kind) ++ " " ++
            ", ".intercalate (allObjects.take 3) ++
            (if 3 < allObjects.length then ", ... (" ++ toString (allObjects.length - 3) ++
              " more):" else ":") ++ indentIfMultiline m) ∧
      (∀ kind kindPlural count otherMessage, .others kind kindPlural count otherMessage ∈ lines →
        0 < count ∧ (MessageLine.others kind kindPlural count otherMessage).render =
          "And " ++ toString count ++ " " ++ (if count = 1 then kind else pluralize kind) ++ " " ++
            otherMessage) ∧
      (∀ kind, (shownMessages lines kind).Nodup) ∧
      (∀ kind, (((lines.filter (·.kind = kind)).filter (·.message? = none)).map
          MessageLine.count).sum =
        ((reportedGroup d.getPriorityFunc conditions).filter fun c =>
          c.ownerResource.kind = kind ∧ c.condition.message ∉ shownMessages lines kind).length) ∧
      (lines.filterMap MessageLine.message?).length ≤ 3 ∧
      ∀ kind, (shownMessages lines kind).Pairwise (fun a b =>
          ReportedByControlPlane (reportedGroup d.getPriorityFunc conditions) b →
            ReportedByControlPlane (reportedGroup d.getPriorityFunc conditions) a) ∧
        ∀ m ∈ shownMessages lines kind,
          ¬ReportedByControlPlane (reportedGroup d.getPriorityFunc conditions) m →
          ∀ c ∈ reportedGroup d.getPriorityFunc conditions, c.ownerResource.kind = kind →
            ReportedByControlPlane (reportedGroup d.getPriorityFunc conditions)
              c.condition.message →
            c.condition.message ∈ shownMessages lines kind := by
  obtain ⟨status, reason, group, dropEmpty, otherMessages, hmerge, hperm, hlabels⟩ :=
    Merge_aggregate d pluralize conditionTypes hne
  have hcp := ReportedByControlPlane_perm hperm
  refine ⟨status, reason, _, hmerge, ?_, ?_, aggregateMessageLines_nodup 3, ?_,
    aggregateMessageLines_budget 3, ?_⟩
  · -- a line names the objects reporting its message, of which there is one at least
    intro kind kindPlural allObjects m h
    have hobjects := (aggregateMessageLines_objects 3 h).trans ((hperm.filter _).map _)
    obtain ⟨rfl, c, hc, hck, hcm⟩ := aggregateMessageLines_objects_line 3 h
    have hne : allObjects ≠ [] := by
      intro hnil
      rw [hnil] at hobjects
      have hmem : c.ownerResource.name ∈ ((reportedGroup d.getPriorityFunc conditions).filter
          fun c => c.ownerResource.kind = kind ∧ c.condition.message = m).map
            (·.ownerResource.name) :=
        List.mem_map_of_mem (List.mem_filter.mpr ⟨hperm.subset hc, by simp [hck, hcm]⟩)
      exact List.not_mem_nil (hobjects.symm.subset hmem)
    exact ⟨hobjects, render_objects hne⟩
  · intro kind kindPlural count otherMessage h
    obtain ⟨rfl, hpos⟩ := aggregateMessageLines_others_line 3 h
    exact ⟨hpos, render_others⟩
  · intro kind
    rw [aggregateMessageLines_others 3 kind hlabels]
    exact (hperm.filter _).length_eq
  · intro kind
    obtain ⟨hpairwise, hcomplete⟩ := @aggregateMessageLines_controlPlane_first
      pluralize group dropEmpty d.getPriorityFunc otherMessages 3 kind
    refine ⟨hpairwise.imp fun h hb => (hcp _).mp (h ((hcp _).mpr hb)), ?_⟩
    intro m hm hnot c hc hck hcpc
    exact hcomplete m hm (fun h => hnot ((hcp m).mp h)) c (hperm.mem_iff.mpr hc) hck
      ((hcp _).mpr hcpc)


theorem Merge_aggregate_accounts_sample :
    [(⟨⟨"Machine", "a", true⟩, ⟨"Ready", "False", 0, 0, "", "disk pressure"⟩⟩ :
      ConditionWithOwnerInfo)] ≠ [] ∧
    ∃ (status reason : String) (lines : List MessageLine),
      (DefaultMergeStrategy true (GetDefaultMergePriorityFunc [])).Merge (· ++ "s") .Aggregate
          [⟨⟨"Machine", "a", true⟩, ⟨"Ready", "False", 0, 0, "", "disk pressure"⟩⟩] ["Ready"] =
        .ok (status, reason, "\n".intercalate (lines.map MessageLine.render)) ∧
      (∀ kind kindPlural allObjects m, .objects kind kindPlural allObjects m ∈ lines →
        allObjects.Perm (((reportedGroup (GetDefaultMergePriorityFunc [])
          [⟨⟨"Machine", "a", true⟩, ⟨"Ready", "False", 0, 0, "", "disk pressure"⟩⟩]).filter
            fun c => c.ownerResource.kind = kind ∧ c.condition.message = m).map
              (·.ownerResource.name)) ∧
        (MessageLine.objects kind kindPlural allObjects m).render =
          "* " ++ (if allObjects.length = 1 then kind else kind ++ "s") ++ " " ++
            ", ".intercalate (allObjects.take 3) ++
            (if 3 < allObjects.length then ", ... (" ++ toString (allObjects.length - 3) ++
              " more):" else ":") ++ indentIfMultiline m) ∧
      (∀ kind kindPlural count otherMessage, .others kind kindPlural count otherMessage ∈ lines →
        0 < count ∧ (MessageLine.others kind kindPlural count otherMessage).render =
          "And " ++ toString count ++ " " ++ (if count = 1 then kind else kind ++ "s") ++ " " ++
            otherMessage) ∧
      (∀ kind, (shownMessages lines kind).Nodup) ∧
      (∀ kind, (((lines.filter (·.kind = kind)).filter (·.message? = none)).map
          MessageLine.count).sum =
        ((reportedGroup (GetDefaultMergePriorityFunc [])
          [⟨⟨"Machine", "a", true⟩, ⟨"Ready", "False", 0, 0, "", "disk pressure"⟩⟩]).filter
            fun c => c.ownerResource.kind = kind ∧
              c.condition.message ∉ shownMessages lines kind).length) ∧
      (lines.filterMap MessageLine.message?).length ≤ 3 ∧
      ∀ kind, (shownMessages lines kind).Pairwise (fun a b =>
          ReportedByControlPlane (reportedGroup (GetDefaultMergePriorityFunc [])
            [⟨⟨"Machine", "a", true⟩, ⟨"Ready", "False", 0, 0, "", "disk pressure"⟩⟩]) b →
          ReportedByControlPlane (reportedGroup (GetDefaultMergePriorityFunc [])
            [⟨⟨"Machine", "a", true⟩, ⟨"Ready", "False", 0, 0, "", "disk pressure"⟩⟩]) a) ∧
        ∀ m ∈ shownMessages lines kind,
          ¬ReportedByControlPlane (reportedGroup (GetDefaultMergePriorityFunc [])
            [⟨⟨"Machine", "a", true⟩, ⟨"Ready", "False", 0, 0, "", "disk pressure"⟩⟩]) m →
          ∀ c ∈ reportedGroup (GetDefaultMergePriorityFunc [])
            [⟨⟨"Machine", "a", true⟩, ⟨"Ready", "False", 0, 0, "", "disk pressure"⟩⟩],
            c.ownerResource.kind = kind →
            ReportedByControlPlane (reportedGroup (GetDefaultMergePriorityFunc [])
              [⟨⟨"Machine", "a", true⟩, ⟨"Ready", "False", 0, 0, "", "disk pressure"⟩⟩])
              c.condition.message →
            c.condition.message ∈ shownMessages lines kind :=
  ⟨by simp, Merge_aggregate_accounts (DefaultMergeStrategy true (GetDefaultMergePriorityFunc []))
    (· ++ "s") [⟨⟨"Machine", "a", true⟩, ⟨"Ready", "False", 0, 0, "", "disk pressure"⟩⟩]
    ["Ready"] (by simp)⟩
end Merge

/-! ## The order of the source objects -/

theorem sliceStable_pair {α : Type} (less : α → α → Bool) (a b : α) :
    sliceStable [a, b] less = if less b a then [b, a] else [a, b] := by
  rw [sliceStable, mergeSort_pair]
  cases less b a <;> rfl

theorem aggregateMessageLines_of_kinds_eq {pluralize : String → String}
    {conditions : List ConditionWithOwnerInfo} {dropEmpty : Bool}
    {getPriority : Condition → MergePriority} {otherMessages : MergePriority → Option String}
    {kind : String} (n : Nat) (hkinds : (messageMapsOf conditions dropEmpty getPriority).kinds = [kind]) :
    (aggregateMessageLines pluralize conditions n dropEmpty getPriority otherMessages).1 =
      (kindLines (messageMapsOf conditions dropEmpty getPriority) pluralize otherMessages n kind).1 := by
  simp only [aggregateMessageLines, hkinds, sliceStable, List.mergeSort_singleton, List.foldl_cons,
    List.foldl_nil, addKindLines, List.nil_append]

theorem render_objects_of_le_three {kind kindPlural m : String} {allObjects : List String}
    (h₁ : 1 < allObjects.length) (h₃ : allObjects.length ≤ 3) :
    (MessageLine.objects kind kindPlural allObjects m).render =
      "* " ++ kindPlural ++ " " ++ ", ".intercalate allObjects ++ ":" ++ indentIfMultiline m := by
  rw [MessageLine.render, if_neg (by omega), if_neg (by omega), if_pos h₃]

theorem render_objects_pair {kind kindPlural m x y : String}
    (hm : indentIfMultiline m = " " ++ m) :
    (MessageLine.objects kind kindPlural [x, y] m).render =
      "* " ++ kindPlural ++ " " ++ x ++ ", " ++ y ++ ":" ++ " " ++ m := by
  rw [render_objects_of_le_three (by simp) (by simp), hm]
  simp only [String.intercalate_cons_cons, String.intercalate_singleton, ← String.append_assoc]

def notReadyMachine (name message : String) : SourceObject :=
  ⟨"Machine", name, [], [⟨"Ready", "False", 0, 0, "", message⟩]⟩

theorem NewAggregateCondition_default (pluralize : String → String)
    {sourceObjs : List SourceObject} (sourceConditionType : String) (hne : sourceObjs ≠ []) :
    NewAggregateCondition pluralize sourceObjs sourceConditionType {} =
      ((DefaultMergeStrategy true (GetDefaultMergePriorityFunc [])).Merge pluralize .Aggregate
        (sourceObjs.map (conditionInScope sourceConditionType)) [sourceConditionType]).map
        fun r => ⟨sourceConditionType, r.1, 0, 0, r.2.1, r.2.2⟩ := by
  have hlen : sourceObjs.length ≠ 0 := by simpa using hne
  simp only [NewAggregateCondition, if_neg hlen, List.not_mem_nil, decide_false, Bool.not_false,
    Option.getD_none]
  rw [if_neg (by simp)]
  cases (DefaultMergeStrategy true (GetDefaultMergePriorityFunc [])).Merge pluralize .Aggregate
    (sourceObjs.map (conditionInScope sourceConditionType)) [sourceConditionType] <;> rfl

theorem NewAggregateCondition_one_kind (pluralize : String → String)
    {sourceObjs : List SourceObject} {sourceConditionType kind : String} (hne : sourceObjs ≠ [])
    (hsort : sortConditions (sourceObjs.map (conditionInScope sourceConditionType))
      [sourceConditionType] = sourceObjs.map (conditionInScope sourceConditionType))
    (hissues : ∀ c ∈ sourceObjs.map (conditionInScope sourceConditionType),
      GetDefaultMergePriorityFunc [] c.condition = .Issue)
    (hkinds : (messageMapsOf (sourceObjs.map (conditionInScope sourceConditionType)) false
      (GetDefaultMergePriorityFunc [])).kinds = [kind])
    (hbudget : (messageIndexOf (messageMapsOf (sourceObjs.map
      (conditionInScope sourceConditionType)) false (GetDefaultMergePriorityFunc [])) kind).length ≤ 3) :
    NewAggregateCondition pluralize sourceObjs sourceConditionType {} =
      .ok ⟨sourceConditionType, "False", 0, 0, "IssuesReported", "\n".intercalate
        (((messageIndexOf (messageMapsOf (sourceObjs.map (conditionInScope sourceConditionType))
          false (GetDefaultMergePriorityFunc [])) kind).map (objectsLine (messageMapsOf
            (sourceObjs.map (conditionInScope sourceConditionType)) false
            (GetDefaultMergePriorityFunc [])) kind (pluralize kind))).map MessageLine.render)⟩ := by
  have hsplit : splitConditionsByPriority (sortConditions (sourceObjs.map
      (conditionInScope sourceConditionType)) [sourceConditionType])
      (GetDefaultMergePriorityFunc []) =
      (sourceObjs.map (conditionInScope sourceConditionType), [], []) := by
    rw [hsort, splitConditionsByPriority, List.filter_eq_self.mpr (by simpa using hissues),
      List.filter_eq_nil_iff.mpr (by simp_all), List.filter_eq_nil_iff.mpr (by simp_all)]
  have hpos : 0 < (sourceObjs.map (conditionInScope sourceConditionType)).length := by
    simpa [List.length_pos_iff] using hne
  have hpriority : (DefaultMergeStrategy true (GetDefaultMergePriorityFunc [])).getPriorityFunc =
      GetDefaultMergePriorityFunc [] := rfl
  rw [NewAggregateCondition_default pluralize sourceConditionType hne,
    Merge_aggregate_issues hsplit hpos, hpriority, List.append_nil,
    aggregateMessageLines_of_kinds_eq 3 hkinds, kindLines_of_length_le hbudget]
  have hreason : (DefaultMergeStrategy true (GetDefaultMergePriorityFunc [])).computeReasonFunc
      (sourceObjs.map (conditionInScope sourceConditionType)) [] [] = "IssuesReported" := by
    simp [DefaultMergeStrategy, GetDefaultComputeMergeReasonFunc, hne, issuesReportedReason]
  rw [hreason]
  rfl

/-- Four Machines report two messages, two each, all issues at one time. In one order the
objects reporting the first message are `a, d`, in the other `d, a`: `sortMessage` breaks the tie
between the messages on those names before they are sorted, so the lines of the message swap. -/
theorem NewAggregateCondition_depends_on_order (pluralize : String → String) :
    ([notReadyMachine "a" "disk pressure", notReadyMachine "b" "memory pressure",
        notReadyMachine "c" "memory pressure", notReadyMachine "d" "disk pressure"].map
        fun obj => (obj.kind, obj.name)).Nodup ∧
      [notReadyMachine "a" "disk pressure", notReadyMachine "b" "memory pressure",
        notReadyMachine "c" "memory pressure", notReadyMachine "d" "disk pressure"].Perm
        [notReadyMachine "d" "disk pressure", notReadyMachine "b" "memory pressure",
          notReadyMachine "c" "memory pressure", notReadyMachine "a" "disk pressure"] ∧
      NewAggregateCondition pluralize [notReadyMachine "a" "disk pressure",
          notReadyMachine "b" "memory pressure", notReadyMachine "c" "memory pressure",
          notReadyMachine "d" "disk pressure"] "Ready" {} =
        .ok ⟨"Ready", "False", 0, 0, "IssuesReported", "\n".intercalate
          ["* " ++ pluralize "Machine" ++ " a, d: disk pressure",
            "* " ++ pluralize "Machine" ++ " b, c: memory pressure"]⟩ ∧
      NewAggregateCondition pluralize [notReadyMachine "d" "disk pressure",
          notReadyMachine "b" "memory pressure", notReadyMachine "c" "memory pressure",
          notReadyMachine "a" "disk pressure"] "Ready" {} =
        .ok ⟨"Ready", "False", 0, 0, "IssuesReported", "\n".intercalate
          ["* " ++ pluralize "Machine" ++ " b, c: memory pressure",
            "* " ++ pluralize "Machine" ++ " a, d: disk pressure"]⟩ := by
  have hdisk : (MessageLine.objects "Machine" (pluralize "Machine") ["a", "d"]
      "disk pressure").render = "* " ++ pluralize "Machine" ++ " a, d: disk pressure" := by
    rw [render_objects_pair (by decide)]
    simp only [String.append_assoc, String.reduceAppend]
  have hmemory : (MessageLine.objects "Machine" (pluralize "Machine") ["b", "c"]
      "memory pressure").render = "* " ++ pluralize "Machine" ++ " b, c: memory pressure" := by
    rw [render_objects_pair (by decide)]
    simp only [String.append_assoc, String.reduceAppend]
  refine ⟨by decide, by decide, ?_, ?_⟩
  · -- `disk pressure` first: "a,d" < "b,c"
    have hindex : messageIndexOf (messageMapsOf ([notReadyMachine "a" "disk pressure",
        notReadyMachine "b" "memory pressure", notReadyMachine "c" "memory pressure",
        notReadyMachine "d" "disk pressure"].map (conditionInScope "Ready")) false
        (GetDefaultMergePriorityFunc [])) "Machine" = ["disk pressure", "memory pressure"] := by
      rw [messageIndexOf, show (messageMapsOf _ false _).messages "Machine" =
        ["disk pressure", "memory pressure"] by decide, sliceStable_pair]
      decide
    rw [@NewAggregateCondition_one_kind pluralize [notReadyMachine "a" "disk pressure",
        notReadyMachine "b" "memory pressure", notReadyMachine "c" "memory pressure",
        notReadyMachine "d" "disk pressure"] "Ready" "Machine" (by simp)
      (List.mergeSort_of_pairwise (by decide)) (by decide) (by decide) (by rw [hindex]; decide),
      hindex]
    simp only [List.map_cons, List.map_nil]
    rw [objectsLine, objectsLine,
      show (messageMapsOf _ false _).messageObjMap "Machine" "disk pressure" = ["a", "d"] by decide,
      show (messageMapsOf _ false _).messageObjMap "Machine" "memory pressure" = ["b", "c"] by decide,
      sliceStable_pair, sliceStable_pair, if_neg (by decide), if_neg (by decide), hdisk, hmemory]
  · -- `memory pressure` first: "b,c" < "d,a"
    have hindex : messageIndexOf (messageMapsOf ([notReadyMachine "d" "disk pressure",
        notReadyMachine "b" "memory pressure", notReadyMachine "c" "memory pressure",
        notReadyMachine "a" "disk pressure"].map (conditionInScope "Ready")) false
        (GetDefaultMergePriorityFunc [])) "Machine" = ["memory pressure", "disk pressure"] := by
      rw [messageIndexOf, show (messageMapsOf _ false _).messages "Machine" =
        ["disk pressure", "memory pressure"] by decide, sliceStable_pair]
      decide
    rw [@NewAggregateCondition_one_kind pluralize [notReadyMachine "d" "disk pressure",
        notReadyMachine "b" "memory pressure", notReadyMachine "c" "memory pressure",
        notReadyMachine "a" "disk pressure"] "Ready" "Machine" (by simp)
      (List.mergeSort_of_pairwise (by decide)) (by decide) (by decide) (by rw [hindex]; decide),
      hindex]
    simp only [List.map_cons, List.map_nil]
    rw [objectsLine, objectsLine,
      show (messageMapsOf _ false _).messageObjMap "Machine" "memory pressure" = ["b", "c"] by decide,
      show (messageMapsOf _ false _).messageObjMap "Machine" "disk pressure" = ["d", "a"] by decide,
      sliceStable_pair, sliceStable_pair, if_neg (by decide), if_pos (by decide), hdisk, hmemory]

end ClusterApi.Conditions
