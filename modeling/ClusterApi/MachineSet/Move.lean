import ClusterApi.MachineSet.DeletionOrder
import ClusterApi.Lib.Trace

/-!
# Moving machines to the new MachineSet for an in-place update

With in-place updates an old MachineSet of a MachineDeployment scales down by handing machines
to the new MachineSet, which updates them in place, instead of deleting them. Three reconcilers
take part, and they talk through annotations:

* the rollout planner of the MachineDeployment (`planRollingUpdate`) marks the old MachineSets
  that may move machines with `move-machines-to-machineset: <new>` and the new one with
  `receive-machines-from-machinesets: <old,...>` (`reconcileInPlaceUpdateIntent`). First,
  though, it counts the machines that arrived in the new MachineSet into its `spec.replicas`, and
  lists every machine still waiting in `acknowledged-move`
  (`reconcileReplicasPendingAcknowledgeMove`);
* an old MachineSet's `syncReplicas` moves its machines above `spec.replicas`
  (`startMoveMachines`): it hands each to the new MachineSet and marks it `update-in-progress` and
  `pending-acknowledge-move`;
* the new MachineSet's `triggerInPlaceUpdate` drops `pending-acknowledge-move` from a machine
  once the planner has listed it, and starts its update; its `syncReplicas` does not count the
  machines still pending while it receives machines.

Every planner reconcile writes the MachineSets afresh, so the three annotations of the planner
hold what its last reconcile decided. The planner's other decisions (its scale intents, which
old MachineSets may move machines) are the data of its event here, any values the rest of
`planRollingUpdate` may compute.

A reconcile reads a consistent snapshot of the objects. Machines are identified by name; a
machine that is gone leaves its name in `retired`, and a new machine never takes a name in use or
gone, as the name generator of the API is meant to ensure. The machines an old MachineSet moves
are ordered by `sort.Sort`, a `Sorter` as in `DeletionOrder`.
-/

namespace ClusterApi.MachineSet

open ClusterApi.Lib.GoSort ClusterApi.Lib.GoStrings ClusterApi.Lib.Trace ClusterApi.Hooks

def PendingAcknowledgeMoveAnnotation : String :=
  "in-place-updates.internal.cluster.x-k8s.io/pending-acknowledge-move"

def AcknowledgedMoveAnnotation : String :=
  "in-place-updates.internal.cluster.x-k8s.io/acknowledged-move"

def MachineSetMoveMachinesToMachineSetAnnotation : String :=
  "in-place-updates.internal.cluster.x-k8s.io/move-machines-to-machineset"

def MachineSetReceiveMachinesFromMachineSetsAnnotation : String :=
  "in-place-updates.internal.cluster.x-k8s.io/receive-machines-from-machinesets"

def DisableMachineCreateAnnotation : String := "cluster.x-k8s.io/disable-machine-create"

/-! ### Annotations and comma-separated lists -/

/-- `value, ok := annotations[key]; ok && value != ""`: the value of an annotation that is set and
not empty. -/
def nonEmptyAnnotationValue (annotations : List (String × String)) (key : String) : Option String :=
  match annotations.lookup key with
  | some value => if value = "" then none else some value
  | none => none

def annotationNames (annotations : List (String × String)) (key : String) : List String :=
  ((nonEmptyAnnotationValue annotations key).map fun value => Split value ',').getD []

def sortAndJoin (a : List String) : String :=
  ",".intercalate (a.insertionSort (· ≤ ·))

/-! ### The objects -/

structure MachineSetObject where
  name : String
  /-- `spec.replicas` -/
  replicas : Int
  /-- `spec.deletion.order` -/
  deletionOrder : String
  annotations : List (String × String)
  /-- `spec.template.annotations`, which the machines it creates get. -/
  templateAnnotations : List (String × String)
  /-- `labels[machine-template-hash]`, which a machine moved to this MachineSet gets. -/
  uniqueLabel : Option String
  deriving DecidableEq, Repr

structure ControlledMachine where
  machine : Machine
  controller : String
  deriving DecidableEq, Repr

structure World where
  machineSets : List MachineSetObject
  machines : List ControlledMachine
  now : Int
  /-- The names of the machines that are gone. -/
  retired : List String
  deriving DecidableEq, Repr

def World.machineSet (w : World) (name : String) : Option MachineSetObject :=
  w.machineSets.find? (·.name == name)

def World.machinesOf (w : World) (name : String) : List Machine :=
  (w.machines.filter (·.controller == name)).map (·.machine)

def World.names (w : World) : List String :=
  w.machines.map (·.machine.name)

/-! ### `triggerInPlaceUpdate` -/

/-- What `triggerInPlaceUpdate` makes of one machine of `ms`, as far as it gets: `none` when it
leaves it alone (no in-place update, one already triggered, or a move not yet acknowledged), else
the machine with `pending-acknowledge-move` dropped. -/
def dropPendingAcknowledgeMove (ms : MachineSetObject) (machine : Machine) : Option Machine :=
  if ! hasAnnotation machine UpdateInProgressAnnotation || IsPending "UpdateMachine" machine.annotations
  then none
  else if hasAnnotation machine PendingAcknowledgeMoveAnnotation then
    if (nonEmptyAnnotationValue ms.annotations MachineSetReceiveMachinesFromMachineSetsAnnotation).isSome
    then
      -- still receiving machines: wait for the planner to acknowledge this one
      if machine.name ∈ annotationNames ms.annotations AcknowledgedMoveAnnotation then
        some { machine with
          annotations := deleteAnnotationKey machine.annotations PendingAcknowledgeMoveAnnotation }
      else none
    else
      -- no longer receiving machines: the machine counts as any other
      some { machine with
        annotations := deleteAnnotationKey machine.annotations PendingAcknowledgeMoveAnnotation }
  else some machine

/-- The loop body of `triggerInPlaceUpdate`: the machine as the reconcile holds it afterwards, and
the machine as written when `completeMoveMachine` and the patch succeed (`completed`). -/
def triggerInPlaceUpdateMachine (ms : MachineSetObject) (completed : Bool) (machine : Machine) :
    Machine × Machine :=
  match dropPendingAcknowledgeMove ms machine with
  | none => (machine, machine)
  | some dropped =>
    if completed then
      let triggered :=
        { dropped with annotations := (MarkObjectAsPending dropped.annotations ["UpdateMachine"]).1 }
      (triggered, triggered)
    else (dropped, machine)

/-! ### `syncReplicas` -/

/-- The machines `startMoveMachines` moves, in the order it visits them: it skips a machine
updating in place, spends its budget on any other, and moves it unless it is being deleted. -/
def startMoveMachinesStep : Nat × List Machine → Machine → Nat × List Machine
  | (machinesToMove, moved), machine =>
    if machinesToMove = 0 then (machinesToMove, moved)
    else if IsUpdateInProgress machine then (machinesToMove, moved)
    else if !IsZero machine.deletionTimestamp then (machinesToMove - 1, moved)
    else (machinesToMove - 1, moved ++ [machine])

def moveMachine (machine : Machine) : Machine :=
  { machine with
    annotations := (setAnnotationValue (setAnnotationValue machine.annotations UpdateInProgressAnnotation "")
      PendingAcknowledgeMoveAnnotation "") }

inductive SyncReplicasAction
  | none
  /-- `createMachines`, which creates at most this many machines. -/
  | create (machinesToAdd : Nat)
  /-- `deleteMachines`: the machines picked. -/
  | delete (machines : List Machine)
  /-- `startMoveMachines`: the target and the machines moved. -/
  | move (target : String) (machines : List Machine)
  | error (message : String)
  deriving DecidableEq, Repr

variable (S : Sorter) (Exp : ℚ → ℚ)

def startMoveMachines (w : World) (ms : MachineSetObject) (machines : List Machine)
    (targetMSName : String) (machinesToMove : Nat) : SyncReplicasAction :=
  match w.machineSet targetMSName with
  | none => .error ("failed to get MachineSet " ++ targetMSName ++
      ", which is the target for the move operation")
  | some targetMS =>
    let validSourceMSs :=
      (targetMS.annotations.lookup MachineSetReceiveMachinesFromMachineSetsAnnotation).getD ""
    if ms.name ∉ Split validSourceMSs ',' then
      .error ("MachineSet " ++ ms.name ++ " is set to move replicas to " ++ targetMS.name ++
        ", but " ++ targetMS.name ++ " only accepts Machines from " ++ validSourceMSs)
    else
      match getDeletePriorityFunc Exp w.now ms.deletionOrder with
      | .error e => .error e
      | .ok deletePriorityFunc =>
        let moved := ((getMachinesToMovePrioritized S machines deletePriorityFunc).foldl
          startMoveMachinesStep (machinesToMove, [])).2
        -- the first machine to move finds the label missing before anything is patched
        if targetMS.uniqueLabel.isNone && moved ≠ [] then
          .error ("MachineSet " ++ targetMS.name ++ " does not have the machine-template-hash label")
        else .move targetMS.name moved

def deleteMachines (w : World) (ms : MachineSetObject) (machines : List Machine)
    (machinesToDelete : Nat) : SyncReplicasAction :=
  match getDeletePriorityFunc Exp w.now ms.deletionOrder with
  | .error e => .error e
  | .ok deletePriorityFunc =>
    .delete (getMachinesToDeletePrioritized S machines machinesToDelete deletePriorityFunc)

def syncReplicas (w : World) (ms : MachineSetObject) (machines : List Machine) :
    SyncReplicasAction :=
  let diff : Int := machines.length - ms.replicas
  if diff < 0 then
    if ms.annotations.lookup DisableMachineCreateAnnotation = some "true" then .none
    else .create (-diff).toNat
  else if diff > 0 then
    -- machines moved here and not yet acknowledged are not in `spec.replicas` yet
    let notAcknowledgeMoveReplicas :=
      if (nonEmptyAnnotationValue ms.annotations
          MachineSetReceiveMachinesFromMachineSetsAnnotation).isSome then
        (machines.filter ( hasAnnotation · PendingAcknowledgeMoveAnnotation)).map (·.name) |>.dedup
      else []
    let machinesToDeleteOrMove : Int :=
      machines.length - notAcknowledgeMoveReplicas.length - ms.replicas
    if machinesToDeleteOrMove = 0 then .none
    else match nonEmptyAnnotationValue ms.annotations MachineSetMoveMachinesToMachineSetAnnotation with
      | some targetMSName =>
        startMoveMachines S Exp w ms machines targetMSName machinesToDeleteOrMove.toNat
      | none => deleteMachines S Exp w ms machines machinesToDeleteOrMove.toNat
  else .none

def newMachine (ms : MachineSetObject) (now : Int) (name : String) : ControlledMachine :=
  ⟨⟨name, now, none, ms.templateAnnotations, "", []⟩, ms.name⟩

/-! ### The reconcilers -/

inductive Event
  /-- A planner reconcile, with the machines it acknowledged. -/
  | plan (acknowledged : List String)
  /-- A reconcile of a MachineSet: whether it was receiving machines, the machines whose
  `pending-acknowledge-move` it dropped, and the MachineSet it moved machines to, with their
  names. -/
  | sync (machineSet : String) (receiving : Bool) (dropped : List String) (target : String)
      (moved : List String)
  | other
  deriving DecidableEq, Repr

/-- A reconcile of the MachineSet `ms`, in the order of its phases: `triggerInPlaceUpdate`, then
`syncReplicas` on the machines as the first phase left them in memory. `completed` says which
in-place triggers reach the API (`completeMoveMachine` and the patch succeed), `patched` which
deletes and move patches do, and `created` names the machines `createMachines` manages to create
before it stops. -/
def reconcileMachineSet (w : World) (ms : MachineSetObject) (completed patched : String → Bool)
    (created : List String) : World × Event :=
  let machines := w.machinesOf ms.name
  let triggered (m : Machine) := triggerInPlaceUpdateMachine ms (completed m.name) m
  let w₁ : World := { w with machines := w.machines.map fun cm =>
    if cm.controller = ms.name then { cm with machine := (triggered cm.machine).2 } else cm }
  let receiving :=
    (nonEmptyAnnotationValue ms.annotations MachineSetReceiveMachinesFromMachineSetsAnnotation).isSome
  let dropped := (machines.filter fun m => hasAnnotation m PendingAcknowledgeMoveAnnotation &&
    ! hasAnnotation (triggered m).2 PendingAcknowledgeMoveAnnotation).map (·.name)
  match syncReplicas S Exp w ms (machines.map fun m => (triggered m).1) with
  | .create machinesToAdd =>
    ({ w₁ with machines := w₁.machines ++ (created.take machinesToAdd).map (newMachine ms w.now) },
      .sync ms.name receiving dropped "" [])
  | .delete picked =>
    ({ w₁ with machines := w₁.machines.map fun cm =>
        if cm.controller = ms.name ∧ cm.machine.name ∈ picked.map (·.name) ∧
            IsZero cm.machine.deletionTimestamp = true ∧ patched cm.machine.name = true
        then { cm with machine := { cm.machine with deletionTimestamp := some w.now } } else cm },
      .sync ms.name receiving dropped "" [])
  | .move target moved =>
    let movedNames := (moved.map (·.name)).filter patched
    ({ w₁ with machines := w₁.machines.map fun cm =>
        if cm.controller = ms.name ∧ cm.machine.name ∈ movedNames then ⟨moveMachine cm.machine, target⟩
        else cm },
      .sync ms.name receiving dropped target movedNames)
  | _ => (w₁, .sync ms.name receiving dropped "" [])

def reconcileReplicasPendingAcknowledgeMove (originalMS : MachineSetObject)
    (machines : List Machine) : List String × List String :=
  let oldAcknowledgeMoveReplicas := annotationNames originalMS.annotations AcknowledgedMoveAnnotation
  let pending := machines.filter ( hasAnnotation · PendingAcknowledgeMoveAnnotation)
  ((pending.filter (·.name ∉ oldAcknowledgeMoveReplicas)).map (·.name), (pending.map (·.name)).dedup)

def withoutPlannerAnnotations (annotations : List (String × String)) : List (String × String) :=
  deleteAnnotationKey (deleteAnnotationKey (deleteAnnotationKey annotations AcknowledgedMoveAnnotation)
    MachineSetReceiveMachinesFromMachineSetsAnnotation) MachineSetMoveMachinesToMachineSetAnnotation

def writeNewMS (newMS : MachineSetObject) (scaleIntent : Option Int)
    (acknowledged pending candidates : List String) : MachineSetObject :=
  let annotations := withoutPlannerAnnotations newMS.annotations
  let annotations := if pending = [] then annotations
    else setAnnotationValue annotations AcknowledgedMoveAnnotation (sortAndJoin pending)
  let annotations := if candidates = [] then annotations
    else setAnnotationValue annotations MachineSetReceiveMachinesFromMachineSetsAnnotation
      (sortAndJoin candidates)
  { newMS with replicas := scaleIntent.getD (newMS.replicas + acknowledged.length), annotations }

def writeOldMS (newMSName : String) (oldMS : MachineSetObject) (scaleIntent : Option Int)
    (candidates : List String) : MachineSetObject :=
  let annotations := withoutPlannerAnnotations oldMS.annotations
  { oldMS with
    replicas := scaleIntent.getD oldMS.replicas
    annotations := if oldMS.name ∈ candidates then
      setAnnotationValue annotations MachineSetMoveMachinesToMachineSetAnnotation newMSName
    else annotations }

def writeMachineSet (newMSName : String) (scaleIntents : String → Option Int)
    (acknowledged pending candidates : List String) (written : String → Bool)
    (ms : MachineSetObject) : MachineSetObject :=
  if ms.name = newMSName then writeNewMS ms (scaleIntents ms.name) acknowledged pending candidates
  else if written ms.name then writeOldMS newMSName ms (scaleIntents ms.name) candidates
  else ms

/-- A planner reconcile whose write of the new MachineSet succeeds: it acknowledges the machines
moved to the new MachineSet, then writes it and those old MachineSets it gets to (`written`)
with the scale intents and in-place candidates the rest of `planRollingUpdate` decided. -/
def plannerReconcile (newMSName : String) (w : World) (scaleIntents : String → Option Int)
    (candidates : List String) (written : String → Bool) : World × Event :=
  match w.machineSet newMSName with
  | none => (w, .plan [])
  | some originalMS =>
    let acknowledgeMove :=
      reconcileReplicasPendingAcknowledgeMove originalMS (w.machinesOf newMSName)
    ({ w with machineSets := w.machineSets.map (writeMachineSet newMSName scaleIntents
        acknowledgeMove.1 acknowledgeMove.2 candidates written) },
      .plan acknowledgeMove.1)

variable (newMS : String)

/-- The steps of the system around the new MachineSet `newMS`: planner reconciles; MachineSet
reconciles, which create machines under new
names; changes to a machine by others (the Machine controller finishing an update, a deletion,
a health check), which leave `pending-acknowledge-move` to the handshake; the end of a deletion;
time passing. -/
inductive Step : World → Event → World → Prop
  | plan {w : World} (scaleIntents : String → Option Int) (candidates : List String)
      (written : String → Bool) :
      Step w (plannerReconcile newMS w scaleIntents candidates written).2
        (plannerReconcile newMS w scaleIntents candidates written).1
  | sync {w : World} {ms : MachineSetObject} (hms : w.machineSet ms.name = some ms)
      (completed patched : String → Bool) (created : List String)
      (hfresh : ∀ n ∈ created, n ∉ w.names ∧ n ∉ w.retired ∧ validName n)
      (hnodup : created.Nodup) :
      Step w (reconcileMachineSet S Exp w ms completed patched created).2
        (reconcileMachineSet S Exp w ms completed patched created).1
  | machineChanges {w : World} {cm cm' : ControlledMachine} (hcm : cm ∈ w.machines)
      (hname : cm'.machine.name = cm.machine.name) (hcontroller : cm'.controller = cm.controller)
      (hpending : hasAnnotation cm'.machine PendingAcknowledgeMoveAnnotation =
        hasAnnotation cm.machine PendingAcknowledgeMoveAnnotation) :
      Step w .other { w with machines := w.machines.map fun x => if x = cm then cm' else x }
  | deletionCompletes {w : World} {cm : ControlledMachine} (hcm : cm ∈ w.machines)
      (hdel : IsZero cm.machine.deletionTimestamp = false) :
      Step w .other { w with
        machines := w.machines.erase cm
        retired := w.retired ++ [cm.machine.name] }
  | tick {w : World} (t : Int) (h : w.now ≤ t) : Step w .other { w with now := t }

/-! ### Annotations -/

section Annotations

variable {annotations : List (String × String)} {key key' value : String}

theorem nonEmptyAnnotationValue_of_lookup_none (h : annotations.lookup key = none) :
    nonEmptyAnnotationValue annotations key = none := by
  simp [nonEmptyAnnotationValue, h]

theorem annotationNames_of_lookup_sortAndJoin {l : List String}
    (h : annotations.lookup key = some (sortAndJoin l)) (hl : ∀ n ∈ l, validName n) :
    annotationNames annotations key = l.insertionSort (· ≤ ·) := by
  by_cases hnil : l = []
  · subst hnil
    simp [annotationNames, nonEmptyAnnotationValue, h, sortAndJoin]
  have hmem : ∀ n, n ∈ l.insertionSort (· ≤ ·) → validName n := fun n hn =>
    hl n ((List.perm_insertionSort _ _).mem_iff.mp hn)
  have hsplit : Split (sortAndJoin l) ',' = l.insertionSort (· ≤ ·) :=
    Split_intercalate_strings rfl (by simpa [← List.length_pos_iff] using hnil)
      fun n hn => (hmem n hn).2
  -- the joined list is not empty: splitting `""` gives `[""]`, and no name is empty
  have hne : sortAndJoin l ≠ "" := by
    intro hempty
    rw [hempty] at hsplit
    have hempty_mem : "" ∈ l.insertionSort (· ≤ ·) := by
      rw [← hsplit]
      decide
    exact (hmem "" hempty_mem).1 rfl
  simp [annotationNames, nonEmptyAnnotationValue, h, hne, hsplit]

end Annotations

theorem PendingAcknowledgeMove_ne_PendingHooks :
    PendingAcknowledgeMoveAnnotation ≠ PendingHooksAnnotation := by decide

theorem MoveTo_ne_AcknowledgedMove :
    MachineSetMoveMachinesToMachineSetAnnotation ≠ AcknowledgedMoveAnnotation := by decide

theorem MoveTo_ne_Receive :
    MachineSetMoveMachinesToMachineSetAnnotation ≠
      MachineSetReceiveMachinesFromMachineSetsAnnotation := by decide

theorem AcknowledgedMove_ne_Receive :
    AcknowledgedMoveAnnotation ≠ MachineSetReceiveMachinesFromMachineSetsAnnotation := by decide

/-! ### One machine through a reconcile -/

section Machines

variable {ms : MachineSetObject} {machine dropped : Machine}

@[simp]
theorem moveMachine_name : (moveMachine machine).name = machine.name := rfl

theorem hasAnnotation_MarkObjectAsPending {hookNames : List String} {key : String}
    (hkey : key ≠ PendingHooksAnnotation) :
    hasAnnotation { machine with annotations := (MarkObjectAsPending machine.annotations hookNames).1 }
      key = hasAnnotation machine key := by
  rw [ hasAnnotation, hasAnnotation, lookup_MarkObjectAsPending hkey]

theorem dropPendingAcknowledgeMove_name
    (h : dropPendingAcknowledgeMove ms machine = some dropped) : dropped.name = machine.name := by
  unfold dropPendingAcknowledgeMove at h
  split_ifs at h <;> cases h <;> rfl

theorem pending_of_dropPendingAcknowledgeMove
    (h : dropPendingAcknowledgeMove ms machine = some dropped)
    (hpending : hasAnnotation dropped PendingAcknowledgeMoveAnnotation = true) :
    hasAnnotation machine PendingAcknowledgeMoveAnnotation = true := by
  unfold dropPendingAcknowledgeMove at h
  split_ifs at h <;> cases h <;> simp_all [ hasAnnotation]

theorem mem_acknowledgedMove_of_dropPendingAcknowledgeMove
    (h : dropPendingAcknowledgeMove ms machine = some dropped)
    (hpending : hasAnnotation machine PendingAcknowledgeMoveAnnotation = true)
    (hreceiving : (nonEmptyAnnotationValue ms.annotations
      MachineSetReceiveMachinesFromMachineSetsAnnotation).isSome = true) :
    machine.name ∈ annotationNames ms.annotations AcknowledgedMoveAnnotation := by
  unfold dropPendingAcknowledgeMove at h
  split_ifs at h
  simp_all

variable {completed : Bool}

@[simp]
theorem triggerInPlaceUpdateMachine_fst_name :
    (triggerInPlaceUpdateMachine ms completed machine).1.name = machine.name := by
  unfold triggerInPlaceUpdateMachine
  split
  · rfl
  · rename_i h
    split <;> simp [dropPendingAcknowledgeMove_name h]

@[simp]
theorem triggerInPlaceUpdateMachine_snd_name :
    (triggerInPlaceUpdateMachine ms completed machine).2.name = machine.name := by
  unfold triggerInPlaceUpdateMachine
  split
  · rfl
  · rename_i h
    split <;> simp [dropPendingAcknowledgeMove_name h]

theorem pending_of_triggerInPlaceUpdateMachine
    (hpending : hasAnnotation (triggerInPlaceUpdateMachine ms completed machine).2
      PendingAcknowledgeMoveAnnotation = true) :
    hasAnnotation machine PendingAcknowledgeMoveAnnotation = true := by
  unfold triggerInPlaceUpdateMachine at hpending
  split at hpending
  · exact hpending
  · rename_i h
    split at hpending
    · rw [hasAnnotation_MarkObjectAsPending PendingAcknowledgeMove_ne_PendingHooks] at hpending
      exact pending_of_dropPendingAcknowledgeMove h hpending
    · exact hpending

theorem mem_acknowledgedMove_of_triggerInPlaceUpdateMachine
    (hpending : hasAnnotation machine PendingAcknowledgeMoveAnnotation = true)
    (hdropped : hasAnnotation (triggerInPlaceUpdateMachine ms completed machine).2
      PendingAcknowledgeMoveAnnotation = false)
    (hreceiving : (nonEmptyAnnotationValue ms.annotations
      MachineSetReceiveMachinesFromMachineSetsAnnotation).isSome = true) :
    machine.name ∈ annotationNames ms.annotations AcknowledgedMoveAnnotation := by
  unfold triggerInPlaceUpdateMachine at hdropped
  split at hdropped
  · simp_all
  · rename_i h
    exact mem_acknowledgedMove_of_dropPendingAcknowledgeMove h hpending hreceiving

/-- A machine whose update `triggerInPlaceUpdate` starts has its `UpdateMachine` hook pending, so
no later reconcile of any MachineSet triggers it again. -/
theorem dropPendingAcknowledgeMove_triggered (ms' : MachineSetObject)
    (h : dropPendingAcknowledgeMove ms machine = some dropped) :
    dropPendingAcknowledgeMove ms' (triggerInPlaceUpdateMachine ms true machine).1 = none := by
  have hpending : IsPending "UpdateMachine"
      (MarkObjectAsPending dropped.annotations ["UpdateMachine"]).1 = true := by
    rw [IsPending_iff (by decide), pendingHooks_MarkObjectAsPending (by decide)]
    simp
  unfold triggerInPlaceUpdateMachine
  rw [h]
  unfold dropPendingAcknowledgeMove
  simp [hpending]

end Machines

/-! ### Looking objects up -/

namespace World

variable {w : World}

theorem mem_machinesOf {name : String} {m : Machine} :
    m ∈ w.machinesOf name ↔ ∃ cm ∈ w.machines, cm.controller = name ∧ cm.machine = m := by
  simp [machinesOf, and_assoc]

theorem machineSet_spec {name : String} {ms : MachineSetObject}
    (h : w.machineSet name = some ms) : ms ∈ w.machineSets ∧ ms.name = name := by
  unfold machineSet at h
  exact ⟨List.mem_of_find?_eq_some h, by simpa using List.find?_some h⟩

theorem mem_names_of_mem {cm : ControlledMachine} (hcm : cm ∈ w.machines) :
    cm.machine.name ∈ w.names :=
  List.mem_map_of_mem hcm

theorem machineSet_map {f : MachineSetObject → MachineSetObject}
    (hf : ∀ ms, (f ms).name = ms.name) (name : String) :
    ({ w with machineSets := w.machineSets.map f } : World).machineSet name =
      (w.machineSet name).map f := by
  simp only [machineSet, List.find?_map, Function.comp_def, hf]

theorem eq_of_name_eq (hnodup : w.names.Nodup) {cm₁ cm₂ : ControlledMachine}
    (h₁ : cm₁ ∈ w.machines) (h₂ : cm₂ ∈ w.machines) (h : cm₁.machine.name = cm₂.machine.name) :
    cm₁ = cm₂ :=
  List.inj_on_of_nodup_map hnodup h₁ h₂ h

end World

/-! ### What a reconcile of a MachineSet does -/

section Reconcile

variable {w : World} {ms : MachineSetObject} {machines : List Machine} {target : String}
  {moved : List Machine}

theorem deleteMachines_ne_move {machinesToDelete : Nat} :
    deleteMachines S Exp w ms machines machinesToDelete ≠ .move target moved := by
  unfold deleteMachines
  split <;> simp

theorem startMoveMachines_target {targetMSName : String} {machinesToMove : Nat}
    (h : startMoveMachines S Exp w ms machines targetMSName machinesToMove = .move target moved) :
    ∃ targetMS, w.machineSet targetMSName = some targetMS ∧ target = targetMS.name := by
  unfold startMoveMachines at h
  split at h
  · cases h
  · rename_i targetMS htarget
    refine ⟨targetMS, htarget, ?_⟩
    dsimp only at h
    split_ifs at h
    split at h
    · cases h
    · split_ifs at h
      cases h
      rfl

theorem syncReplicas_move (h : syncReplicas S Exp w ms machines = .move target moved) :
    ∃ targetMSName targetMS,
      nonEmptyAnnotationValue ms.annotations MachineSetMoveMachinesToMachineSetAnnotation =
        some targetMSName ∧ w.machineSet targetMSName = some targetMS ∧ target = targetMS.name := by
  unfold syncReplicas at h
  dsimp only at h
  split_ifs at h
  all_goals
    split at h
    · rename_i targetMSName hmove
      obtain ⟨targetMS, htarget, rfl⟩ := startMoveMachines_target S Exp h
      exact ⟨targetMSName, targetMS, hmove, htarget, rfl⟩
    · exact absurd h (deleteMachines_ne_move S Exp)

theorem foldl_startMoveMachinesStep (l : List Machine) (machinesToMove : Nat) :
    (l.foldl startMoveMachinesStep (machinesToMove, [])).2.length +
        (l.foldl startMoveMachinesStep (machinesToMove, [])).1 ≤ machinesToMove ∧
      ∀ m ∈ (l.foldl startMoveMachinesStep (machinesToMove, [])).2, m ∈ l ∧
        IsUpdateInProgress m = false ∧ IsZero m.deletionTimestamp = true := by
  apply foldl_invariant (fun acc : Nat × List Machine => acc.2.length + acc.1 ≤ machinesToMove ∧
    ∀ m ∈ acc.2, m ∈ l ∧ IsUpdateInProgress m = false ∧ IsZero m.deletionTimestamp = true)
  · simp
  · rintro ⟨budget, moved⟩ x hx ⟨hbudget, hmoved⟩
    dsimp only [startMoveMachinesStep] at hbudget hmoved ⊢
    split_ifs with hzero hupdating hdeleting
    · exact ⟨hbudget, hmoved⟩
    · exact ⟨hbudget, hmoved⟩
    · -- a machine being deleted costs budget and is not moved
      exact ⟨by dsimp only; omega, hmoved⟩
    · refine ⟨by simp only [List.length_append, List.length_singleton]; omega, ?_⟩
      intro m hm
      rcases List.mem_append.mp hm with hm | hm
      · exact hmoved m hm
      · obtain rfl := List.mem_singleton.mp hm
        exact ⟨hx, by simpa using hupdating, by simpa using hdeleting⟩

/-- `startMoveMachines` moves no more machines than asked, each a machine of the MachineSet that
is neither updating in place nor being deleted, and only to a MachineSet that lists the source
in `receive-machines-from-machinesets`. -/
theorem startMoveMachines_moved (hS : S.Lawful) {targetMSName : String} {machinesToMove : Nat}
    (h : startMoveMachines S Exp w ms machines targetMSName machinesToMove = .move target moved) :
    moved.length ≤ machinesToMove ∧
      (∀ m ∈ moved, m ∈ machines ∧ IsUpdateInProgress m = false ∧
        IsZero m.deletionTimestamp = true) ∧
      ∃ targetMS, w.machineSet targetMSName = some targetMS ∧ target = targetMS.name ∧
        ms.name ∈ Split ((targetMS.annotations.lookup
          MachineSetReceiveMachinesFromMachineSetsAnnotation).getD "") ',' := by
  unfold startMoveMachines at h
  split at h
  · cases h
  rename_i targetMS htarget
  dsimp only at h
  split_ifs at h with hsource
  split at h
  · cases h
  rename_i priority _
  split_ifs at h
  cases h
  obtain ⟨hbudget, hmoved⟩ :=
    foldl_startMoveMachinesStep (getMachinesToMovePrioritized S machines priority) machinesToMove
  refine ⟨by omega, fun m hm => ?_, targetMS, htarget, rfl, hsource⟩
  obtain ⟨hmem, hupdating, hdeleting⟩ := hmoved m hm
  rw [getMachinesToMovePrioritized, getMachinesToDeletePrioritized_eq_take hS] at hmem
  exact ⟨hS.mem_sort.mp (List.mem_of_mem_take hmem), hupdating, hdeleting⟩

theorem startMoveMachines_moved_sample :
    let machine : Machine := ⟨"m1", 1, none, [], "", []⟩
    let source : MachineSetObject := ⟨"ms-old", 0, "Random", [], [], some "old"⟩
    let w : World := ⟨[source, ⟨"ms-new", 0, "Random",
      [( MachineSetReceiveMachinesFromMachineSetsAnnotation, "ms-old")], [], some "new"⟩], [], 0, []⟩
    startMoveMachines Sorter.sample (fun _ => 1) w source [machine] "ms-new" 1 =
        .move "ms-new" [machine] ∧
      [machine].length ≤ 1 ∧
      (∀ m ∈ [machine], m ∈ [machine] ∧ IsUpdateInProgress m = false ∧
        IsZero m.deletionTimestamp = true) ∧
      ∃ targetMS, w.machineSet "ms-new" = some targetMS ∧ "ms-new" = targetMS.name ∧
        source.name ∈ Split ((targetMS.annotations.lookup
          MachineSetReceiveMachinesFromMachineSetsAnnotation).getD "") ',' := by
  intro machine source w
  have h : startMoveMachines Sorter.sample (fun _ => 1) w source [machine] "ms-new" 1 =
      .move "ms-new" [machine] := by decide
  exact ⟨h, startMoveMachines_moved Sorter.sample (fun _ => 1) Sorter.sample_lawful h⟩

def MachineFollows (ms target : String) (moved : List String) (cm cm' : ControlledMachine) :
    Prop :=
  cm'.machine.name = cm.machine.name ∧
    ((cm'.controller = cm.controller ∧
        ( hasAnnotation cm'.machine PendingAcknowledgeMoveAnnotation = true →
          hasAnnotation cm.machine PendingAcknowledgeMoveAnnotation = true)) ∨
      (cm.controller = ms ∧ cm'.controller = target ∧ cm.machine.name ∈ moved))

theorem MachineFollows.refl {ms target : String} {moved : List String} (cm : ControlledMachine) :
    MachineFollows ms target moved cm cm :=
  ⟨rfl, .inl ⟨rfl, id⟩⟩

theorem reconcileMachineSet_spec (completed patched : String → Bool) (created : List String) :
    ∃ (dropped : List String) (target : String) (moved : List String) (k : Nat)
      (g : ControlledMachine → ControlledMachine),
      reconcileMachineSet S Exp w ms completed patched created =
        ({ w with machines := w.machines.map g ++ (created.take k).map (newMachine ms w.now) },
          .sync ms.name (nonEmptyAnnotationValue ms.annotations
            MachineSetReceiveMachinesFromMachineSetsAnnotation).isSome dropped target moved) ∧
      ((nonEmptyAnnotationValue ms.annotations
          MachineSetReceiveMachinesFromMachineSetsAnnotation).isSome = true →
        ∀ n ∈ dropped, n ∈ annotationNames ms.annotations AcknowledgedMoveAnnotation) ∧
      (moved ≠ [] → ∃ targetMSName targetMS,
        nonEmptyAnnotationValue ms.annotations MachineSetMoveMachinesToMachineSetAnnotation =
          some targetMSName ∧ w.machineSet targetMSName = some targetMS ∧ target = targetMS.name) ∧
      ∀ cm, MachineFollows ms.name target moved cm (g cm) := by
  let trigger (cm : ControlledMachine) : ControlledMachine :=
    if cm.controller = ms.name then
      { cm with machine := (triggerInPlaceUpdateMachine ms (completed cm.machine.name) cm.machine).2 }
    else cm
  have htrigger : ∀ cm, (trigger cm).machine.name = cm.machine.name ∧
      (trigger cm).controller = cm.controller ∧
      ( hasAnnotation (trigger cm).machine PendingAcknowledgeMoveAnnotation = true →
        hasAnnotation cm.machine PendingAcknowledgeMoveAnnotation = true) := by
    intro cm
    by_cases hcm : cm.controller = ms.name
    · simp only [trigger, if_pos hcm, triggerInPlaceUpdateMachine_snd_name, true_and]
      exact pending_of_triggerInPlaceUpdateMachine
    · simp [trigger, hcm]
  have hkept : ∀ target moved cm, MachineFollows ms.name target moved cm (trigger cm) :=
    fun _ _ cm => ⟨(htrigger cm).1, .inl (htrigger cm).2⟩
  have hdropped : (nonEmptyAnnotationValue ms.annotations
      MachineSetReceiveMachinesFromMachineSetsAnnotation).isSome = true →
      ∀ n ∈ ((w.machinesOf ms.name).filter fun m =>
        hasAnnotation m PendingAcknowledgeMoveAnnotation &&
          ! hasAnnotation (triggerInPlaceUpdateMachine ms (completed m.name) m).2
            PendingAcknowledgeMoveAnnotation).map (·.name),
        n ∈ annotationNames ms.annotations AcknowledgedMoveAnnotation := by
    intro hreceiving n hn
    obtain ⟨m, hm, rfl⟩ := List.mem_map.mp hn
    simp only [List.mem_filter, Bool.and_eq_true, Bool.not_eq_true'] at hm
    exact mem_acknowledgedMove_of_triggerInPlaceUpdateMachine hm.2.1 hm.2.2 hreceiving
  simp only [reconcileMachineSet]
  split
  · rename_i machinesToAdd _
    exact ⟨_, "", [], machinesToAdd, trigger, rfl, hdropped, by simp, hkept "" []⟩
  · -- `deleteMachines` sets the deletion timestamp, which the handshake does not read
    rename_i picked _
    let delete (cm : ControlledMachine) : ControlledMachine :=
      if cm.controller = ms.name ∧ cm.machine.name ∈ picked.map (·.name) ∧
          IsZero cm.machine.deletionTimestamp = true ∧ patched cm.machine.name = true
      then { cm with machine := { cm.machine with deletionTimestamp := some w.now } } else cm
    have hdelete : ∀ cm, (delete cm).machine.name = cm.machine.name ∧
        (delete cm).controller = cm.controller ∧
        (delete cm).machine.annotations = cm.machine.annotations := by
      intro cm
      simp only [delete]
      split_ifs <;> simp
    refine ⟨_, "", [], 0, fun cm => delete (trigger cm), ?_, hdropped, by simp, fun cm => ?_⟩
    · simp only [List.take_zero, List.map_nil, List.append_nil, List.map_map]
      rfl
    · obtain ⟨hname, hcontroller, hpending⟩ := htrigger cm
      obtain ⟨hname', hcontroller', hannotations⟩ := hdelete (trigger cm)
      refine ⟨hname'.trans hname, .inl ⟨hcontroller'.trans hcontroller, fun h => hpending ?_⟩⟩
      simpa only [ hasAnnotation, hannotations] using h
  · -- `startMoveMachines` hands the machines whose patch succeeds to the target
    rename_i target moved haction
    let movedNames := (moved.map (·.name)).filter patched
    let move (cm : ControlledMachine) : ControlledMachine :=
      if cm.controller = ms.name ∧ cm.machine.name ∈ movedNames then
        ⟨moveMachine cm.machine, target⟩
      else cm
    refine ⟨_, target, movedNames, 0, fun cm => move (trigger cm), ?_, hdropped,
      fun _ => syncReplicas_move S Exp haction, fun cm => ?_⟩
    · simp only [List.take_zero, List.map_nil, List.append_nil, List.map_map]
      rfl
    · obtain ⟨hname, hcontroller, -⟩ := htrigger cm
      by_cases hmove : (trigger cm).controller = ms.name ∧ (trigger cm).machine.name ∈ movedNames
      · simp only [move, if_pos hmove]
        exact ⟨hname, .inr ⟨hcontroller ▸ hmove.1, rfl, hname ▸ hmove.2⟩⟩
      · simp only [move, if_neg hmove]
        exact hkept _ _ cm
  · refine ⟨_, "", [], 0, trigger, ?_, hdropped, by simp, hkept "" []⟩
    simp only [List.take_zero, List.map_nil, List.append_nil]
    rfl

end Reconcile

/-! ### What a planner reconcile does -/

section Planner

variable {newMSName : String} {scaleIntents : String → Option Int}
  {acknowledged pending candidates : List String} {written : String → Bool}
  {ms : MachineSetObject}

@[simp]
theorem writeMachineSet_name :
    (writeMachineSet newMSName scaleIntents acknowledged pending candidates written ms).name =
      ms.name := by
  unfold writeMachineSet
  split_ifs <;> rfl

@[simp]
theorem writeMachineSet_templateAnnotations :
    (writeMachineSet newMSName scaleIntents acknowledged pending candidates written
      ms).templateAnnotations = ms.templateAnnotations := by
  unfold writeMachineSet
  split_ifs <;> rfl

theorem lookup_writeNewMS_acknowledgedMove {scaleIntent : Option Int} :
    (writeNewMS ms scaleIntent acknowledged pending candidates).annotations.lookup
        AcknowledgedMoveAnnotation =
      if pending = [] then none else some (sortAndJoin pending) := by
  unfold writeNewMS withoutPlannerAnnotations
  split_ifs <;> simp [AcknowledgedMove_ne_Receive, MoveTo_ne_AcknowledgedMove.symm]

theorem annotationNames_writeNewMS {scaleIntent : Option Int}
    (hvalid : ∀ n ∈ pending, validName n) :
    annotationNames (writeNewMS ms scaleIntent acknowledged pending candidates).annotations
        AcknowledgedMoveAnnotation = pending.insertionSort (· ≤ ·) := by
  by_cases hnil : pending = []
  · subst hnil
    simp [annotationNames, nonEmptyAnnotationValue, lookup_writeNewMS_acknowledgedMove]
  · exact annotationNames_of_lookup_sortAndJoin
      (by rw [lookup_writeNewMS_acknowledgedMove, if_neg hnil]) hvalid

theorem writeMachineSet_moveTo {targetName : String}
    (h : nonEmptyAnnotationValue (writeMachineSet newMSName scaleIntents acknowledged pending
      candidates written ms).annotations MachineSetMoveMachinesToMachineSetAnnotation =
        some targetName) :
    (targetName = newMSName ∧ ms.name ≠ newMSName) ∨
      nonEmptyAnnotationValue ms.annotations MachineSetMoveMachinesToMachineSetAnnotation =
        some targetName := by
  unfold writeMachineSet at h
  split_ifs at h with hnew hwritten
  · -- the new MachineSet is written without the annotation
    rw [nonEmptyAnnotationValue_of_lookup_none (by
      unfold writeNewMS withoutPlannerAnnotations
      split_ifs <;> simp [MoveTo_ne_AcknowledgedMove, MoveTo_ne_Receive])] at h
    cases h
  · unfold writeOldMS withoutPlannerAnnotations at h
    split_ifs at h
    · left
      simp only [nonEmptyAnnotationValue, lookup_setAnnotationValue, if_true] at h
      split_ifs at h
      exact ⟨(Option.some.inj h).symm, hnew⟩
    · rw [nonEmptyAnnotationValue_of_lookup_none (by simp)] at h
      cases h
  · exact .inr h

theorem mem_reconcileReplicasPendingAcknowledgeMove_snd {originalMS : MachineSetObject}
    {machines : List Machine} {n : String} :
    n ∈ (reconcileReplicasPendingAcknowledgeMove originalMS machines).2 ↔
      ∃ m ∈ machines, hasAnnotation m PendingAcknowledgeMoveAnnotation = true ∧ m.name = n := by
  simp [reconcileReplicasPendingAcknowledgeMove, and_assoc]

theorem mem_reconcileReplicasPendingAcknowledgeMove_fst {originalMS : MachineSetObject}
    {machines : List Machine} {n : String} :
    n ∈ (reconcileReplicasPendingAcknowledgeMove originalMS machines).1 ↔
      (∃ m ∈ machines, hasAnnotation m PendingAcknowledgeMoveAnnotation = true ∧ m.name = n) ∧
        n ∉ annotationNames originalMS.annotations AcknowledgedMoveAnnotation := by
  simp only [reconcileReplicasPendingAcknowledgeMove, List.mem_map, List.mem_filter,
    decide_eq_true_eq]
  constructor
  · rintro ⟨m, ⟨⟨hm, hpending⟩, hold⟩, rfl⟩
    exact ⟨⟨m, hm, hpending, rfl⟩, hold⟩
  · rintro ⟨⟨m, hm, hpending, rfl⟩, hold⟩
    exact ⟨m, ⟨⟨hm, hpending⟩, hold⟩, rfl⟩

theorem reconcileReplicasPendingAcknowledgeMove_nodup {originalMS : MachineSetObject}
    {machines : List Machine} (hnodup : (machines.map (·.name)).Nodup) :
    (reconcileReplicasPendingAcknowledgeMove originalMS machines).1.Nodup :=
  hnodup.sublist (((List.filter_sublist).trans List.filter_sublist).map _)

end Planner

/-! ### The handshake over whole runs

The trace says which machines the planner acknowledged and which machines MachineSets moved to
the new MachineSet; the invariant ties these to the state. Moved machines wait in the new
MachineSet until acknowledged, every name `acknowledged-move` lists has been acknowledged, and
an acknowledged machine that still waits is listed there, so the next planner reconcile does not
count it again. -/

def Event.acknowledged : Event → List String
  | .plan acknowledged => acknowledged
  | _ => []

def Event.movedTo (target : String) : Event → List String
  | .sync _ _ _ moveTarget moved => if moveTarget = target then moved else []
  | _ => []

section EventReaders

variable {target : String}

@[simp] theorem Event.acknowledged_plan (acknowledged : List String) :
    (Event.plan acknowledged).acknowledged = acknowledged := rfl

@[simp] theorem Event.acknowledged_sync {machineSet moveTarget : String} {receiving : Bool}
    {dropped moved : List String} :
    (Event.sync machineSet receiving dropped moveTarget moved).acknowledged = [] := rfl

@[simp] theorem Event.acknowledged_other : Event.other.acknowledged = [] := rfl

@[simp] theorem Event.movedTo_plan (acknowledged : List String) :
    (Event.plan acknowledged).movedTo target = [] := rfl

@[simp] theorem Event.movedTo_sync {machineSet moveTarget : String} {receiving : Bool}
    {dropped moved : List String} :
    (Event.sync machineSet receiving dropped moveTarget moved).movedTo target =
      if moveTarget = target then moved else [] := rfl

@[simp] theorem Event.movedTo_other : Event.other.movedTo target = [] := rfl

end EventReaders

def acknowledgedIn (evs : List Event) : List String := evs.flatMap Event.acknowledged

def movedIn (target : String) (evs : List Event) : List String := evs.flatMap (Event.movedTo target)

@[simp]
theorem acknowledgedIn_nil : acknowledgedIn [] = [] := rfl

@[simp]
theorem acknowledgedIn_append (evs evs' : List Event) :
    acknowledgedIn (evs ++ evs') = acknowledgedIn evs ++ acknowledgedIn evs' := by
  simp [acknowledgedIn]

@[simp]
theorem acknowledgedIn_singleton (e : Event) : acknowledgedIn [e] = e.acknowledged := by
  simp [acknowledgedIn]

@[simp]
theorem movedIn_append (target : String) (evs evs' : List Event) :
    movedIn target (evs ++ evs') = movedIn target evs ++ movedIn target evs' := by
  simp [movedIn]

@[simp]
theorem movedIn_singleton (target : String) (e : Event) :
    movedIn target [e] = e.movedTo target := by
  simp [movedIn]

def World.acknowledgedMove (w : World) : List String :=
  ((w.machineSet newMS).map fun ms => annotationNames ms.annotations AcknowledgedMoveAnnotation).getD []

/-- What holds at every point of a run, of the state and the trace so far. -/
structure Invariant (w : World) (evs : List Event) : Prop where
  names_nodup : w.names.Nodup
  names_valid : ∀ n ∈ w.names, validName n
  retired : ∀ n ∈ w.retired, n ∉ w.names
  /-- Only old MachineSets move machines, and only to the new one. -/
  moveTo : ∀ ms ∈ w.machineSets, ∀ target : String,
    nonEmptyAnnotationValue ms.annotations MachineSetMoveMachinesToMachineSetAnnotation =
      some target → target = newMS ∧ ms.name ≠ newMS
  templates : ∀ ms ∈ w.machineSets,
    ms.templateAnnotations.lookup PendingAcknowledgeMoveAnnotation = none
  /-- A machine waiting for acknowledgement was moved to the new MachineSet and is in it. -/
  pending : ∀ cm ∈ w.machines, hasAnnotation cm.machine PendingAcknowledgeMoveAnnotation = true →
    cm.controller = newMS ∧ cm.machine.name ∈ movedIn newMS evs
  listed : ∀ n ∈ w.acknowledgedMove newMS, n ∈ acknowledgedIn evs
  /-- An acknowledged machine is gone, or is in the new MachineSet and listed while it waits. -/
  acknowledged : ∀ n ∈ acknowledgedIn evs, n ∈ w.retired ∨
    ∃ cm ∈ w.machines, cm.machine.name = n ∧ cm.controller = newMS ∧
      ( hasAnnotation cm.machine PendingAcknowledgeMoveAnnotation = true →
        n ∈ w.acknowledgedMove newMS)
  nodup : (acknowledgedIn evs).Nodup
  moved : ∀ n ∈ acknowledgedIn evs, n ∈ movedIn newMS evs

structure Initial (w : World) : Prop where
  names_nodup : w.names.Nodup
  names_valid : ∀ n ∈ w.names, validName n
  retired : w.retired = []
  moveTo : ∀ ms ∈ w.machineSets,
    nonEmptyAnnotationValue ms.annotations MachineSetMoveMachinesToMachineSetAnnotation = none
  templates : ∀ ms ∈ w.machineSets,
    ms.templateAnnotations.lookup PendingAcknowledgeMoveAnnotation = none
  pending : ∀ cm ∈ w.machines, hasAnnotation cm.machine PendingAcknowledgeMoveAnnotation = false
  acknowledgedMove : w.acknowledgedMove newMS = []

variable {newMS}

theorem Initial.invariant {w : World} (h : Initial newMS w) : Invariant newMS w [] where
  names_nodup := h.names_nodup
  names_valid := h.names_valid
  retired := by simp [h.retired]
  moveTo ms hms target htarget := by simp [h.moveTo ms hms] at htarget
  templates := h.templates
  pending cm hcm hpending := by simp [h.pending cm hcm] at hpending
  listed := by simp [h.acknowledgedMove]
  acknowledged := by simp
  nodup := List.nodup_nil
  moved := by simp

section Steps

variable {w w' : World} {evs : List Event} {e : Event}

theorem World.acknowledgedMove_of_machineSets (h : w'.machineSets = w.machineSets) :
    w'.acknowledgedMove newMS = w.acknowledgedMove newMS := by
  simp [World.acknowledgedMove, World.machineSet, h]

theorem Invariant.machines_step (hinv : Invariant newMS w evs) (ms target : String)
    (moved : List String) (g : ControlledMachine → ControlledMachine)
    (fresh : List ControlledMachine)
    (hsets : w'.machineSets = w.machineSets) (hretired : w'.retired = w.retired)
    (hmachines : w'.machines = w.machines.map g ++ fresh)
    (hg : ∀ cm, MachineFollows ms target moved cm (g cm))
    (hmoved : moved ≠ [] → target = newMS ∧ ms ≠ newMS ∧ e.movedTo newMS = moved)
    (hack : e.acknowledged = [])
    (hfresh : ∀ cm ∈ fresh, cm.machine.name ∉ w.names ∧ cm.machine.name ∉ w.retired ∧
      validName cm.machine.name ∧
      hasAnnotation cm.machine PendingAcknowledgeMoveAnnotation = false)
    (hfresh_nodup : (fresh.map (·.machine.name)).Nodup) :
    Invariant newMS w' (evs ++ [e]) := by
  have hnames : w'.names = w.names ++ fresh.map (·.machine.name) := by
    simp [World.names, hmachines, Function.comp_def, fun cm => (hg cm).1]
  have hacknowledged : acknowledgedIn (evs ++ [e]) = acknowledgedIn evs := by simp [hack]
  have hmovedIn : ∀ n ∈ movedIn newMS evs, n ∈ movedIn newMS (evs ++ [e]) := by
    intro n hn
    simp [hn]
  have hlisted : w'.acknowledgedMove newMS = w.acknowledgedMove newMS :=
    World.acknowledgedMove_of_machineSets hsets
  constructor
  · rw [hnames]
    refine List.nodup_append.mpr ⟨hinv.names_nodup, hfresh_nodup, ?_⟩
    rintro a ha b hb rfl
    obtain ⟨cm, hcm, rfl⟩ := List.mem_map.mp hb
    exact (hfresh cm hcm).1 ha
  · rw [hnames]
    intro n hn
    rcases List.mem_append.mp hn with hn | hn
    · exact hinv.names_valid n hn
    · obtain ⟨cm, hcm, rfl⟩ := List.mem_map.mp hn
      exact (hfresh cm hcm).2.2.1
  · rw [hnames, hretired]
    intro n hn hmem
    rcases List.mem_append.mp hmem with hmem | hmem
    · exact hinv.retired n hn hmem
    · obtain ⟨cm, hcm, rfl⟩ := List.mem_map.mp hmem
      exact (hfresh cm hcm).2.1 hn
  · rw [hsets]
    exact hinv.moveTo
  · rw [hsets]
    exact hinv.templates
  · intro cm' hcm' hpending
    rw [hmachines] at hcm'
    rcases List.mem_append.mp hcm' with hcm' | hcm'
    · obtain ⟨cm, hcm, rfl⟩ := List.mem_map.mp hcm'
      obtain ⟨hname, ⟨hcontroller, hkept⟩ | ⟨-, htarget, hmem⟩⟩ := hg cm
      · obtain ⟨hnew, hmovedBefore⟩ := hinv.pending cm hcm (hkept hpending)
        exact ⟨hcontroller.trans hnew, hname ▸ hmovedIn _ hmovedBefore⟩
      · -- a machine moved in this step was moved to the new MachineSet
        obtain ⟨rfl, -, hmovedTo⟩ := hmoved (List.ne_nil_of_mem hmem)
        exact ⟨htarget, by simp [hname, hmovedTo, hmem]⟩
    · simp [(hfresh cm' hcm').2.2.2] at hpending
  · rw [hlisted, hacknowledged]
    exact hinv.listed
  · rw [hacknowledged, hretired, hlisted]
    intro n hn
    rcases hinv.acknowledged n hn with hgone | ⟨cm, hcm, rfl, hnew, hwaiting⟩
    · exact .inl hgone
    refine .inr ⟨g cm, by simpa [hmachines] using .inl ⟨cm, hcm, rfl⟩, (hg cm).1, ?_⟩
    obtain ⟨-, ⟨hcontroller, hkept⟩ | ⟨hms, -, hmem⟩⟩ := hg cm
    · exact ⟨hcontroller.trans hnew, fun hpending => hwaiting (hkept hpending)⟩
    · -- the new MachineSet moves no machines
      exact absurd (hms.symm.trans hnew) (hmoved (List.ne_nil_of_mem hmem)).2.1
  · rw [hacknowledged]
    exact hinv.nodup
  · rw [hacknowledged]
    exact fun n hn => hmovedIn n (hinv.moved n hn)

theorem Invariant.sync (hinv : Invariant newMS w evs) {ms : MachineSetObject}
    (hms : w.machineSet ms.name = some ms) (completed patched : String → Bool)
    (created : List String)
    (hfresh : ∀ n ∈ created, n ∉ w.names ∧ n ∉ w.retired ∧ validName n)
    (hnodup : created.Nodup) :
    Invariant newMS (reconcileMachineSet S Exp w ms completed patched created).1
      (evs ++ [(reconcileMachineSet S Exp w ms completed patched created).2]) := by
  obtain ⟨dropped, target, moved, k, g, heq, -, hmove, hg⟩ :=
    @reconcileMachineSet_spec S Exp w ms completed patched created
  rw [heq]
  have hmem := (World.machineSet_spec hms).1
  refine hinv.machines_step ms.name target moved g _ rfl rfl rfl hg ?_ rfl ?_ ?_
  · -- `ms` moves machines to what `move-machines-to-machineset` names: the new MachineSet
    intro hne
    obtain ⟨targetMSName, targetMS, hmoveTo, htarget, rfl⟩ := hmove hne
    obtain ⟨rfl, hold⟩ := hinv.moveTo ms hmem targetMSName hmoveTo
    have hname := (World.machineSet_spec htarget).2
    exact ⟨hname, hold, by simp [hname]⟩
  · intro cm hcm
    obtain ⟨n, hn, rfl⟩ := List.mem_map.mp hcm
    obtain ⟨hnames, hretired, hvalid⟩ := hfresh n (List.mem_of_mem_take hn)
    exact ⟨hnames, hretired, hvalid, by simp [newMachine, hasAnnotation, hinv.templates ms hmem]⟩
  · simpa [newMachine, Function.comp_def] using hnodup.sublist (List.take_sublist k created)

theorem Invariant.machineChanges (hinv : Invariant newMS w evs) {cm cm' : ControlledMachine}
    (hname : cm'.machine.name = cm.machine.name) (hcontroller : cm'.controller = cm.controller)
    (hpending : hasAnnotation cm'.machine PendingAcknowledgeMoveAnnotation =
      hasAnnotation cm.machine PendingAcknowledgeMoveAnnotation) :
    Invariant newMS { w with machines := w.machines.map fun x => if x = cm then cm' else x }
      (evs ++ [.other]) := by
  refine hinv.machines_step "" "" [] (fun x => if x = cm then cm' else x) [] rfl rfl (by simp)
    (fun x => ?_) (by simp) rfl (by simp) (by simp)
  by_cases hx : x = cm
  · subst hx
    simp only [if_true]
    exact ⟨hname, .inl ⟨hcontroller, fun h => hpending ▸ h⟩⟩
  · simp only [if_neg hx]
    exact MachineFollows.refl x

theorem Invariant.tick (hinv : Invariant newMS w evs) (t : Int) :
    Invariant newMS { w with now := t } (evs ++ [.other]) :=
  hinv.machines_step "" "" [] id [] rfl rfl (by simp) MachineFollows.refl (by simp) rfl (by simp)
    (by simp)

theorem Invariant.deletionCompletes (hinv : Invariant newMS w evs) {cm : ControlledMachine}
    (hcm : cm ∈ w.machines) :
    Invariant newMS { w with
        machines := w.machines.erase cm
        retired := w.retired ++ [cm.machine.name] } (evs ++ [.other]) := by
  have hmem : ∀ x, x ∈ w.machines.erase cm ↔ x ≠ cm ∧ x ∈ w.machines := fun _ =>
    (List.Nodup.of_map _ hinv.names_nodup).mem_erase_iff
  have hnames : ∀ n ∈ (w.machines.erase cm).map (·.machine.name),
      n ∈ w.names ∧ n ≠ cm.machine.name := by
    intro n hn
    obtain ⟨x, hx, rfl⟩ := List.mem_map.mp hn
    obtain ⟨hne, hx⟩ := (hmem x).1 hx
    exact ⟨World.mem_names_of_mem hx, fun h => hne (World.eq_of_name_eq hinv.names_nodup hx hcm h)⟩
  have hacknowledged : acknowledgedIn (evs ++ [.other]) = acknowledgedIn evs := by simp
  have hmovedIn : movedIn newMS (evs ++ [.other]) = movedIn newMS evs := by simp
  constructor
  · exact hinv.names_nodup.sublist (List.erase_sublist.map _)
  · exact fun n hn => hinv.names_valid n (hnames n hn).1
  · intro n hn hlive
    rcases List.mem_append.mp hn with hn | hn
    · exact hinv.retired n hn (hnames n hlive).1
    · exact (hnames n hlive).2 (List.mem_singleton.mp hn)
  · exact hinv.moveTo
  · exact hinv.templates
  · intro x hx hpending
    rw [hmovedIn]
    exact hinv.pending x ((hmem x).1 hx).2 hpending
  · rw [hacknowledged]
    exact hinv.listed
  · rw [hacknowledged]
    intro n hn
    rcases hinv.acknowledged n hn with hgone | ⟨x, hx, rfl, hnew, hwaiting⟩
    · exact .inl (List.mem_append_left _ hgone)
    by_cases hxcm : x = cm
    · subst hxcm
      exact .inl (List.mem_append_right _ (List.mem_singleton_self _))
    · exact .inr ⟨x, (hmem x).2 ⟨hxcm, hx⟩, rfl, hnew, hwaiting⟩
  · rw [hacknowledged]
    exact hinv.nodup
  · rw [hacknowledged, hmovedIn]
    exact hinv.moved

theorem Invariant.plan (hinv : Invariant newMS w evs) (scaleIntents : String → Option Int)
    (candidates : List String) (written : String → Bool) :
    Invariant newMS (plannerReconcile newMS w scaleIntents candidates written).1
      (evs ++ [(plannerReconcile newMS w scaleIntents candidates written).2]) := by
  unfold plannerReconcile
  split
  · -- no new MachineSet: nothing is written
    exact hinv.machines_step "" "" [] id [] rfl rfl (by simp) MachineFollows.refl (by simp) rfl
      (by simp) (by simp)
  rename_i originalMS horiginal
  dsimp only
  obtain ⟨horiginal_mem, horiginal_name⟩ := World.machineSet_spec horiginal
  set R := reconcileReplicasPendingAcknowledgeMove originalMS (w.machinesOf newMS)
  have hwaiting : ∀ n, (∃ m ∈ w.machinesOf newMS,
        hasAnnotation m PendingAcknowledgeMoveAnnotation = true ∧ m.name = n) ↔
      ∃ cm ∈ w.machines, cm.controller = newMS ∧
        hasAnnotation cm.machine PendingAcknowledgeMoveAnnotation = true ∧ cm.machine.name = n := by
    intro n
    simp only [World.mem_machinesOf]
    constructor
    · rintro ⟨m, ⟨cm, hcm, hnew, rfl⟩, hpending, rfl⟩
      exact ⟨cm, hcm, hnew, hpending, rfl⟩
    · rintro ⟨cm, hcm, hnew, hpending, rfl⟩
      exact ⟨cm.machine, ⟨cm, hcm, hnew, rfl⟩, hpending, rfl⟩
  have hold : w.acknowledgedMove newMS =
      annotationNames originalMS.annotations AcknowledgedMoveAnnotation := by
    simp [World.acknowledgedMove, horiginal]
  have hsnd : ∀ n, n ∈ R.2 ↔ ∃ cm ∈ w.machines, cm.controller = newMS ∧
      hasAnnotation cm.machine PendingAcknowledgeMoveAnnotation = true ∧ cm.machine.name = n :=
    fun n => mem_reconcileReplicasPendingAcknowledgeMove_snd.trans (hwaiting n)
  have hfst : ∀ n, n ∈ R.1 ↔ (∃ cm ∈ w.machines, cm.controller = newMS ∧
      hasAnnotation cm.machine PendingAcknowledgeMoveAnnotation = true ∧ cm.machine.name = n) ∧
      n ∉ w.acknowledgedMove newMS := by
    intro n
    rw [mem_reconcileReplicasPendingAcknowledgeMove_fst, hwaiting, hold]
  have hfst_nodup : R.1.Nodup := by
    refine reconcileReplicasPendingAcknowledgeMove_nodup (hinv.names_nodup.sublist ?_)
    simpa [World.machinesOf, World.names, Function.comp_def] using
      (List.filter_sublist (l := w.machines)).map (·.machine.name)
  -- the new MachineSet's `acknowledged-move` afterwards lists exactly the machines waiting
  have hlisted : ∀ n, n ∈ World.acknowledgedMove newMS { w with machineSets :=
      (w.machineSets.map (writeMachineSet newMS scaleIntents R.1 R.2 candidates written)) } ↔
      n ∈ R.2 := by
    have hvalid : ∀ n ∈ R.2, validName n := by
      intro n hn
      obtain ⟨cm, hcm, -, -, rfl⟩ := (hsnd n).1 hn
      exact hinv.names_valid _ (World.mem_names_of_mem hcm)
    intro n
    simp only [World.acknowledgedMove, World.machineSet_map (fun _ => writeMachineSet_name),
      horiginal, Option.map_some, Option.getD_some, writeMachineSet, horiginal_name, if_true,
      annotationNames_writeNewMS hvalid]
    exact (List.perm_insertionSort _ _).mem_iff
  constructor
  · exact hinv.names_nodup
  · exact hinv.names_valid
  · exact hinv.retired
  · intro ms' hms' target htarget
    obtain ⟨ms, hms, rfl⟩ := List.mem_map.mp hms'
    rw [writeMachineSet_name]
    rcases writeMachineSet_moveTo htarget with h | h
    · exact h
    · exact hinv.moveTo ms hms target h
  · intro ms' hms'
    obtain ⟨ms, hms, rfl⟩ := List.mem_map.mp hms'
    rw [writeMachineSet_templateAnnotations]
    exact hinv.templates ms hms
  · intro cm hcm hpending
    obtain ⟨hnew, hmoved⟩ := hinv.pending cm hcm hpending
    exact ⟨hnew, by simp [hmoved]⟩
  · -- a listed machine was listed before, or is acknowledged now
    intro n hn
    rw [hlisted] at hn
    by_cases hbefore : n ∈ w.acknowledgedMove newMS
    · simp [hinv.listed n hbefore]
    · simp [(hfst n).2 ⟨(hsnd n).1 hn, hbefore⟩]
  · intro n hn
    simp only [acknowledgedIn_append, acknowledgedIn_singleton, Event.acknowledged_plan,
      List.mem_append] at hn
    rcases hn with hn | hn
    · rcases hinv.acknowledged n hn with hgone | ⟨cm, hcm, rfl, hnew, -⟩
      · exact .inl hgone
      · exact .inr ⟨cm, hcm, rfl, hnew, fun hpending =>
          (hlisted _).2 ((hsnd _).2 ⟨cm, hcm, hnew, hpending, rfl⟩)⟩
    · obtain ⟨⟨cm, hcm, hnew, hpending, rfl⟩, -⟩ := (hfst n).1 hn
      exact .inr ⟨cm, hcm, rfl, hnew, fun _ =>
        (hlisted _).2 ((hsnd _).2 ⟨cm, hcm, hnew, hpending, rfl⟩)⟩
  · -- a machine acknowledged now was not listed, so it was not acknowledged before
    simp only [acknowledgedIn_append, acknowledgedIn_singleton, Event.acknowledged_plan]
    refine List.nodup_append.mpr ⟨hinv.nodup, hfst_nodup, ?_⟩
    rintro a ha b hb rfl
    obtain ⟨⟨cm, hcm, -, hpending, rfl⟩, hunlisted⟩ := (hfst _).1 hb
    rcases hinv.acknowledged _ ha with hgone | ⟨cm', hcm', hname, -, hwaiting⟩
    · exact hinv.retired _ hgone (World.mem_names_of_mem hcm)
    · obtain rfl := World.eq_of_name_eq hinv.names_nodup hcm' hcm hname
      exact hunlisted (hwaiting hpending)
  · intro n hn
    simp only [acknowledgedIn_append, acknowledgedIn_singleton, Event.acknowledged_plan,
      List.mem_append] at hn
    have hmoved : n ∈ movedIn newMS evs := by
      rcases hn with hn | hn
      · exact hinv.moved n hn
      · obtain ⟨⟨cm, hcm, -, hpending, rfl⟩, -⟩ := (hfst n).1 hn
        exact (hinv.pending cm hcm hpending).2
    simp [hmoved]

theorem Invariant.step (hinv : Invariant newMS w evs) (hstep : Step S Exp newMS w e w') :
    Invariant newMS w' (evs ++ [e]) := by
  cases hstep with
  | plan scaleIntents candidates written => exact hinv.plan scaleIntents candidates written
  | sync hms completed patched created hfresh hnodup =>
    exact hinv.sync S Exp hms completed patched created hfresh hnodup
  | machineChanges _ hname hcontroller hpending =>
    exact hinv.machineChanges hname hcontroller hpending
  | deletionCompletes hcm _ => exact hinv.deletionCompletes hcm
  | tick t _ => exact hinv.tick t

theorem Invariant.of_run {w₀ : World} (hinit : Initial newMS w₀)
    (hrun : Run (Step S Exp newMS) w₀ evs w) : Invariant newMS w evs :=
  Run.invariant (Invariant newMS) hinit.invariant
    (fun _ _ _ _ _ hinv hstep => hinv.step S Exp hstep) hrun

theorem plannerReconcile_event (scaleIntents : String → Option Int) (candidates : List String)
    (written : String → Bool) :
    ∃ acknowledged, (plannerReconcile newMS w scaleIntents candidates written).2 =
      .plan acknowledged := by
  unfold plannerReconcile
  split <;> exact ⟨_, rfl⟩

theorem Step.dropped_listed (hstep : Step S Exp newMS w e w') {machineSet target : String}
    {dropped moved : List String} (he : e = .sync machineSet true dropped target moved) :
    ∃ ms, w.machineSet machineSet = some ms ∧
      ∀ n ∈ dropped, n ∈ annotationNames ms.annotations AcknowledgedMoveAnnotation := by
  cases hstep with
  | plan scaleIntents candidates written =>
    obtain ⟨acknowledged, hplan⟩ := @plannerReconcile_event newMS w scaleIntents candidates
      written
    rw [hplan] at he
    cases he
  | @sync ms hms completed patched created _ _ =>
    obtain ⟨dropped', target', moved', k, g, heq, hdropped, -, -⟩ :=
      @reconcileMachineSet_spec S Exp w ms completed patched created
    rw [heq] at he
    obtain ⟨rfl, hreceiving, rfl, -, -⟩ := Event.sync.inj he
    exact ⟨ms, hms, hdropped hreceiving⟩
  | machineChanges => cases he
  | deletionCompletes => cases he
  | tick => cases he

end Steps

/-! ### Moved machines are counted once -/

variable {w₀ w : World} {evs : List Event}

/-- Over every run from a MachineDeployment with no move under way, the planner counts each
machine into the new MachineSet's replicas at most once, and only a machine that an old
MachineSet moved to it earlier in the run. -/
theorem acknowledgeMove_counts_once (hinit : Initial newMS w₀)
    (hrun : Run (Step S Exp newMS) w₀ evs w) :
    (acknowledgedIn evs).Nodup ∧
      ∀ (pre post : List Event) (e : Event), evs = pre ++ e :: post →
        ∀ n ∈ e.acknowledged, n ∈ movedIn newMS pre := by
  refine ⟨(Invariant.of_run S Exp hinit hrun).nodup, ?_⟩
  intro pre post e hevs n hn
  obtain ⟨u, v, hpre, hstep, -⟩ := hrun.split hevs
  have hmoved := ((Invariant.of_run S Exp hinit hpre).step S Exp hstep).moved n (by simp [hn])
  cases e with
  | plan acknowledged => simpa using hmoved
  | sync => simp at hn
  | other => simp at hn

def handshakeWorld : World :=
  ⟨[⟨"ms-old", 0, "Random", [], [], some "old"⟩, ⟨"ms-new", 0, "Random", [], [], some "new"⟩],
    [⟨⟨"m1", 1, none, [], "", []⟩, "ms-old"⟩], 10, []⟩

def handshakeEvents : List Event :=
  [.plan [], .sync "ms-old" false [] "ms-new" ["m1"], .plan ["m1"],
    .sync "ms-new" true ["m1"] "" []]

theorem handshakeWorld_initial : Initial "ms-new" handshakeWorld :=
  ⟨by decide, by decide, rfl, by decide, by decide, by decide, by decide⟩

theorem handshake_run : ∃ evs w,
    Run (Step Sorter.sample (fun _ => 1) "ms-new") handshakeWorld evs w ∧ evs = handshakeEvents := by
  have hrun := ((((Run.nil handshakeWorld).snoc
    (@Step.plan Sorter.sample (fun _ => 1) "ms-new" handshakeWorld (fun _ => none) ["ms-old"]
      (fun _ => true))).snoc
    (@Step.sync _ _ _ _ ⟨"ms-old", 0, "Random",
        [( MachineSetMoveMachinesToMachineSetAnnotation, "ms-new")], [], some "old"⟩
      (by decide) (fun _ => true) (fun _ => true) [] (by simp) List.nodup_nil)).snoc
    (Step.plan (fun _ => none) ["ms-old"] (fun _ => true))).snoc
    (@Step.sync _ _ _ _ ⟨"ms-new", 1, "Random",
        [( MachineSetReceiveMachinesFromMachineSetsAnnotation, "ms-old"),
          ( AcknowledgedMoveAnnotation, "m1")], [], some "new"⟩
      (by decide) (fun _ => true) (fun _ => true) [] (by simp) List.nodup_nil)
  exact ⟨_, _, hrun, by decide⟩

theorem acknowledgeMove_counts_once_handshake :
    (acknowledgedIn handshakeEvents).Nodup ∧
      "m1" ∈ movedIn "ms-new" [.plan [], .sync "ms-old" false [] "ms-new" ["m1"]] := by
  obtain ⟨evs, w, hrun, rfl⟩ := handshake_run
  obtain ⟨hnodup, hmoved⟩ :=
    acknowledgeMove_counts_once Sorter.sample (fun _ => 1) handshakeWorld_initial hrun
  exact ⟨hnodup, hmoved _ [.sync "ms-new" true ["m1"] "" []] (.plan ["m1"]) rfl "m1"
    (List.mem_singleton_self _)⟩

/-- While the new MachineSet receives machines, its reconcile drops `pending-acknowledge-move`
only from a machine the planner has already counted. -/
theorem pendingAcknowledgeMove_dropped_after_acknowledged (hinit : Initial newMS w₀)
    (hrun : Run (Step S Exp newMS) w₀ evs w) :
    ∀ (pre post : List Event) (dropped moved : List String) (target : String),
      evs = pre ++ .sync newMS true dropped target moved :: post →
        ∀ n ∈ dropped, n ∈ acknowledgedIn pre := by
  intro pre post dropped moved target hevs n hn
  obtain ⟨u, v, hpre, hstep, -⟩ := hrun.split hevs
  obtain ⟨ms, hms, hlisted⟩ := hstep.dropped_listed S Exp rfl
  have hcurrent : n ∈ u.acknowledgedMove newMS := by
    simp [World.acknowledgedMove, hms, hlisted n hn]
  exact (Invariant.of_run S Exp hinit hpre).listed n hcurrent

theorem pendingAcknowledgeMove_dropped_after_acknowledged_handshake :
    "m1" ∈ acknowledgedIn [.plan [], .sync "ms-old" false [] "ms-new" ["m1"], .plan ["m1"]] := by
  obtain ⟨evs, w, hrun, rfl⟩ := handshake_run
  exact pendingAcknowledgeMove_dropped_after_acknowledged Sorter.sample (fun _ => 1)
    handshakeWorld_initial hrun _ [] ["m1"] [] "" rfl "m1" (List.mem_singleton_self _)

/-- Along every run, a machine waiting for acknowledgement is in the new MachineSet and was
moved there, and a machine the planner has counted stays in the new MachineSet until it is
gone. -/
theorem moved_machines_stay_in_newMS (hinit : Initial newMS w₀)
    (hrun : Run (Step S Exp newMS) w₀ evs w) :
    (∀ cm ∈ w.machines, hasAnnotation cm.machine PendingAcknowledgeMoveAnnotation = true →
      cm.controller = newMS ∧ cm.machine.name ∈ movedIn newMS evs) ∧
    ∀ n ∈ acknowledgedIn evs, n ∈ w.retired ∨
      ∃ cm ∈ w.machines, cm.machine.name = n ∧ cm.controller = newMS := by
  have hinv := Invariant.of_run S Exp hinit hrun
  refine ⟨hinv.pending, fun n hn => ?_⟩
  rcases hinv.acknowledged n hn with hgone | ⟨cm, hcm, hname, hnew, -⟩
  · exact .inl hgone
  · exact .inr ⟨cm, hcm, hname, hnew⟩

theorem moved_machines_stay_in_newMS_handshake : ∃ w : World,
    (∀ cm ∈ w.machines, hasAnnotation cm.machine PendingAcknowledgeMoveAnnotation = true →
      cm.controller = "ms-new" ∧ cm.machine.name ∈ movedIn "ms-new" handshakeEvents) ∧
    ∀ n ∈ acknowledgedIn handshakeEvents, n ∈ w.retired ∨
      ∃ cm ∈ w.machines, cm.machine.name = n ∧ cm.controller = "ms-new" := by
  obtain ⟨evs, w, hrun, rfl⟩ := handshake_run
  exact ⟨w, moved_machines_stay_in_newMS Sorter.sample (fun _ => 1) handshakeWorld_initial hrun⟩

end ClusterApi.MachineSet
