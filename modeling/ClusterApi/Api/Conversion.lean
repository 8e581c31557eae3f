import Mathlib

/-!
# Restoring hub-only fields when converting v1beta1 objects up

`Cluster.ConvertTo` and `ClusterClass.ConvertTo` (`api/core/v1beta1/conversion.go`) convert a
v1beta1 object with the generated conversion, read back the v1beta2 object kept in the
`cluster.x-k8s.io/conversion-data` annotation (`UnmarshalData`, `util/conversion`) and copy what
v1beta1 cannot hold. The MachineDeployment `UnhealthyMachineConditions` are copied by the index
of the restored list into the converted list, where Go panics at an index past the end.

The generated conversions, the reference conversion and the restore of patches and variables
that `ClusterClass.ConvertTo` runs after the MachineDeployment classes are the fields of
`Conversions`; the annotation is what `json.Unmarshal` makes of it.
-/

namespace ClusterApi.Api

/-- How a Go function ends: with a value, with an error, or in a runtime panic. -/
inductive Outcome (α : Type) where
  | ok (value : α)
  | error (message : String)
  | panic (message : String)
  deriving DecidableEq, Repr

structure UnhealthyMachineCondition where
  type : String
  status : String
  timeoutSeconds : Option Int
  deriving DecidableEq, Repr

namespace V1beta2

structure MachineDeploymentTopology where
  «class» : String
  name : String
  unhealthyMachineConditions : List UnhealthyMachineCondition
  deriving DecidableEq, Repr

structure ContractVersionedObjectReference where
  apiGroup : String
  kind : String
  name : String
  deriving DecidableEq, Repr

/-- What `Cluster.ConvertTo` writes of the hub Cluster. -/
structure Cluster where
  infrastructureRef : Option ContractVersionedObjectReference
  controlPlaneRef : Option ContractVersionedObjectReference
  controlPlaneUnhealthyMachineConditions : List UnhealthyMachineCondition
  machineDeployments : List MachineDeploymentTopology
  paused : Option Bool
  controlPlaneInitialized : Option Bool
  infrastructureProvisioned : Option Bool
  deriving DecidableEq, Repr

def Cluster.empty : Cluster := ⟨none, none, [], [], none, none, none⟩

structure ClusterClass where
  controlPlaneUnhealthyMachineConditions : List UnhealthyMachineCondition
  machineDeployments : List MachineDeploymentTopology
  deriving DecidableEq, Repr

def ClusterClass.empty : ClusterClass := ⟨[], []⟩

end V1beta2

namespace V1beta1

structure ObjectReference where
  apiVersion : String
  kind : String
  name : String
  «namespace» : String
  deriving DecidableEq, Repr

structure MachineDeploymentTopology where
  «class» : String
  name : String
  deriving DecidableEq, Repr

/-- What `Cluster.ConvertTo` reads of a v1beta1 Cluster; no topology is no MachineDeployment
topology. `conversionData` is the annotation as `json.Unmarshal` decodes it. -/
structure Cluster where
  infrastructureRef : Option ObjectReference
  controlPlaneRef : Option ObjectReference
  machineDeployments : List MachineDeploymentTopology
  paused : Bool
  controlPlaneReady : Bool
  infrastructureReady : Bool
  conversionData : Option (Except String V1beta2.Cluster)

structure ClusterClass where
  machineDeployments : List MachineDeploymentTopology
  conversionData : Option (Except String V1beta2.ClusterClass)

end V1beta1

open V1beta1 V1beta2

structure Conversions where
  Convert_v1beta1_Cluster_To_v1beta2_Cluster : V1beta1.Cluster → Except String V1beta2.Cluster
  Convert_v1beta1_ClusterClass_To_v1beta2_ClusterClass :
    V1beta1.ClusterClass → Except String V1beta2.ClusterClass
  /-- `schema.ParseGroupVersion`, to the group or the text of its error. -/
  ParseGroupVersion : String → Except String String
  /-- The loops over patches and variables, given the source, the object so far, whether the
  annotation was there, and the restored object. -/
  restorePatchesAndVariables : V1beta1.ClusterClass → V1beta2.ClusterClass → Bool →
    V1beta2.ClusterClass → Except String V1beta2.ClusterClass

structure Conversions.Lawful (C : Conversions) : Prop where
  cluster_machineDeployments : ∀ src dst,
    C.Convert_v1beta1_Cluster_To_v1beta2_Cluster src = .ok dst →
    dst.machineDeployments.length = src.machineDeployments.length
  clusterClass_machineDeployments : ∀ src dst,
    C.Convert_v1beta1_ClusterClass_To_v1beta2_ClusterClass src = .ok dst →
    dst.machineDeployments.length = src.machineDeployments.length

def Conversions.sample : Conversions where
  Convert_v1beta1_Cluster_To_v1beta2_Cluster src :=
    .ok { V1beta2.Cluster.empty with
      machineDeployments := src.machineDeployments.map fun md => ⟨md.class, md.name, []⟩ }
  Convert_v1beta1_ClusterClass_To_v1beta2_ClusterClass src :=
    .ok { V1beta2.ClusterClass.empty with
      machineDeployments := src.machineDeployments.map fun md => ⟨md.class, md.name, []⟩ }
  ParseGroupVersion apiVersion :=
    match apiVersion.splitOn "/" with
    | [_] => .ok ""
    | [group, _] => .ok group
    | _ => .error ("unexpected GroupVersion string: " ++ apiVersion)
  restorePatchesAndVariables _ dst _ _ := .ok dst

theorem Conversions.sample_lawful : Conversions.sample.Lawful where
  cluster_machineDeployments src dst h := by
    cases h
    simp
  clusterClass_machineDeployments src dst h := by
    cases h
    simp

/-- `UnmarshalData`: whether the annotation was there, and the object it restores (the zero
object without it). -/
def UnmarshalData {β : Type} (empty : β) : Option (Except String β) → Except String (Bool × β)
  | none => .ok (false, empty)
  | some (.error e) => .error e
  | some (.ok restored) => .ok (true, restored)

/-- `Convert_bool_To_Pointer_bool`: false stays false only when the restored object says so. -/
def Convert_bool_To_Pointer_bool (input hasRestored : Bool) (restoredIn : Option Bool) :
    Option Bool :=
  if !input then
    if hasRestored ∧ restoredIn = some false then some false else none
  else some true

/-- The loop `for i, md := range restored { dst[i]...UnhealthyMachineConditions = md... }`,
from index `i`. -/
def restoreUnhealthyMachineConditions (i : Nat) :
    List V1beta2.MachineDeploymentTopology → List V1beta2.MachineDeploymentTopology →
      Outcome (List V1beta2.MachineDeploymentTopology)
  | dst, [] => .ok dst
  | dst, md :: rest =>
    if h : i < dst.length then
      restoreUnhealthyMachineConditions (i + 1)
        (dst.set i { dst[i] with unhealthyMachineConditions := md.unhealthyMachineConditions }) rest
    else .panic ("runtime error: index out of range [" ++ toString i ++ "] with length " ++
      toString dst.length)

variable (C : Conversions)

def convertToContractVersionedObjectReference (ref : ObjectReference) :
    Except String ContractVersionedObjectReference :=
  let apiGroup : Except String String :=
    if ref.apiVersion ≠ "" then
      match C.ParseGroupVersion ref.apiVersion with
      | .error e => .error ("failed to convert object: failed to parse apiVersion: " ++ e)
      | .ok group => .ok group
    else .ok ""
  apiGroup.map fun apiGroup => ⟨apiGroup, ref.kind, ref.name⟩

def convertReference (converted : Option ContractVersionedObjectReference) :
    Option ObjectReference → Except String (Option ContractVersionedObjectReference)
  | none => .ok converted
  | some ref => (convertToContractVersionedObjectReference C ref).map some

def Cluster.ConvertTo (src : V1beta1.Cluster) : Outcome V1beta2.Cluster :=
  match C.Convert_v1beta1_Cluster_To_v1beta2_Cluster src with
  | .error e => .error e
  | .ok dst =>
    match convertReference C dst.infrastructureRef src.infrastructureRef with
    | .error e => .error e
    | .ok infrastructureRef =>
      match convertReference C dst.controlPlaneRef src.controlPlaneRef with
      | .error e => .error e
      | .ok controlPlaneRef =>
        match UnmarshalData V1beta2.Cluster.empty src.conversionData with
        | .error e => .error e
        | .ok (ok, restored) =>
          match restoreUnhealthyMachineConditions 0 dst.machineDeployments
              restored.machineDeployments with
          | .error e => .error e
          | .panic message => .panic message
          | .ok machineDeployments =>
            let paused := Convert_bool_To_Pointer_bool src.paused ok restored.paused
            let controlPlaneInitialized := Convert_bool_To_Pointer_bool src.controlPlaneReady ok
              restored.controlPlaneInitialized
            let infrastructureProvisioned := Convert_bool_To_Pointer_bool src.infrastructureReady ok
              restored.infrastructureProvisioned
            let dst := { dst with
              infrastructureRef, controlPlaneRef,
              controlPlaneUnhealthyMachineConditions := restored.controlPlaneUnhealthyMachineConditions,
              machineDeployments, paused }
            -- the initialization status is written only when one of its fields is set
            if controlPlaneInitialized ≠ none ∨ infrastructureProvisioned ≠ none then
              .ok { dst with controlPlaneInitialized, infrastructureProvisioned }
            else .ok dst

def ClusterClass.ConvertTo (src : V1beta1.ClusterClass) : Outcome V1beta2.ClusterClass :=
  match C.Convert_v1beta1_ClusterClass_To_v1beta2_ClusterClass src with
  | .error e => .error e
  | .ok dst =>
    match UnmarshalData V1beta2.ClusterClass.empty src.conversionData with
    | .error e => .error e
    | .ok (ok, restored) =>
      match restoreUnhealthyMachineConditions 0 dst.machineDeployments
          restored.machineDeployments with
      | .error e => .error e
      | .panic message => .panic message
      | .ok machineDeployments =>
        match C.restorePatchesAndVariables src { dst with
            controlPlaneUnhealthyMachineConditions := restored.controlPlaneUnhealthyMachineConditions,
            machineDeployments } ok restored with
        | .error e => .error e
        | .ok dst => .ok dst

theorem UnmarshalData_eq_ok {β : Type} {empty restored : β} {data : Option (Except String β)}
    {ok : Bool} :
    UnmarshalData empty data = .ok (ok, restored) ↔
      data = none ∧ ok = false ∧ restored = empty ∨ data = some (.ok restored) ∧ ok = true := by
  rcases data with _ | _ | r <;> simp [UnmarshalData, and_comm, eq_comm]

/-! ## The restore loop -/

def restoredByIndex (dst restored : List V1beta2.MachineDeploymentTopology) :
    List V1beta2.MachineDeploymentTopology :=
  List.zipWith (fun d md => { d with unhealthyMachineConditions := md.unhealthyMachineConditions })
    dst restored ++ dst.drop restored.length

@[simp]
theorem restoredByIndex_nil (dst : List V1beta2.MachineDeploymentTopology) :
    restoredByIndex dst [] = dst := by
  simp [restoredByIndex]

theorem restoredByIndex_cons (d md : V1beta2.MachineDeploymentTopology)
    (dst restored : List V1beta2.MachineDeploymentTopology) :
    restoredByIndex (d :: dst) (md :: restored) =
      { d with unhealthyMachineConditions := md.unhealthyMachineConditions } ::
        restoredByIndex dst restored := by
  simp [restoredByIndex]

theorem restoreUnhealthyMachineConditions_of_le {i : Nat}
    {dst restored : List V1beta2.MachineDeploymentTopology}
    (h : i + restored.length ≤ dst.length) :
    restoreUnhealthyMachineConditions i dst restored =
      .ok (dst.take i ++ restoredByIndex (dst.drop i) restored) := by
  induction restored generalizing i dst with
  | nil => simp [restoreUnhealthyMachineConditions]
  | cons md rest ih =>
    have hi : i < dst.length := by simp at h; omega
    rw [restoreUnhealthyMachineConditions, dif_pos hi, ih (by simp at h ⊢; omega),
      List.take_add_one, List.take_set_of_le le_rfl, List.drop_set_of_lt (Nat.lt_succ_self i),
      List.drop_eq_getElem_cons hi, restoredByIndex_cons]
    simp [hi]

theorem restoreUnhealthyMachineConditions_panic {i : Nat}
    {dst restored : List V1beta2.MachineDeploymentTopology} (hi : i ≤ dst.length)
    (h : dst.length < i + restored.length) :
    ∃ message, restoreUnhealthyMachineConditions i dst restored = .panic message := by
  induction restored generalizing i dst with
  | nil => simp at h; omega
  | cons md rest ih =>
    rw [restoreUnhealthyMachineConditions]
    split
    · exact ih (by simpa using Nat.succ_le_of_lt ‹_›) (by simp at h ⊢; omega)
    · exact ⟨_, rfl⟩

theorem restoreUnhealthyMachineConditions_panic_iff {i : Nat}
    {dst restored : List V1beta2.MachineDeploymentTopology} (hi : i ≤ dst.length) :
    (∃ message, restoreUnhealthyMachineConditions i dst restored = .panic message) ↔
      dst.length < i + restored.length := by
  constructor
  · rintro ⟨message, hpanic⟩
    by_contra hle
    rw [restoreUnhealthyMachineConditions_of_le (by omega)] at hpanic
    cases hpanic
  · exact restoreUnhealthyMachineConditions_panic hi

theorem restoreUnhealthyMachineConditions_ne_error (i : Nat)
    (dst restored : List V1beta2.MachineDeploymentTopology) (e : String) :
    restoreUnhealthyMachineConditions i dst restored ≠ .error e := by
  induction restored generalizing i dst with
  | nil => simp [restoreUnhealthyMachineConditions]
  | cons md rest ih =>
    rw [restoreUnhealthyMachineConditions]
    split
    · exact ih _ _
    · simp

/-! ## `ConvertTo` -/

theorem Cluster.ConvertTo_panic (hC : C.Lawful) {src : V1beta1.Cluster} {dst : V1beta2.Cluster}
    {infrastructureRef controlPlaneRef : Option ContractVersionedObjectReference}
    {restored : V1beta2.Cluster}
    (hconv : C.Convert_v1beta1_Cluster_To_v1beta2_Cluster src = .ok dst)
    (hinfra : convertReference C dst.infrastructureRef src.infrastructureRef = .ok infrastructureRef)
    (hcp : convertReference C dst.controlPlaneRef src.controlPlaneRef = .ok controlPlaneRef)
    (hdata : src.conversionData = some (.ok restored))
    (hlen : src.machineDeployments.length < restored.machineDeployments.length) :
    ∃ message, Cluster.ConvertTo C src = .panic message := by
  have hdst := hC.cluster_machineDeployments src dst hconv
  obtain ⟨message, hpanic⟩ := @restoreUnhealthyMachineConditions_panic 0
    dst.machineDeployments restored.machineDeployments (Nat.zero_le _) (by omega)
  exact ⟨message, by simp only [Cluster.ConvertTo, hconv, hinfra, hcp, hdata, UnmarshalData, hpanic]⟩

theorem Cluster.ConvertTo_panic_imp (hC : C.Lawful) {src : V1beta1.Cluster} {message : String}
    (h : Cluster.ConvertTo C src = .panic message) :
    ∃ restored, src.conversionData = some (.ok restored) ∧
      src.machineDeployments.length < restored.machineDeployments.length := by
  simp only [Cluster.ConvertTo] at h
  split at h
  · cases h
  rename_i dst hconv
  have hdst := hC.cluster_machineDeployments src dst hconv
  split at h
  · cases h
  split at h
  · cases h
  split at h
  · cases h
  rename_i ok restored hdata
  split at h
  · cases h
  · rename_i hloop
    have hlen := (restoreUnhealthyMachineConditions_panic_iff (Nat.zero_le _)).mp ⟨_, hloop⟩
    rcases UnmarshalData_eq_ok.mp hdata with ⟨-, -, rfl⟩ | ⟨hsome, -⟩
    · simp [V1beta2.Cluster.empty] at hlen
    · exact ⟨restored, hsome, by omega⟩
  · split at h <;> cases h

theorem Cluster.ConvertTo_machineDeployments {src : V1beta1.Cluster} {hub : V1beta2.Cluster}
    (h : Cluster.ConvertTo C src = .ok hub) :
    ∃ dst ok restored, C.Convert_v1beta1_Cluster_To_v1beta2_Cluster src = .ok dst ∧
      UnmarshalData V1beta2.Cluster.empty src.conversionData = .ok (ok, restored) ∧
      hub.machineDeployments = restoredByIndex dst.machineDeployments restored.machineDeployments := by
  simp only [Cluster.ConvertTo] at h
  split at h
  · cases h
  rename_i dst hconv
  split at h
  · cases h
  split at h
  · cases h
  split at h
  · cases h
  rename_i ok restored hdata
  split at h
  · cases h
  · cases h
  · rename_i machineDeployments hloop
    have hle : restored.machineDeployments.length ≤ dst.machineDeployments.length := by
      by_contra hlt
      obtain ⟨message, hpanic⟩ := @restoreUnhealthyMachineConditions_panic 0
        dst.machineDeployments restored.machineDeployments (Nat.zero_le _) (by omega)
      rw [hloop] at hpanic
      cases hpanic
    rw [restoreUnhealthyMachineConditions_of_le (by simpa using hle)] at hloop
    refine ⟨dst, ok, restored, hconv, hdata, ?_⟩
    cases hloop
    split at h <;> (cases h; simp)

theorem ClusterClass.ConvertTo_panic (hC : C.Lawful) {src : V1beta1.ClusterClass}
    {dst restored : V1beta2.ClusterClass}
    (hconv : C.Convert_v1beta1_ClusterClass_To_v1beta2_ClusterClass src = .ok dst)
    (hdata : src.conversionData = some (.ok restored))
    (hlen : src.machineDeployments.length < restored.machineDeployments.length) :
    ∃ message, ClusterClass.ConvertTo C src = .panic message := by
  have hdst := hC.clusterClass_machineDeployments src dst hconv
  obtain ⟨message, hpanic⟩ := @restoreUnhealthyMachineConditions_panic 0
    dst.machineDeployments restored.machineDeployments (Nat.zero_le _) (by omega)
  exact ⟨message, by simp only [ClusterClass.ConvertTo, hconv, hdata, UnmarshalData, hpanic]⟩

theorem ClusterClass.ConvertTo_panic_imp (hC : C.Lawful) {src : V1beta1.ClusterClass}
    {message : String} (h : ClusterClass.ConvertTo C src = .panic message) :
    ∃ restored, src.conversionData = some (.ok restored) ∧
      src.machineDeployments.length < restored.machineDeployments.length := by
  simp only [ClusterClass.ConvertTo] at h
  split at h
  · cases h
  rename_i dst hconv
  have hdst := hC.clusterClass_machineDeployments src dst hconv
  split at h
  · cases h
  rename_i ok restored hdata
  split at h
  · cases h
  · rename_i hloop
    have hlen := (restoreUnhealthyMachineConditions_panic_iff (Nat.zero_le _)).mp ⟨_, hloop⟩
    rcases UnmarshalData_eq_ok.mp hdata with ⟨-, -, rfl⟩ | ⟨hsome, -⟩
    · simp [V1beta2.ClusterClass.empty] at hlen
    · exact ⟨restored, hsome, by omega⟩
  · split at h <;> cases h

/-- A v1beta1 Cluster without MachineDeployment topologies whose annotation keeps one: a v1beta1
client removed the topology after the object was converted down. -/
def clusterWithRemovedMachineDeployment : V1beta1.Cluster where
  infrastructureRef := none
  controlPlaneRef := none
  machineDeployments := []
  paused := false
  controlPlaneReady := false
  infrastructureReady := false
  conversionData := some (.ok { V1beta2.Cluster.empty with
    machineDeployments := [⟨"default-worker", "md-0", []⟩] })

theorem Cluster.ConvertTo_panics_after_machineDeployment_removed (hC : C.Lawful)
    (hconv : ∃ dst, C.Convert_v1beta1_Cluster_To_v1beta2_Cluster
      clusterWithRemovedMachineDeployment = .ok dst) :
    Cluster.ConvertTo C clusterWithRemovedMachineDeployment =
      .panic "runtime error: index out of range [0] with length 0" := by
  obtain ⟨dst, hdst⟩ := hconv
  have hnil : dst.machineDeployments = [] :=
    List.eq_nil_of_length_eq_zero (hC.cluster_machineDeployments _ _ hdst)
  unfold Cluster.ConvertTo
  rw [hdst]
  simp only [convertReference, clusterWithRemovedMachineDeployment, UnmarshalData, hnil,
    restoreUnhealthyMachineConditions]
  rfl

theorem Cluster.ConvertTo_panics_after_machineDeployment_removed_sample :
    Cluster.ConvertTo Conversions.sample clusterWithRemovedMachineDeployment =
      .panic "runtime error: index out of range [0] with length 0" :=
  Cluster.ConvertTo_panics_after_machineDeployment_removed Conversions.sample
    Conversions.sample_lawful ⟨_, rfl⟩

end ClusterApi.Api
