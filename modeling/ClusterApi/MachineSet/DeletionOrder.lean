import ClusterApi.Lib.GoSort
import ClusterApi.Hooks.Tracking

/-!
# The order in which a MachineSet deletes machines

`internal/controllers/machineset/machineset_deletion_order.go`. A deletion order gives each
machine a priority: deleting machines first, then those marked with the delete annotation, then
those with an in-place update in progress, then unhealthy ones, and healthy ones last, at a
priority the order decides. `getMachinesToDeletePrioritized` sorts the machines by priority, high
to low, their names breaking ties, and takes the first ones. `sort.Sort` is a `Sorter` with the
contract of `Lib.GoSort`, which the model of `sort.Sort` keeps (`Sorter.sortSort_lawful`).

A priority is a `float64`. Every priority the file writes is a rational, and rationals compare as
the floats do; the one computed priority, from a healthy machine's age, goes through `math.Exp`,
which is the parameter `Exp`. Times are nanoseconds from Go's zero time, so a zero `metav1.Time`
is `0`, and `metav1.Now()` is the parameter `now`.

Random and Oldest keep the classes apart, the latter while `Exp` stays positive. Newest does not:
it gives a healthy machine `betterDelete - oldestDeletionOrder`, and `oldestDeletionOrder` is
`mustNotDelete` for a machine created at the zero time or after `now`, so such a machine gets
`betterDelete`, the priority of an unhealthy one, and the names decide between them.
-/

namespace ClusterApi.MachineSet

open ClusterApi.Lib.GoSort ClusterApi.Lib.GoStrings ClusterApi.Hooks

structure MachineCondition where
  type : String
  status : String
  deriving DecidableEq, Repr

/-- The fields of a Machine the deletion orders read; a nil `deletionTimestamp` is `none`. -/
structure Machine where
  name : String
  creationTimestamp : Int
  deletionTimestamp : Option Int
  annotations : List (String × String)
  nodeRefName : String
  conditions : List MachineCondition
  deriving DecidableEq, Repr

def DeleteMachineAnnotation : String := "cluster.x-k8s.io/delete-machine"

def UpdateInProgressAnnotation : String :=
  "in-place-updates.internal.cluster.x-k8s.io/update-in-progress"

def MachineNodeHealthyCondition : String := "NodeHealthy"

def MachineHealthCheckSucceededCondition : String := "HealthCheckSucceeded"

def IsZero : Option Int → Bool
  | none => true
  | some t => t == 0

def hasAnnotation (machine : Machine) (key : String) : Bool :=
  (machine.annotations.lookup key).isSome

def IsUpdateInProgress (machine : Machine) : Bool :=
  hasAnnotation machine UpdateInProgressAnnotation || IsPending "UpdateMachine" machine.annotations

def getCondition (machine : Machine) (conditionType : String) : Option MachineCondition :=
  machine.conditions.find? (·.type == conditionType)

def isMachineHealthy (machine : Machine) : Bool :=
  if machine.nodeRefName = "" then false
  else if (getCondition machine MachineNodeHealthyCondition).any (·.status == "False") then false
  else if (getCondition machine MachineHealthCheckSucceededCondition).any (·.status == "False") then
    false
  else true

abbrev deletePriority := ℚ

def mustDelete : deletePriority := 100

def shouldDeleteFirst : deletePriority := 80

def shouldDelete : deletePriority := 75

def betterDelete : deletePriority := 50

def couldDelete : deletePriority := 20

def mustNotDelete : deletePriority := 0

def secondsPerTenDays : ℚ := 864000

/-- The branches the three orders share; `healthy` is the priority of a healthy machine. -/
def deletionOrder (healthy : Machine → deletePriority) (machine : Machine) : deletePriority :=
  if !IsZero machine.deletionTimestamp then mustDelete
  else if hasAnnotation machine DeleteMachineAnnotation then shouldDeleteFirst
  else if IsUpdateInProgress machine then shouldDelete
  else if !isMachineHealthy machine then betterDelete
  else healthy machine

/-- `t.Sub(u)` in nanoseconds: a `Duration`, an `int64`, at which it saturates. -/
def Sub (t u : Int) : Int := max (-2 ^ 63) (min (2 ^ 63 - 1) (t - u))

def Seconds (d : Int) : ℚ := d / 1000000000

section Orders

variable (Exp : ℚ → ℚ) (now : Int)

/-- What `oldestDeletionOrder` gives a healthy machine. -/
def oldestAgePriority (machine : Machine) : deletePriority :=
  if machine.creationTimestamp = 0 then mustNotDelete
  else
    let d := Sub now machine.creationTimestamp
    if Seconds d < 0 then mustNotDelete
    else betterDelete * (1 - Exp (-Seconds d / secondsPerTenDays))

def oldestDeletionOrder : Machine → deletePriority :=
  deletionOrder (oldestAgePriority Exp now)

def newestDeletionOrder : Machine → deletePriority :=
  deletionOrder fun machine => betterDelete - oldestDeletionOrder Exp now machine

end Orders

def randomDeletionOrder : Machine → deletePriority :=
  deletionOrder fun _ => couldDelete

/-- `sortableMachines.Less`: the higher priority first, names breaking ties. -/
def sortableMachinesLess (priority : Machine → deletePriority) (a b : Machine) : Bool :=
  if priority a = priority b then decide (a.name < b.name) else decide (priority b < priority a)

def getMachinesToDeletePrioritized (S : Sorter) (filteredMachines : List Machine) (diff : Int)
    (priority : Machine → deletePriority) : List Machine :=
  if diff ≤ 0 then []
  else
    let machines := S.sort (sortableMachinesLess priority) filteredMachines
    if filteredMachines.length ≤ diff then machines else machines.take diff.toNat

def getMachinesToMovePrioritized (S : Sorter) (filteredMachines : List Machine)
    (priority : Machine → deletePriority) : List Machine :=
  getMachinesToDeletePrioritized S filteredMachines filteredMachines.length priority

def getDeletePriorityFunc (Exp : ℚ → ℚ) (now : Int) (order : String) :
    Except String (Machine → deletePriority) :=
  match order with
  | "Random" => .ok randomDeletionOrder
  | "Newest" => .ok (newestDeletionOrder Exp now)
  | "Oldest" => .ok (oldestDeletionOrder Exp now)
  | "" => .ok randomDeletionOrder
  | _ => .error ("Unsupported deletion order " ++ order ++
      ". Must be one of 'Random', 'Newest', or 'Oldest'")

/-! ### What the sort leaves first -/

def sortKey (priority : Machine → deletePriority) (machine : Machine) :
    Lex (deletePriorityᵒᵈ × String) :=
  toLex (OrderDual.toDual (priority machine), machine.name)

theorem sortableMachinesLess_eq (priority : Machine → deletePriority) (a b : Machine) :
    sortableMachinesLess priority a b = decide (sortKey priority a < sortKey priority b) := by
  unfold sortableMachinesLess sortKey
  by_cases h : priority a = priority b
  · simp [h, Prod.Lex.toLex_lt_toLex]
  · simp [h, Prod.Lex.toLex_lt_toLex]

theorem strictWeakOn_sortableMachinesLess (priority : Machine → deletePriority)
    (l : List Machine) : StrictWeakOn (sortableMachinesLess priority) l :=
  StrictWeakOn.of_key _ (sortableMachinesLess_eq priority)

section Prioritized

variable {S : Sorter} (hS : S.Lawful) (filteredMachines : List Machine) (diff : Int)
  (priority : Machine → deletePriority)
include hS

theorem getMachinesToDeletePrioritized_eq_take :
    getMachinesToDeletePrioritized S filteredMachines diff priority =
      (S.sort (sortableMachinesLess priority) filteredMachines).take diff.toNat := by
  unfold getMachinesToDeletePrioritized
  split_ifs with hdiff hlen
  · rw [Int.toNat_eq_zero.mpr hdiff, List.take_zero]
  · rw [List.take_of_length_le (by rw [hS.length_sort]; omega)]
  · rfl

theorem getMachinesToDeletePrioritized_length :
    (getMachinesToDeletePrioritized S filteredMachines diff priority).length =
      min diff.toNat filteredMachines.length := by
  rw [getMachinesToDeletePrioritized_eq_take hS, List.length_take, hS.length_sort]

theorem getMachinesToDeletePrioritized_split :
    ∃ leftOut, (getMachinesToDeletePrioritized S filteredMachines diff priority ++ leftOut).Perm
        filteredMachines ∧
      ∀ m ∈ getMachinesToDeletePrioritized S filteredMachines diff priority, ∀ m' ∈ leftOut,
        sortKey priority m ≤ sortKey priority m' := by
  rw [getMachinesToDeletePrioritized_eq_take hS]
  refine ⟨(S.sort (sortableMachinesLess priority) filteredMachines).drop diff.toNat, ?_, ?_⟩
  · rw [List.take_append_drop]
    exact hS.perm _ _
  · intro m hm m' hm'
    have h := hS.not_less_of_take_drop (strictWeakOn_sortableMachinesLess priority _) _ m hm m' hm'
    simpa [sortableMachinesLess_eq] using h

theorem getMachinesToDeletePrioritized_priority :
    ∃ leftOut, (getMachinesToDeletePrioritized S filteredMachines diff priority ++ leftOut).Perm
        filteredMachines ∧
      ∀ m ∈ getMachinesToDeletePrioritized S filteredMachines diff priority, ∀ m' ∈ leftOut,
        priority m' ≤ priority m := by
  obtain ⟨leftOut, hperm, hkey⟩ := getMachinesToDeletePrioritized_split hS filteredMachines diff
    priority
  refine ⟨leftOut, hperm, fun m hm m' hm' => ?_⟩
  have h := hkey m hm m' hm'
  rw [sortKey, sortKey, Prod.Lex.toLex_le_toLex, OrderDual.toDual_lt_toDual,
    EmbeddingLike.apply_eq_iff_eq] at h
  rcases h with h | ⟨h, -⟩
  · exact h.le
  · exact h.ge

end Prioritized

/-! ### The classes -/

/-- The classes of the deletion orders, highest first: deleting, marked for deletion, in-place
update in progress, unhealthy, healthy. -/
def deletionClass (machine : Machine) : Nat :=
  if !IsZero machine.deletionTimestamp then 4
  else if hasAnnotation machine DeleteMachineAnnotation then 3
  else if IsUpdateInProgress machine then 2
  else if !isMachineHealthy machine then 1
  else 0

theorem deletionClass_le (machine : Machine) : deletionClass machine ≤ 4 := by
  unfold deletionClass
  split_ifs <;> omega

def classPriority (healthy : deletePriority) : Nat → deletePriority
  | 4 => mustDelete
  | 3 => shouldDeleteFirst
  | 2 => shouldDelete
  | 1 => betterDelete
  | _ => healthy

theorem deletionOrder_eq_classPriority (healthy : Machine → deletePriority) (machine : Machine) :
    deletionOrder healthy machine = classPriority (healthy machine) (deletionClass machine) := by
  unfold deletionOrder deletionClass
  split_ifs <;> rfl

theorem classPriority_lt {healthy : deletePriority} {c c' : Nat}
    (hhealthy : c = 0 → healthy < betterDelete) (hc : c < c') (hc' : c' ≤ 4) :
    classPriority healthy c < classPriority healthy c' := by
  interval_cases c' <;> interval_cases c <;>
    norm_num [classPriority, mustDelete, shouldDeleteFirst, shouldDelete, betterDelete] at hhealthy ⊢ <;>
    linarith

theorem classPriority_of_pos {healthy healthy' : deletePriority} {c : Nat} (hc : 0 < c)
    (hc' : c ≤ 4) : classPriority healthy c = classPriority healthy' c := by
  interval_cases c <;> rfl

theorem deletionOrder_of_healthy {healthy : Machine → deletePriority} {machine : Machine}
    (h : deletionClass machine = 0) : deletionOrder healthy machine = healthy machine := by
  simp [deletionOrder_eq_classPriority, h, classPriority]

theorem deletionOrder_of_unhealthy {healthy : Machine → deletePriority} {machine : Machine}
    (h : deletionClass machine = 1) : deletionOrder healthy machine = betterDelete := by
  simp [deletionOrder_eq_classPriority, h, classPriority]

theorem deletionOrder_lt_of_deletionClass_lt {healthy : Machine → deletePriority} {a b : Machine}
    (hhealthy : deletionClass a = 0 → healthy a < betterDelete)
    (hab : deletionClass a < deletionClass b) :
    deletionOrder healthy a < deletionOrder healthy b := by
  rw [deletionOrder_eq_classPriority, deletionOrder_eq_classPriority,
    @classPriority_of_pos (healthy b) (healthy a) _ (by omega) (deletionClass_le b)]
  exact @classPriority_lt (healthy a) _ _ hhealthy hab (deletionClass_le b)

theorem getMachinesToDeletePrioritized_classes {S : Sorter} (hS : S.Lawful)
    (filteredMachines : List Machine) (diff : Int) (healthy : Machine → deletePriority)
    (hhealthy : ∀ m ∈ filteredMachines, deletionClass m = 0 → healthy m < betterDelete) :
    ∃ leftOut,
      (getMachinesToDeletePrioritized S filteredMachines diff (deletionOrder healthy) ++
        leftOut).Perm filteredMachines ∧
      ∀ m ∈ getMachinesToDeletePrioritized S filteredMachines diff (deletionOrder healthy),
        ∀ m' ∈ leftOut, deletionClass m' ≤ deletionClass m := by
  obtain ⟨leftOut, hperm, hle⟩ :=
    getMachinesToDeletePrioritized_priority hS filteredMachines diff (deletionOrder healthy)
  refine ⟨leftOut, hperm, fun m hm m' hm' => ?_⟩
  by_contra hlt
  have hm_mem : m ∈ filteredMachines := hperm.subset (List.mem_append_left _ hm)
  have := deletionOrder_lt_of_deletionClass_lt (hhealthy m hm_mem) (not_le.mp hlt)
  exact absurd (hle m hm m' hm') (not_le.mpr this)

/-! ### The three orders -/

theorem randomDeletionOrder_classes {S : Sorter} (hS : S.Lawful)
    (filteredMachines : List Machine) (diff : Int) :
    ∃ leftOut,
      (getMachinesToDeletePrioritized S filteredMachines diff randomDeletionOrder ++
        leftOut).Perm filteredMachines ∧
      ∀ m ∈ getMachinesToDeletePrioritized S filteredMachines diff randomDeletionOrder,
        ∀ m' ∈ leftOut, deletionClass m' ≤ deletionClass m :=
  getMachinesToDeletePrioritized_classes hS filteredMachines diff _
    fun _ _ _ => by norm_num [couldDelete, betterDelete]

theorem Sub_neg_iff (t u : Int) : Sub t u < 0 ↔ t < u := by
  unfold Sub
  omega

theorem Seconds_neg_iff (d : Int) : Seconds d < 0 ↔ d < 0 := by
  unfold Seconds
  rw [div_lt_iff₀ (by norm_num), zero_mul]
  exact_mod_cast Iff.rfl

theorem Seconds_Sub_nonneg {t u : Int} (h : u ≤ t) : 0 ≤ Seconds (Sub t u) := by
  apply not_lt.mp
  rw [Seconds_neg_iff, Sub_neg_iff]
  omega

theorem Seconds_Sub_pos {t u : Int} (h : u < t) : 0 < Seconds (Sub t u) := by
  -- saturation keeps a positive difference positive
  have hpos : 0 < Sub t u := by
    unfold Sub
    omega
  unfold Seconds
  exact div_pos (by exact_mod_cast hpos) (by norm_num)

section Age

variable {Exp : ℚ → ℚ} {now : Int} {machine : Machine}

theorem oldestAgePriority_of_not_created
    (h : machine.creationTimestamp = 0 ∨ now < machine.creationTimestamp) :
    oldestAgePriority Exp now machine = mustNotDelete := by
  unfold oldestAgePriority
  rcases h with h | h
  · rw [if_pos h]
  · have hneg := (Seconds_neg_iff _).mpr ((Sub_neg_iff _ _).mpr h)
    split_ifs
    · rfl
    · exact if_pos hneg

theorem oldestAgePriority_of_created (h0 : machine.creationTimestamp ≠ 0)
    (hle : machine.creationTimestamp ≤ now) :
    oldestAgePriority Exp now machine =
      betterDelete * (1 - Exp (-Seconds (Sub now machine.creationTimestamp) / secondsPerTenDays)) := by
  unfold oldestAgePriority
  rw [if_neg h0]
  exact if_neg (not_lt.mpr (Seconds_Sub_nonneg hle))

theorem age_nonpos (hle : machine.creationTimestamp ≤ now) :
    -Seconds (Sub now machine.creationTimestamp) / secondsPerTenDays ≤ 0 := by
  have := Seconds_Sub_nonneg hle
  apply div_nonpos_of_nonpos_of_nonneg (by linarith) (by norm_num [secondsPerTenDays])

theorem age_neg (hlt : machine.creationTimestamp < now) :
    -Seconds (Sub now machine.creationTimestamp) / secondsPerTenDays < 0 := by
  have := Seconds_Sub_pos hlt
  exact div_neg_of_neg_of_pos (by linarith) (by norm_num [secondsPerTenDays])

theorem oldestAgePriority_lt (hExp : ∀ y ≤ 0, 0 < Exp y) :
    oldestAgePriority Exp now machine < betterDelete := by
  by_cases h : machine.creationTimestamp = 0 ∨ now < machine.creationTimestamp
  · rw [oldestAgePriority_of_not_created h]
    norm_num [mustNotDelete, betterDelete]
  · push Not at h
    rw [oldestAgePriority_of_created h.1 h.2]
    have := hExp _ (age_nonpos h.2)
    norm_num [betterDelete]
    linarith

theorem oldestAgePriority_pos (hExp : ∀ y < 0, Exp y < 1) (h0 : machine.creationTimestamp ≠ 0)
    (hlt : machine.creationTimestamp < now) : 0 < oldestAgePriority Exp now machine := by
  rw [oldestAgePriority_of_created h0 hlt.le]
  have := hExp _ (age_neg hlt)
  norm_num [betterDelete]
  linarith

theorem newestDeletionOrder_of_healthy (h : deletionClass machine = 0) :
    newestDeletionOrder Exp now machine = betterDelete - oldestAgePriority Exp now machine := by
  simp only [newestDeletionOrder, oldestDeletionOrder, deletionOrder_of_healthy h]

theorem newestDeletionOrder_tie (h : deletionClass machine = 0)
    (hcreated : machine.creationTimestamp = 0 ∨ now < machine.creationTimestamp) :
    newestDeletionOrder Exp now machine = betterDelete := by
  rw [newestDeletionOrder_of_healthy h, oldestAgePriority_of_not_created hcreated, mustNotDelete,
    sub_zero]

end Age

section Orders

variable {S : Sorter} (hS : S.Lawful) (filteredMachines : List Machine) (diff : Int)
  {Exp : ℚ → ℚ} {now : Int}
include hS

theorem oldestDeletionOrder_classes (hExp : ∀ y ≤ 0, 0 < Exp y) :
    ∃ leftOut,
      (getMachinesToDeletePrioritized S filteredMachines diff (oldestDeletionOrder Exp now) ++
        leftOut).Perm filteredMachines ∧
      ∀ m ∈ getMachinesToDeletePrioritized S filteredMachines diff (oldestDeletionOrder Exp now),
        ∀ m' ∈ leftOut, deletionClass m' ≤ deletionClass m :=
  getMachinesToDeletePrioritized_classes hS filteredMachines diff _
    fun _ _ _ => oldestAgePriority_lt hExp

theorem newestDeletionOrder_classes (hExp : ∀ y < 0, Exp y < 1)
    (hcreated : ∀ m ∈ filteredMachines, deletionClass m = 0 →
      m.creationTimestamp ≠ 0 ∧ m.creationTimestamp < now) :
    ∃ leftOut,
      (getMachinesToDeletePrioritized S filteredMachines diff (newestDeletionOrder Exp now) ++
        leftOut).Perm filteredMachines ∧
      ∀ m ∈ getMachinesToDeletePrioritized S filteredMachines diff (newestDeletionOrder Exp now),
        ∀ m' ∈ leftOut, deletionClass m' ≤ deletionClass m := by
  apply getMachinesToDeletePrioritized_classes hS filteredMachines diff
  intro m hm h
  obtain ⟨h0, hlt⟩ := hcreated m hm h
  rw [oldestDeletionOrder, deletionOrder_of_healthy h]
  linarith [oldestAgePriority_pos hExp h0 hlt]

end Orders

/-- Newest picks the healthy machine `a`, created at the zero time, and leaves out `b`, which has
no node: both get `betterDelete`, and `a` comes first by name. -/
theorem getMachinesToDeletePrioritized_newest_tie {S : Sorter} (hS : S.Lawful) (Exp : ℚ → ℚ)
    (now : Int) :
    getMachinesToDeletePrioritized S
        [⟨"b", 1, none, [], "", []⟩, ⟨"a", 0, none, [], "node-a", []⟩] 1
        (newestDeletionOrder Exp now) = [⟨"a", 0, none, [], "node-a", []⟩] ∧
      deletionClass ⟨"a", 0, none, [], "node-a", []⟩ <
        deletionClass ⟨"b", 1, none, [], "", []⟩ := by
  have ha : deletionClass ⟨"a", 0, none, [], "node-a", []⟩ = 0 := by decide
  have hb : deletionClass ⟨"b", 1, none, [], "", []⟩ = 1 := by decide
  have hless : sortableMachinesLess (newestDeletionOrder Exp now)
      ⟨"a", 0, none, [], "node-a", []⟩ ⟨"b", 1, none, [], "", []⟩ = true := by
    have hpb : newestDeletionOrder Exp now ⟨"b", 1, none, [], "", []⟩ = betterDelete :=
      deletionOrder_of_unhealthy hb
    rw [sortableMachinesLess, newestDeletionOrder_tie ha (.inl rfl), hpb, if_pos rfl]
    decide
  refine ⟨?_, by rw [ha, hb]; decide⟩
  rw [getMachinesToDeletePrioritized_eq_take hS, hS.short _ _ (by decide)]
  simp [insertionSort, insertRev, hless]

theorem getMachinesToDeletePrioritized_newest_tie_sample :
    getMachinesToDeletePrioritized Sorter.sample
        [⟨"b", 1, none, [], "", []⟩, ⟨"a", 0, none, [], "node-a", []⟩] 1
        (newestDeletionOrder (fun _ => 1) 0) = [⟨"a", 0, none, [], "node-a", []⟩] ∧
      deletionClass ⟨"a", 0, none, [], "node-a", []⟩ <
        deletionClass ⟨"b", 1, none, [], "", []⟩ :=
  getMachinesToDeletePrioritized_newest_tie Sorter.sample_lawful (fun _ => 1) 0

end ClusterApi.MachineSet
