import ClusterApi.Lib.Balance
import ClusterApi.Util.FailureDomains

/-!
# Spreading control plane machines over failure domains

The machine selection of the KubeadmControlPlane controller: `NextFailureDomainForScaleUp`,
`FailureDomainWithMostMachines` and `MachineInFailureDomainWithMostMachines`
(`controlplane/kubeadm/internal/control_plane.go`) and `selectMachineForInPlaceUpdateOrScaleDown`
(`controllers/scale.go`). `Step` is what the controller does with them: a scale up creates an
up-to-date machine in the failure domain picked for it, a rollout step deletes the machine
selected among the machines needing rollout, a scale down deletes the one selected with no
outdated machine; each runs only when `preflightChecks` finds no machine being deleted, and a
deletion completes at any time.

The count that is kept balanced is, per failure domain, the up-to-date machines not being
deleted: the priority machines of `NextFailureDomainForScaleUp`.
-/

namespace ClusterApi.Kubeadm
open ClusterApi.Util.FailureDomains ClusterApi.Lib.Balance

structure ControlPlane where
  failureDomains : List FailureDomain
  machines : List Machine
  deriving DecidableEq, Repr

namespace ControlPlane

variable (c : ControlPlane)

def FailureDomains : List FailureDomain :=
  c.failureDomains.filter (·.controlPlane)

def UpToDateMachines : List Machine :=
  c.machines.filter (·.upToDate)

/-- Machines not up to date; those already being deleted are dropped. -/
def MachinesNeedingRollout : List Machine :=
  c.machines.filter fun m => !m.upToDate && !m.deleting

def HasDeletingMachine : Bool :=
  (c.machines.filter (·.deleting)).length > 0

def delete (machine : Machine) : ControlPlane :=
  { c with machines := c.machines.map fun m =>
      if m.name = machine.name then { m with deleting := true } else m }

end ControlPlane

def MachineWithDeleteAnnotation (machines : List Machine) : List Machine :=
  machines.filter (·.deleteRequested)

def UnhealthyMachinesWithUnhealthyControlPlaneComponents (machines : List Machine) :
    List Machine :=
  machines.filter (·.unhealthyControlPlaneComponents)

def getGetFailureDomainIDs (failureDomains : List FailureDomain) : List String :=
  failureDomains.map (·.name)

def FailureDomainWithMostMachines (c : ControlPlane) (eligibleMachines : List Machine) : String :=
  let notInFailureDomains := eligibleMachines.filter fun m =>
    !InFailureDomains (getGetFailureDomainIDs c.FailureDomains) m
  if notInFailureDomains.length > 0 then
    match Oldest notInFailureDomains with
    | some m => m.failureDomain
    | none => ""
  else PickMost c.FailureDomains c.machines eligibleMachines

def MachineInFailureDomainWithMostMachines (c : ControlPlane) (eligibleMachines : List Machine) :
    Except String Machine :=
  let fd := FailureDomainWithMostMachines c eligibleMachines
  let machinesInFailureDomain := eligibleMachines.filter (InFailureDomains [fd])
  match Oldest machinesInFailureDomain with
  | none => .error "failed to pick control plane Machine to mark for deletion"
  | some machineToMark => .ok machineToMark

def NextFailureDomainForScaleUp (c : ControlPlane) : String :=
  if c.FailureDomains.length = 0 then ""
  else PickFewest c.FailureDomains c.machines (c.UpToDateMachines.filter fun m => !m.deleting)

/-- The switch of `selectMachineForInPlaceUpdateOrScaleDown`: outdated machines with the delete
annotation, else any machine with it, else outdated machines with unhealthy components, else
the outdated machines, else all machines. -/
def eligibleMachines (c : ControlPlane) (outdatedMachines : List Machine) : List Machine :=
  let annotatedOutdated := MachineWithDeleteAnnotation outdatedMachines
  let annotated := MachineWithDeleteAnnotation c.machines
  let unhealthyOutdated := UnhealthyMachinesWithUnhealthyControlPlaneComponents outdatedMachines
  if annotatedOutdated.length > 0 then annotatedOutdated
  else if annotated.length > 0 then annotated
  else if unhealthyOutdated.length > 0 then unhealthyOutdated
  else if outdatedMachines.length > 0 then outdatedMachines
  else c.machines

def selectMachineForInPlaceUpdateOrScaleDown (c : ControlPlane)
    (outdatedMachines : List Machine) : Except String Machine :=
  MachineInFailureDomainWithMostMachines c (eligibleMachines c outdatedMachines)

inductive Step : ControlPlane → ControlPlane → Prop
  | scaleUp {c : ControlPlane} (newMachine : Machine) (hpreflight : c.HasDeletingMachine = false)
      (hname : newMachine.name ∉ c.machines.map (·.name))
      (hfd : newMachine.failureDomain = NextFailureDomainForScaleUp c)
      (hnew : newMachine.upToDate = true ∧ newMachine.deleting = false ∧
        newMachine.deleteRequested = false) :
      Step c { c with machines := c.machines ++ [newMachine] }
  | rolloutStep {c : ControlPlane} {machineToDelete : Machine}
      (hpreflight : c.HasDeletingMachine = false) (hrollout : c.MachinesNeedingRollout ≠ [])
      (hselect : selectMachineForInPlaceUpdateOrScaleDown c c.MachinesNeedingRollout =
        .ok machineToDelete) :
      Step c (c.delete machineToDelete)
  | scaleDown {c : ControlPlane} {machineToDelete : Machine}
      (hpreflight : c.HasDeletingMachine = false) (hrollout : c.MachinesNeedingRollout = [])
      (hselect : selectMachineForInPlaceUpdateOrScaleDown c [] = .ok machineToDelete) :
      Step c (c.delete machineToDelete)
  | deletionCompletes {c : ControlPlane} {machine : Machine} (hmem : machine ∈ c.machines)
      (hdeleting : machine.deleting = true) :
      Step c { c with machines := c.machines.erase machine }

def upToDateCount (c : ControlPlane) (fd : String) : Nat :=
  countIn (c.UpToDateMachines.filter fun m => !m.deleting) fd

/-- What every step keeps: unique machine names, every machine in a known failure domain, no
up-to-date machine with the delete annotation, and balanced up-to-date counts. -/
structure Invariant (c : ControlPlane) : Prop where
  names_nodup : (c.machines.map (·.name)).Nodup
  mem_failureDomains : ∀ m ∈ c.machines,
    m.failureDomain ∈ getGetFailureDomainIDs c.FailureDomains
  upToDate_unannotated : ∀ m ∈ c.machines, m.upToDate = true → m.deleteRequested = false
  balanced : Balanced (getGetFailureDomainIDs c.FailureDomains) (upToDateCount c)

/-! ## Counting up-to-date machines -/

theorem upToDateCount_eq (c : ControlPlane) (fd : String) :
    upToDateCount c fd =
      c.machines.countP fun m => m.upToDate && !m.deleting && m.failureDomain = fd := by
  unfold upToDateCount countIn ControlPlane.UpToDateMachines
  rw [List.countP_filter, List.countP_filter]
  congr 1
  funext m
  cases m.upToDate <;> cases m.deleting <;> simp

theorem upToDateCount_append (c : ControlPlane) (newMachine : Machine) (fd : String) :
    upToDateCount { c with machines := c.machines ++ [newMachine] } fd = upToDateCount c fd +
      if newMachine.upToDate && !newMachine.deleting && newMachine.failureDomain = fd then 1
      else 0 := by
  simp only [upToDateCount_eq, List.countP_append, List.countP_singleton]

theorem upToDateCount_erase (c : ControlPlane) {machine : Machine}
    (hdeleting : machine.deleting = true) (fd : String) :
    upToDateCount { c with machines := c.machines.erase machine } fd = upToDateCount c fd := by
  simp only [upToDateCount_eq]
  rw [List.countP_erase]
  simp [hdeleting]

theorem delete_map_name (c : ControlPlane) (machine : Machine) :
    (c.delete machine).machines.map (·.name) = c.machines.map (·.name) := by
  unfold ControlPlane.delete
  rw [List.map_map]
  congr 1
  funext m
  simp only [Function.comp_apply]
  split <;> rfl

theorem mem_delete {c : ControlPlane} {machine m' : Machine} (h : m' ∈ (c.delete machine).machines) :
    ∃ m ∈ c.machines, m'.failureDomain = m.failureDomain ∧ m'.upToDate = m.upToDate ∧
      m'.deleteRequested = m.deleteRequested := by
  obtain ⟨m, hm, rfl⟩ := List.mem_map.mp h
  refine ⟨m, hm, ?_⟩
  split <;> exact ⟨rfl, rfl, rfl⟩

theorem upToDateCount_delete {c : ControlPlane} {machine : Machine}
    (hnodup : (c.machines.map (·.name)).Nodup) (hmem : machine ∈ c.machines) (fd : String) :
    upToDateCount (c.delete machine) fd = upToDateCount c fd -
      if machine.upToDate && !machine.deleting && machine.failureDomain = fd then 1 else 0 := by
  obtain ⟨l₁, l₂, hsplit⟩ := List.append_of_mem hmem
  have hnames : ∀ m ∈ l₁ ++ l₂, m.name ≠ machine.name := by
    rw [hsplit, List.map_append, List.map_cons, List.nodup_middle, List.nodup_cons] at hnodup
    intro m hm heq
    apply hnodup.1
    rw [← List.map_append, ← heq]
    exact List.mem_map_of_mem hm
  have hkeep : ∀ l : List Machine, (∀ m ∈ l, m.name ≠ machine.name) →
      l.map (fun m => if m.name = machine.name then { m with deleting := true } else m) = l := by
    intro l hl
    rw [List.map_congr_left fun m hm => if_neg (hl m hm), List.map_id']
  have hmachines : (c.delete machine).machines =
      l₁ ++ { machine with deleting := true } :: l₂ := by
    unfold ControlPlane.delete
    simp only
    rw [hsplit, List.map_append, List.map_cons, if_pos rfl,
      hkeep l₁ fun m hm => hnames m (List.mem_append_left _ hm),
      hkeep l₂ fun m hm => hnames m (List.mem_append_right _ hm)]
  rw [upToDateCount_eq, upToDateCount_eq, hmachines, hsplit]
  simp only [List.countP_append, List.countP_cons, Bool.not_true, Bool.and_false,
    Bool.false_and, Bool.false_eq_true, if_false, Nat.add_zero]
  split_ifs <;> omega

/-! ## The selection -/

section Selection

variable {c : ControlPlane}

theorem HasDeletingMachine_eq_false_iff :
    c.HasDeletingMachine = false ↔ ∀ m ∈ c.machines, m.deleting = false := by
  simp [ControlPlane.HasDeletingMachine]

theorem mem_MachinesNeedingRollout {m : Machine} :
    m ∈ c.MachinesNeedingRollout ↔ m ∈ c.machines ∧ m.upToDate = false ∧ m.deleting = false := by
  simp [ControlPlane.MachinesNeedingRollout]

theorem MachineInFailureDomainWithMostMachines_ok {eligible : List Machine} {m : Machine}
    (h : MachineInFailureDomainWithMostMachines c eligible = .ok m) :
    m ∈ eligible ∧ m.failureDomain = FailureDomainWithMostMachines c eligible := by
  unfold MachineInFailureDomainWithMostMachines at h
  dsimp only at h
  cases hold : Oldest (eligible.filter
      (InFailureDomains [FailureDomainWithMostMachines c eligible])) with
  | none => simp [hold] at h
  | some machineToMark =>
    simp only [hold, Except.ok.injEq] at h
    subst h
    have hfilter := List.mem_filter.mp (Oldest_mem hold)
    exact ⟨hfilter.1, by simpa [InFailureDomains_iff] using hfilter.2⟩

theorem FailureDomainWithMostMachines_eq_PickMost {eligible : List Machine}
    (hknown : ∀ m ∈ eligible, m.failureDomain ∈ getGetFailureDomainIDs c.FailureDomains) :
    FailureDomainWithMostMachines c eligible =
      PickMost c.FailureDomains c.machines eligible := by
  have hnone : eligible.filter (fun m =>
      !InFailureDomains (getGetFailureDomainIDs c.FailureDomains) m) = [] :=
    List.filter_eq_nil_iff.mpr fun m hm => by simp [InFailureDomains_iff.mpr (hknown m hm)]
  unfold FailureDomainWithMostMachines
  simp [hnone]

theorem eligibleMachines_rollout (hinv : Invariant c) (hpreflight : c.HasDeletingMachine = false)
    (hrollout : c.MachinesNeedingRollout ≠ []) :
    ∀ m ∈ eligibleMachines c c.MachinesNeedingRollout, m.upToDate = false := by
  have hdel := HasDeletingMachine_eq_false_iff.mp hpreflight
  unfold eligibleMachines
  dsimp only
  split_ifs with hannotatedOutdated hannotated hunhealthy houtdated
  · intro m hm
    exact (mem_MachinesNeedingRollout.mp (List.mem_filter.mp hm).1).2.1
  · -- an annotated machine is outdated, so it is an annotated outdated one
    exfalso
    obtain ⟨a, ha⟩ := List.exists_mem_of_length_pos hannotated
    obtain ⟨hmem, hreq⟩ := List.mem_filter.mp ha
    have hout : a.upToDate = false := by
      cases hup : a.upToDate
      · rfl
      · simp [hinv.upToDate_unannotated a hmem hup] at hreq
    have ha' : a ∈ MachineWithDeleteAnnotation c.MachinesNeedingRollout :=
      List.mem_filter.mpr ⟨mem_MachinesNeedingRollout.mpr ⟨hmem, hout, hdel a hmem⟩, hreq⟩
    exact hannotatedOutdated (List.length_pos_of_mem ha')
  · intro m hm
    exact (mem_MachinesNeedingRollout.mp (List.mem_filter.mp hm).1).2.1
  · intro m hm
    exact (mem_MachinesNeedingRollout.mp hm).2.1
  · exact absurd (List.length_pos_of_ne_nil hrollout) houtdated

theorem eligibleMachines_scaleDown (hinv : Invariant c) (hpreflight : c.HasDeletingMachine = false)
    (hrollout : c.MachinesNeedingRollout = []) :
    (∀ m ∈ c.machines, m.upToDate = true ∧ m.deleting = false) ∧
      eligibleMachines c [] = c.machines := by
  have hdel := HasDeletingMachine_eq_false_iff.mp hpreflight
  have hup : ∀ m ∈ c.machines, m.upToDate = true ∧ m.deleting = false := by
    intro m hm
    refine ⟨?_, hdel m hm⟩
    cases hout : m.upToDate
    · have := mem_MachinesNeedingRollout.mpr ⟨hm, hout, hdel m hm⟩
      simp [hrollout] at this
    · rfl
  have hannotated : MachineWithDeleteAnnotation c.machines = [] :=
    List.filter_eq_nil_iff.mpr fun m hm => by
      simp [hinv.upToDate_unannotated m hm (hup m hm).1]
  have hnil : MachineWithDeleteAnnotation ([] : List Machine) = [] := rfl
  refine ⟨hup, ?_⟩
  simp [eligibleMachines, hnil, hannotated, UnhealthyMachinesWithUnhealthyControlPlaneComponents]

theorem eligibleMachines_subset {outdatedMachines : List Machine}
    (houtdated : ∀ m ∈ outdatedMachines, m ∈ c.machines) :
    ∀ m ∈ eligibleMachines c outdatedMachines, m ∈ c.machines := by
  unfold eligibleMachines
  dsimp only
  split_ifs
  · exact fun m hm => houtdated m (List.mem_filter.mp hm).1
  · exact fun m hm => (List.mem_filter.mp hm).1
  · exact fun m hm => houtdated m (List.mem_filter.mp hm).1
  · exact houtdated
  · exact fun _ hm => hm

end Selection

/-! ## Every step keeps the invariant -/

section Steps

variable {c : ControlPlane} (hfds : c.FailureDomains ≠ [])
  (hempty : "" ∉ getGetFailureDomainIDs c.FailureDomains)

theorem Invariant.delete (hinv : Invariant c) {machine : Machine}
    (hbalanced : Balanced (getGetFailureDomainIDs c.FailureDomains)
      (upToDateCount (c.delete machine))) :
    Invariant (c.delete machine) := by
  refine ⟨?_, ?_, ?_, hbalanced⟩
  · rw [delete_map_name]
    exact hinv.names_nodup
  · intro m hm
    obtain ⟨m₀, hm₀, hfd, -, -⟩ := mem_delete hm
    rw [hfd]
    exact hinv.mem_failureDomains m₀ hm₀
  · intro m hm hup
    obtain ⟨m₀, hm₀, -, hup₀, hreq⟩ := mem_delete hm
    rw [hreq]
    exact hinv.upToDate_unannotated m₀ hm₀ (hup₀ ▸ hup)

include hfds hempty in
theorem Invariant.scaleUp (hinv : Invariant c) {newMachine : Machine}
    (hname : newMachine.name ∉ c.machines.map (·.name))
    (hfd : newMachine.failureDomain = NextFailureDomainForScaleUp c)
    (hnew : newMachine.upToDate = true ∧ newMachine.deleting = false ∧
      newMachine.deleteRequested = false) :
    Invariant { c with machines := c.machines ++ [newMachine] } := by
  obtain ⟨hup, hdel, hreq⟩ := hnew
  have hnext : NextFailureDomainForScaleUp c =
      PickFewest c.FailureDomains c.machines (c.UpToDateMachines.filter fun m => !m.deleting) := by
    unfold NextFailureDomainForScaleUp
    rw [if_neg (by simpa [List.length_eq_zero_iff] using hfds)]
  obtain ⟨hmem, hmin⟩ := PickFewest_spec hfds hempty c.machines
    (c.UpToDateMachines.filter fun m => !m.deleting)
  rw [hnext] at hfd
  refine ⟨?_, ?_, ?_, ?_⟩
  · rw [List.map_append, List.map_singleton, List.nodup_append]
    refine ⟨hinv.names_nodup, List.nodup_singleton _, ?_⟩
    intro a ha b hb
    rw [List.mem_singleton] at hb
    rintro rfl
    exact hname (hb ▸ ha)
  · intro m hm
    rcases List.mem_append.mp hm with hm | hm
    · exact hinv.mem_failureDomains m hm
    · rw [List.mem_singleton.mp hm, hfd]
      exact hmem
  · intro m hm hupm
    rcases List.mem_append.mp hm with hm | hm
    · exact hinv.upToDate_unannotated m hm hupm
    · rw [List.mem_singleton.mp hm]
      exact hreq
  · apply hinv.balanced.add_at_min hmin
    intro j
    rw [upToDateCount_append, hup, hdel, hfd]
    by_cases hj : j = PickFewest c.FailureDomains c.machines
      (c.UpToDateMachines.filter fun m => !m.deleting)
    · simp [hj]
    · simp [hj, Ne.symm hj]

theorem Invariant.rolloutStep (hinv : Invariant c) {machineToDelete : Machine}
    (hpreflight : c.HasDeletingMachine = false) (hrollout : c.MachinesNeedingRollout ≠ [])
    (hselect : selectMachineForInPlaceUpdateOrScaleDown c c.MachinesNeedingRollout =
      .ok machineToDelete) :
    Invariant (c.delete machineToDelete) := by
  obtain ⟨heligible, -⟩ := MachineInFailureDomainWithMostMachines_ok hselect
  have hout := eligibleMachines_rollout hinv hpreflight hrollout _ heligible
  have hmem := eligibleMachines_subset
    (fun m hm => (mem_MachinesNeedingRollout.mp hm).1) _ heligible
  refine hinv.delete (hinv.balanced.of_eq fun j _ => ?_)
  rw [upToDateCount_delete hinv.names_nodup hmem, hout]
  simp

include hfds hempty in
theorem Invariant.scaleDown (hinv : Invariant c) {machineToDelete : Machine}
    (hpreflight : c.HasDeletingMachine = false) (hrollout : c.MachinesNeedingRollout = [])
    (hselect : selectMachineForInPlaceUpdateOrScaleDown c [] = .ok machineToDelete) :
    Invariant (c.delete machineToDelete) := by
  obtain ⟨hall, heligible⟩ := eligibleMachines_scaleDown hinv hpreflight hrollout
  unfold selectMachineForInPlaceUpdateOrScaleDown at hselect
  rw [heligible] at hselect
  obtain ⟨hmem, hfd⟩ := MachineInFailureDomainWithMostMachines_ok hselect
  rw [FailureDomainWithMostMachines_eq_PickMost hinv.mem_failureDomains] at hfd
  -- every machine is up to date and none is being deleted: `PickMost` counts what is balanced
  have hcount : ∀ g, countIn c.machines g = upToDateCount c g := by
    intro g
    rw [upToDateCount_eq]
    apply List.countP_congr
    intro x hx
    simp [(hall x hx).1, (hall x hx).2]
  rcases PickMost_spec hfds hempty c.machines c.machines with ⟨hnone, -⟩ | ⟨-, -, hmax⟩
  · -- nothing would be picked, yet the machine is in a known failure domain
    have hknown := hinv.mem_failureDomains machineToDelete hmem
    rw [hfd, hnone] at hknown
    exact absurd hknown hempty
  · refine hinv.delete (hinv.balanced.sub_at_max (i := machineToDelete.failureDomain) ?_ ?_)
    · intro g hg
      rw [← hcount, ← hcount, hfd]
      exact hmax g hg
    · intro j
      rw [upToDateCount_delete hinv.names_nodup hmem, (hall _ hmem).1, (hall _ hmem).2]
      by_cases hj : j = machineToDelete.failureDomain
      · simp [hj]
      · simp [hj, Ne.symm hj]

theorem Invariant.deletionCompletes (hinv : Invariant c) {machine : Machine}
    (hdeleting : machine.deleting = true) :
    Invariant { c with machines := c.machines.erase machine } := by
  refine ⟨?_, ?_, ?_, hinv.balanced.of_eq fun j _ => upToDateCount_erase c hdeleting j⟩
  · exact (List.erase_sublist.map _).nodup hinv.names_nodup
  · intro m hm
    exact hinv.mem_failureDomains m (List.mem_of_mem_erase hm)
  · intro m hm
    exact hinv.upToDate_unannotated m (List.mem_of_mem_erase hm)

include hfds hempty in
theorem Step.invariant {c' : ControlPlane} (hinv : Invariant c) (hstep : Step c c') :
    Invariant c' := by
  cases hstep with
  | scaleUp newMachine hpreflight hname hfd hnew =>
    exact hinv.scaleUp hfds hempty hname hfd hnew
  | rolloutStep hpreflight hrollout hselect => exact hinv.rolloutStep hpreflight hrollout hselect
  | scaleDown hpreflight hrollout hselect =>
    exact hinv.scaleDown hfds hempty hpreflight hrollout hselect
  | deletionCompletes hmem hdeleting => exact hinv.deletionCompletes hdeleting

end Steps

theorem Step.failureDomains_eq {c c' : ControlPlane} (hstep : Step c c') :
    c'.failureDomains = c.failureDomains := by
  cases hstep <;> rfl

/-- From a state with the invariant, every state the steps reach has it. -/
theorem Step.reachable_invariant {c₀ c : ControlPlane}
    (hfds : c₀.FailureDomains ≠ []) (hempty : "" ∉ getGetFailureDomainIDs c₀.FailureDomains)
    (hinv : Invariant c₀) (hrun : Relation.ReflTransGen Step c₀ c) :
    Invariant c ∧ c.failureDomains = c₀.failureDomains := by
  induction hrun with
  | refl => exact ⟨hinv, rfl⟩
  | @tail b c' _ hstep ih =>
    obtain ⟨hinvb, hfdb⟩ := ih
    have hsame : b.FailureDomains = c₀.FailureDomains := by
      unfold ControlPlane.FailureDomains
      rw [hfdb]
    exact ⟨Step.invariant (hsame ▸ hfds) (hsame ▸ hempty) hinvb hstep,
      (Step.failureDomains_eq hstep).trans hfdb⟩

/-- The spreading of control plane machines: from a state with unique machine names, every
machine in a control plane failure domain, no up-to-date machine with the delete annotation and
balanced counts, every state the steps reach is balanced, and a rollout step from it deletes an
outdated machine. -/
theorem Step_balanced_rollout_outdated (c₀ c : ControlPlane)
    (hfds : c₀.FailureDomains ≠ []) (hempty : "" ∉ getGetFailureDomainIDs c₀.FailureDomains)
    (hinv : Invariant c₀) (hrun : Relation.ReflTransGen Step c₀ c) :
    Balanced (getGetFailureDomainIDs c.FailureDomains) (upToDateCount c) ∧
      ∀ machineToDelete, c.HasDeletingMachine = false → c.MachinesNeedingRollout ≠ [] →
        selectMachineForInPlaceUpdateOrScaleDown c c.MachinesNeedingRollout =
          .ok machineToDelete →
        machineToDelete.upToDate = false := by
  obtain ⟨hinvc, -⟩ := Step.reachable_invariant hfds hempty hinv hrun
  refine ⟨hinvc.balanced, fun machineToDelete hpreflight hrollout hselect => ?_⟩
  obtain ⟨heligible, -⟩ := MachineInFailureDomainWithMostMachines_ok hselect
  exact eligibleMachines_rollout hinvc hpreflight hrollout _ heligible

def controlPlaneMidRollout : ControlPlane where
  failureDomains := [⟨"fd1", true⟩, ⟨"fd2", true⟩]
  machines := [⟨"m1", "fd1", 1, false, false, true, false⟩, ⟨"m2", "fd2", 2, false, false, false, false⟩]

theorem controlPlaneMidRollout_invariant : Invariant controlPlaneMidRollout :=
  ⟨by decide, by decide, by decide, by decide⟩

theorem selectMachineForInPlaceUpdateOrScaleDown_midRollout :
    selectMachineForInPlaceUpdateOrScaleDown controlPlaneMidRollout
        controlPlaneMidRollout.MachinesNeedingRollout =
      .ok ⟨"m2", "fd2", 2, false, false, false, false⟩ := by
  have heligible : eligibleMachines controlPlaneMidRollout
      controlPlaneMidRollout.MachinesNeedingRollout =
        [⟨"m2", "fd2", 2, false, false, false, false⟩] := by decide
  have hpick : PickMost controlPlaneMidRollout.FailureDomains controlPlaneMidRollout.machines
      [⟨"m2", "fd2", 2, false, false, false, false⟩] = "fd2" :=
    PickMost_eq_of_lt _ _ (by decide) (by decide) (by decide)
  rw [selectMachineForInPlaceUpdateOrScaleDown, heligible, MachineInFailureDomainWithMostMachines,
    FailureDomainWithMostMachines_eq_PickMost (by decide), hpick]
  rfl

theorem Step_balanced_rollout_outdated_sample :
    controlPlaneMidRollout.FailureDomains ≠ [] ∧
      "" ∉ getGetFailureDomainIDs controlPlaneMidRollout.FailureDomains ∧
      Invariant controlPlaneMidRollout ∧
      Relation.ReflTransGen Step controlPlaneMidRollout
        (controlPlaneMidRollout.delete ⟨"m2", "fd2", 2, false, false, false, false⟩) ∧
      Balanced (getGetFailureDomainIDs
          (controlPlaneMidRollout.delete ⟨"m2", "fd2", 2, false, false, false, false⟩).FailureDomains)
        (upToDateCount (controlPlaneMidRollout.delete ⟨"m2", "fd2", 2, false, false, false, false⟩)) ∧
      ∀ machineToDelete,
        (controlPlaneMidRollout.delete ⟨"m2", "fd2", 2, false, false, false, false⟩).HasDeletingMachine =
          false →
        (controlPlaneMidRollout.delete ⟨"m2", "fd2", 2, false, false, false, false⟩).MachinesNeedingRollout ≠
          [] →
        selectMachineForInPlaceUpdateOrScaleDown
            (controlPlaneMidRollout.delete ⟨"m2", "fd2", 2, false, false, false, false⟩)
            (controlPlaneMidRollout.delete
              ⟨"m2", "fd2", 2, false, false, false, false⟩).MachinesNeedingRollout =
          .ok machineToDelete →
        machineToDelete.upToDate = false :=
  have hrun : Relation.ReflTransGen Step controlPlaneMidRollout
      (controlPlaneMidRollout.delete ⟨"m2", "fd2", 2, false, false, false, false⟩) :=
    .single (Step.rolloutStep (by decide) (by decide) selectMachineForInPlaceUpdateOrScaleDown_midRollout)
  ⟨by decide, by decide, controlPlaneMidRollout_invariant, hrun,
    Step_balanced_rollout_outdated _ _ (by decide) (by decide) controlPlaneMidRollout_invariant hrun⟩

/-- The first failure domain has an up-to-date machine with the delete annotation and an
outdated one, the second two up-to-date machines. -/
def controlPlaneWithAnnotatedMachine : ControlPlane where
  failureDomains := [⟨"fd1", true⟩, ⟨"fd2", true⟩]
  machines := [⟨"m1", "fd1", 1, false, true, true, false⟩, ⟨"m2", "fd2", 2, false, false, true, false⟩,
    ⟨"m3", "fd2", 3, false, false, true, false⟩, ⟨"m4", "fd1", 4, false, false, false, false⟩]

theorem selectMachineForInPlaceUpdateOrScaleDown_annotated :
    selectMachineForInPlaceUpdateOrScaleDown controlPlaneWithAnnotatedMachine
        controlPlaneWithAnnotatedMachine.MachinesNeedingRollout =
      .ok ⟨"m1", "fd1", 1, false, true, true, false⟩ := by
  have heligible : eligibleMachines controlPlaneWithAnnotatedMachine
      controlPlaneWithAnnotatedMachine.MachinesNeedingRollout =
        [⟨"m1", "fd1", 1, false, true, true, false⟩] := by decide
  have hpick : PickMost controlPlaneWithAnnotatedMachine.FailureDomains
      controlPlaneWithAnnotatedMachine.machines [⟨"m1", "fd1", 1, false, true, true, false⟩] =
        "fd1" :=
    PickMost_eq_of_lt _ _ (by decide) (by decide) (by decide)
  rw [selectMachineForInPlaceUpdateOrScaleDown, heligible, MachineInFailureDomainWithMostMachines,
    FailureDomainWithMostMachines_eq_PickMost (by decide), hpick]
  rfl

/-- A rollout step gives the user's delete annotation priority: it deletes the up-to-date
annotated machine while an outdated one exists, and the counts are no longer balanced. -/
theorem rolloutStep_deletes_upToDate_machine :
    Balanced (getGetFailureDomainIDs controlPlaneWithAnnotatedMachine.FailureDomains)
        (upToDateCount controlPlaneWithAnnotatedMachine) ∧
      controlPlaneWithAnnotatedMachine.MachinesNeedingRollout ≠ [] ∧
      selectMachineForInPlaceUpdateOrScaleDown controlPlaneWithAnnotatedMachine
          controlPlaneWithAnnotatedMachine.MachinesNeedingRollout =
        .ok ⟨"m1", "fd1", 1, false, true, true, false⟩ ∧
      Step controlPlaneWithAnnotatedMachine
        (controlPlaneWithAnnotatedMachine.delete ⟨"m1", "fd1", 1, false, true, true, false⟩) ∧
      ¬Balanced (getGetFailureDomainIDs controlPlaneWithAnnotatedMachine.FailureDomains)
        (upToDateCount
          (controlPlaneWithAnnotatedMachine.delete ⟨"m1", "fd1", 1, false, true, true, false⟩)) :=
  ⟨by decide, by decide, selectMachineForInPlaceUpdateOrScaleDown_annotated,
    Step.rolloutStep (by decide) (by decide) selectMachineForInPlaceUpdateOrScaleDown_annotated,
    by decide⟩

end ClusterApi.Kubeadm
