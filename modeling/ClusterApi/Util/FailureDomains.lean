import Mathlib
import ClusterApi.Lib.Pdqsort

/-!
# Failure domains of control plane machines

`PickFewest`, `PickMost` and `countByFailureDomain` of `util/failuredomains`, with the machine
collection helpers they and the control plane use (`InFailureDomains`, `Oldest`,
`util/collections`). Both sorts are `sort.Sort` of `Lib.Pdqsort` with the `Less` of the source,
`failureDomainAggregations.Less` keeping equal counts in the order of their positions. The
`counters` map is read in the order of the failure domain list, which only fixes the input of the
sort.
-/

namespace ClusterApi.Util.FailureDomains
open ClusterApi.Lib.Pdqsort

/-- What the selection reads of a Machine. `deleteRequested` is the presence of the
`cluster.x-k8s.io/delete-machine` annotation; `upToDate` is KCP's verdict (not in
`MachinesNotUpToDate`); `unhealthyControlPlaneComponents` is
`HasUnhealthyControlPlaneComponents`. -/
structure Machine where
  name : String
  failureDomain : String
  creationTimestamp : Nat
  deleting : Bool
  deleteRequested : Bool
  upToDate : Bool
  unhealthyControlPlaneComponents : Bool
  deriving DecidableEq, Repr, Inhabited

structure FailureDomain where
  name : String
  controlPlane : Bool
  deriving DecidableEq, Repr

/-! ## Machine collections -/

/-- The loop of `collections.InFailureDomains`: an empty name matches only an empty failure
domain, any other name only itself. -/
def InFailureDomains (failureDomains : List String) (machine : Machine) : Bool :=
  failureDomains.any fun fd =>
    if fd = "" then fd = machine.failureDomain
    else machine.failureDomain ≠ "" ∧ fd = machine.failureDomain

def machinesByCreationTimestamp.Less (o : ℕ → Machine) (i j : ℕ) : Bool :=
  if (o i).creationTimestamp = (o j).creationTimestamp then (o i).name < (o j).name
  else (o i).creationTimestamp < (o j).creationTimestamp

def SortedByCreationTimestamp (s : List Machine) : List Machine :=
  sortSlice machinesByCreationTimestamp.Less s

def Oldest (s : List Machine) : Option Machine :=
  (SortedByCreationTimestamp s).head?

theorem InFailureDomains_iff {failureDomains : List String} {machine : Machine} :
    InFailureDomains failureDomains machine = true ↔ machine.failureDomain ∈ failureDomains := by
  unfold InFailureDomains
  rw [List.any_eq_true]
  constructor
  · rintro ⟨fd, hfd, hmatch⟩
    split_ifs at hmatch with hempty
    · have heq : fd = machine.failureDomain := by simpa using hmatch
      exact heq ▸ hfd
    · have heq : fd = machine.failureDomain := by
        simp only [decide_eq_true_eq] at hmatch
        exact hmatch.2
      exact heq ▸ hfd
  · intro hmem
    refine ⟨_, hmem, ?_⟩
    split_ifs with hempty <;> simp [hempty]

def creationTimestampKey (m : Machine) : Lex (Nat × String) :=
  toLex (m.creationTimestamp, m.name)

theorem machinesByCreationTimestamp.lessByKey :
    LessByKey creationTimestampKey machinesByCreationTimestamp.Less where
  lt o i j h := by
    rw [creationTimestampKey, creationTimestampKey, Prod.Lex.toLex_lt_toLex] at h
    unfold machinesByCreationTimestamp.Less
    rcases h with h | ⟨heq, h⟩
    · rw [if_neg h.ne]
      exact decide_eq_true h
    · rw [if_pos heq]
      exact decide_eq_true h
  le o i j h := by
    rw [creationTimestampKey, creationTimestampKey, Prod.Lex.toLex_le_toLex]
    unfold machinesByCreationTimestamp.Less at h
    split_ifs at h with heq
    · exact Or.inr ⟨heq, le_of_lt (by simpa using h)⟩
    · exact Or.inl (by simpa using h)

theorem Oldest_mem {s : List Machine} {m : Machine} (h : Oldest s = some m) : m ∈ s :=
  (sortSlice_perm _ s).subset (List.mem_of_mem_head? h)

theorem Oldest_eq_none {s : List Machine} : Oldest s = none ↔ s = [] := by
  rw [Oldest, List.head?_eq_none_iff, SortedByCreationTimestamp, ← List.length_eq_zero_iff,
    (sortSlice_perm _ s).length_eq, List.length_eq_zero_iff]

/-- `Oldest` gives a machine that is oldest, of the oldest the first by name. -/
theorem Oldest_le {s : List Machine} {m : Machine} (h : Oldest s = some m) :
    ∀ m' ∈ s, creationTimestampKey m ≤ creationTimestampKey m' := by
  intro m' hm'
  rw [Oldest, List.head?_eq_some_iff] at h
  obtain ⟨rest, hsort⟩ := h
  have hsorted := sortSlice_sorted machinesByCreationTimestamp.lessByKey s
  rw [SortedByCreationTimestamp] at hsort
  rw [hsort] at hsorted
  have hmem : m' ∈ m :: rest := hsort ▸ (sortSlice_perm _ s).symm.subset hm'
  rcases List.mem_cons.mp hmem with rfl | hmem
  · exact le_rfl
  · exact List.rel_of_pairwise_cons hsorted hmem

/-! ## Counting machines per failure domain -/

structure failureDomainAggregation where
  id : String
  countPriority : Nat
  countAll : Nat
  deriving DecidableEq, Repr, Inhabited

/-- `failureDomainAggregations.Less`: fewer priority machines first, then fewer machines, and
equal counts in the order of their positions. -/
def failureDomainAggregations.Less (f : ℕ → failureDomainAggregation) (i j : ℕ) : Bool :=
  if (f i).countPriority < (f j).countPriority then true
  else if (f i).countPriority > (f j).countPriority then false
  else if (f i).countAll < (f j).countAll then true
  else if (f i).countAll > (f j).countAll then false
  else i < j

def failureDomainAggregation.key (a : failureDomainAggregation) : Lex (Nat × Nat) :=
  toLex (a.countPriority, a.countAll)

theorem failureDomainAggregations.Less_eq (f : ℕ → failureDomainAggregation) (i j : ℕ) :
    failureDomainAggregations.Less f i j =
      if (f i).key = (f j).key then decide (i < j) else decide ((f i).key < (f j).key) := by
  simp only [failureDomainAggregations.Less, failureDomainAggregation.key, toLex_inj,
    Prod.mk.injEq, Prod.Lex.toLex_lt_toLex]
  split_ifs <;> simp_all <;> omega

theorem failureDomainAggregations.lessByKey :
    LessByKey failureDomainAggregation.key failureDomainAggregations.Less where
  lt f i j h := by
    rw [failureDomainAggregations.Less_eq, if_neg h.ne]
    exact decide_eq_true h
  le f i j h := by
    rw [failureDomainAggregations.Less_eq] at h
    split_ifs at h with heq
    · exact heq.le
    · exact (of_decide_eq_true h).le

theorem sortReverse_sorted (l : List failureDomainAggregation) :
    (sortSlice (Reverse failureDomainAggregations.Less) l).Pairwise fun a b => b.key ≤ a.key :=
  sortSlice_sorted failureDomainAggregations.lessByKey.reverse l

/-- The two counting loops of `countByFailureDomain`: a machine in a known failure domain bumps
its counter. -/
def countMachine (bump : failureDomainAggregation → failureDomainAggregation)
    (counters : String → Option failureDomainAggregation) (m : Machine) :
    String → Option failureDomainAggregation :=
  if m.failureDomain = "" then counters
  else
    match counters m.failureDomain with
    | none => counters
    | some a => Function.update counters m.failureDomain (some (bump a))

def initCounters (failureDomains : List FailureDomain) : String → Option failureDomainAggregation :=
  failureDomains.foldl (fun counters fd => Function.update counters fd.name (some ⟨fd.name, 0, 0⟩))
    fun _ => none

def countByFailureDomain (failureDomains : List FailureDomain)
    (allMachines priorityMachines : List Machine) : List failureDomainAggregation :=
  if failureDomains = [] then []
  else
    let counters := allMachines.foldl
      (countMachine fun a => { a with countAll := a.countAll + 1 }) (initCounters failureDomains)
    let counters := priorityMachines.foldl
      (countMachine fun a => { a with countPriority := a.countPriority + 1 }) counters
    (failureDomains.map (·.name)).dedup.filterMap counters

def PickMost (failureDomains : List FailureDomain) (allMachines eligibleMachines : List Machine) :
    String :=
  let aggregations := countByFailureDomain failureDomains allMachines eligibleMachines
  if aggregations = [] then ""
  else
    match sortSlice (Reverse failureDomainAggregations.Less) aggregations with
    | a :: _ => if a.countPriority > 0 then a.id else ""
    | [] => ""

def PickFewest (failureDomains : List FailureDomain) (allMachines upToDateMachines : List Machine) :
    String :=
  let aggregations := countByFailureDomain failureDomains allMachines upToDateMachines
  if aggregations = [] then ""
  else
    match sortSlice failureDomainAggregations.Less aggregations with
    | a :: _ => a.id
    | [] => ""

/-! ## What the counters hold -/

def countIn (machines : List Machine) (fd : String) : Nat :=
  machines.countP fun m => m.failureDomain = fd

theorem countMachine_apply (bump : failureDomainAggregation → failureDomainAggregation)
    (counters : String → Option failureDomainAggregation) (m : Machine) {fd : String}
    (hfd : fd ≠ "") :
    countMachine bump counters m fd =
      if m.failureDomain = fd then (counters fd).map bump else counters fd := by
  unfold countMachine
  by_cases hm : m.failureDomain = fd
  · subst hm
    cases hc : counters m.failureDomain <;> simp [hfd, hc]
  · rw [if_neg hm]
    split_ifs
    · rfl
    · cases hc : counters m.failureDomain with
      | none => rfl
      | some a => exact Function.update_of_ne (Ne.symm hm) _ _

theorem foldl_countMachine (bump : failureDomainAggregation → failureDomainAggregation)
    {fd : String} (hfd : fd ≠ "") (machines : List Machine)
    (counters : String → Option failureDomainAggregation) :
    machines.foldl (countMachine bump) counters fd =
      (counters fd).map (bump^[countIn machines fd]) := by
  induction machines generalizing counters with
  | nil => simp [countIn]
  | cons m rest ih =>
    rw [List.foldl_cons, ih, countMachine_apply bump counters m hfd]
    by_cases hm : m.failureDomain = fd
    · simp [hm, countIn, Function.iterate_succ]
    · simp [hm, countIn]

theorem initCounters_apply (failureDomains : List FailureDomain) (n : String) :
    initCounters failureDomains n =
      if n ∈ failureDomains.map (·.name) then some ⟨n, 0, 0⟩ else none := by
  have hloop : ∀ (fds : List FailureDomain) (counters : String → Option failureDomainAggregation),
      fds.foldl (fun (counters : String → Option failureDomainAggregation) (fd : FailureDomain) =>
          Function.update counters fd.name (some ⟨fd.name, 0, 0⟩)) counters n =
        if n ∈ fds.map (·.name) then some ⟨n, 0, 0⟩ else counters n := by
    intro fds
    induction fds with
    | nil => simp
    | cons fd rest ih =>
      intro counters
      rw [List.foldl_cons, ih]
      by_cases hrest : n ∈ rest.map (·.name)
      · simp [hrest]
      · by_cases hn : n = fd.name
        · subst hn
          simp
        · simp [hrest, hn]
  exact hloop failureDomains _

theorem iterate_countAll (k : Nat) (a : failureDomainAggregation) :
    (fun a : failureDomainAggregation => { a with countAll := a.countAll + 1 })^[k] a =
      { a with countAll := a.countAll + k } := by
  induction k with
  | zero => rfl
  | succ k ih =>
    rw [Function.iterate_succ_apply', ih]
    simp only [Nat.add_assoc]

theorem iterate_countPriority (k : Nat) (a : failureDomainAggregation) :
    (fun a : failureDomainAggregation => { a with countPriority := a.countPriority + 1 })^[k] a =
      { a with countPriority := a.countPriority + k } := by
  induction k with
  | zero => rfl
  | succ k ih =>
    rw [Function.iterate_succ_apply', ih]
    simp only [Nat.add_assoc]

theorem mem_countByFailureDomain {failureDomains : List FailureDomain}
    {allMachines priorityMachines : List Machine} (hfds : failureDomains ≠ [])
    (hempty : "" ∉ failureDomains.map (·.name)) {a : failureDomainAggregation} :
    a ∈ countByFailureDomain failureDomains allMachines priorityMachines ↔
      ∃ n ∈ failureDomains.map (·.name),
        a = ⟨n, countIn priorityMachines n, countIn allMachines n⟩ := by
  unfold countByFailureDomain
  rw [if_neg hfds, List.mem_filterMap]
  constructor
  · rintro ⟨n, hn, hcount⟩
    have hname := List.mem_dedup.mp hn
    have hne : n ≠ "" := fun h => hempty (h ▸ hname)
    rw [foldl_countMachine _ hne, foldl_countMachine _ hne, initCounters_apply, if_pos hname]
      at hcount
    simp only [Option.map_some, iterate_countAll, iterate_countPriority, Nat.zero_add,
      Option.some.injEq] at hcount
    exact ⟨n, hname, by rw [← hcount]⟩
  · rintro ⟨n, hname, rfl⟩
    have hne : n ≠ "" := fun h => hempty (h ▸ hname)
    refine ⟨n, List.mem_dedup.mpr hname, ?_⟩
    rw [foldl_countMachine _ hne, foldl_countMachine _ hne, initCounters_apply, if_pos hname]
    simp [iterate_countAll, iterate_countPriority]

theorem countByFailureDomain_ne_nil {failureDomains : List FailureDomain}
    {allMachines priorityMachines : List Machine} (hfds : failureDomains ≠ [])
    (hempty : "" ∉ failureDomains.map (·.name)) :
    countByFailureDomain failureDomains allMachines priorityMachines ≠ [] := by
  obtain ⟨fd, hfd⟩ := List.exists_mem_of_ne_nil _ hfds
  have hmem : _ ∈ countByFailureDomain failureDomains allMachines priorityMachines :=
    (mem_countByFailureDomain hfds hempty).mpr ⟨fd.name, List.mem_map_of_mem hfd, rfl⟩
  exact List.ne_nil_of_mem hmem

/-! ## The picks -/

theorem rel_head_of_mem {α : Type*} {R : α → α → Prop} {a b : α} {rest : List α}
    (h : (a :: rest).Pairwise R) (hb : b ∈ a :: rest) (hrefl : ∀ x, R x x) : R a b := by
  rcases List.mem_cons.mp hb with rfl | hb
  · exact hrefl _
  · exact List.rel_of_pairwise_cons h hb

theorem countPriority_le_of_key_le {a b : failureDomainAggregation} (h : a.key ≤ b.key) :
    a.countPriority ≤ b.countPriority := by
  simp only [failureDomainAggregation.key, Prod.Lex.toLex_le_toLex] at h
  omega

section Picks

variable {failureDomains : List FailureDomain}
  (hfds : failureDomains ≠ []) (hempty : "" ∉ failureDomains.map (·.name))
  (allMachines : List Machine)
include hfds hempty

theorem PickFewest_spec (upToDateMachines : List Machine) :
    PickFewest failureDomains allMachines upToDateMachines ∈ failureDomains.map (·.name) ∧
      ∀ g ∈ failureDomains.map (·.name), countIn upToDateMachines
        (PickFewest failureDomains allMachines upToDateMachines) ≤ countIn upToDateMachines g := by
  have hperm := sortSlice_perm failureDomainAggregations.Less (countByFailureDomain failureDomains allMachines upToDateMachines)
  have hsorted := sortSlice_sorted failureDomainAggregations.lessByKey (countByFailureDomain failureDomains allMachines upToDateMachines)
  unfold PickFewest
  simp only [if_neg (countByFailureDomain_ne_nil hfds hempty)]
  cases hsort : sortSlice failureDomainAggregations.Less (countByFailureDomain failureDomains allMachines upToDateMachines) with
  | nil =>
    rw [hsort] at hperm
    exact absurd hperm.symm.eq_nil (countByFailureDomain_ne_nil hfds hempty)
  | cons a rest =>
    rw [hsort] at hperm hsorted
    obtain ⟨f, hf, rfl⟩ :=
      (mem_countByFailureDomain hfds hempty).mp (hperm.subset List.mem_cons_self)
    refine ⟨hf, fun g hg => ?_⟩
    have hb := hperm.symm.subset ((mem_countByFailureDomain hfds hempty).mpr ⟨g, hg, rfl⟩)
    have hle := rel_head_of_mem hsorted hb fun _ => le_rfl
    exact countPriority_le_of_key_le hle

theorem PickMost_spec (eligibleMachines : List Machine) :
    (PickMost failureDomains allMachines eligibleMachines = "" ∧
        ∀ g ∈ failureDomains.map (·.name), countIn eligibleMachines g = 0) ∨
      (PickMost failureDomains allMachines eligibleMachines ∈ failureDomains.map (·.name) ∧
        0 < countIn eligibleMachines (PickMost failureDomains allMachines eligibleMachines) ∧
        ∀ g ∈ failureDomains.map (·.name), countIn eligibleMachines g ≤
          countIn eligibleMachines (PickMost failureDomains allMachines eligibleMachines)) := by
  have hperm := sortSlice_perm (Reverse failureDomainAggregations.Less)
    (countByFailureDomain failureDomains allMachines eligibleMachines)
  have hsorted := sortReverse_sorted
    (countByFailureDomain failureDomains allMachines eligibleMachines)
  unfold PickMost
  simp only [if_neg (countByFailureDomain_ne_nil hfds hempty)]
  cases hsort : sortSlice (Reverse failureDomainAggregations.Less) (countByFailureDomain failureDomains allMachines eligibleMachines) with
  | nil =>
    rw [hsort] at hperm
    exact absurd hperm.symm.eq_nil (countByFailureDomain_ne_nil hfds hempty)
  | cons a rest =>
    rw [hsort] at hperm hsorted
    obtain ⟨f, hf, rfl⟩ :=
      (mem_countByFailureDomain hfds hempty).mp (hperm.subset List.mem_cons_self)
    have hmax : ∀ g ∈ failureDomains.map (·.name), countIn eligibleMachines g ≤
        countIn eligibleMachines f := by
      intro g hg
      have hb := hperm.symm.subset ((mem_countByFailureDomain hfds hempty).mpr ⟨g, hg, rfl⟩)
      have hle := rel_head_of_mem hsorted hb fun _ => le_rfl
      exact countPriority_le_of_key_le hle
    by_cases hpos : countIn eligibleMachines f > 0
    · right
      simp only [if_pos hpos]
      exact ⟨hf, hpos, hmax⟩
    · left
      refine ⟨by simp only [if_neg hpos], fun g hg => ?_⟩
      have := hmax g hg
      omega

end Picks

/-! ## The picks over every list of failure domains

A listed failure domain may be named `""`, and the list may be empty. A machine in the empty
failure domain is never counted, whatever is listed. -/

/-- The machines of a list that `countByFailureDomain` counts in a failure domain. -/
def countedIn (machines : List Machine) (fd : String) : Nat :=
  machines.countP fun m => m.failureDomain ≠ "" ∧ m.failureDomain = fd

theorem countedIn_of_ne {machines : List Machine} {fd : String} (hfd : fd ≠ "") :
    countedIn machines fd = countIn machines fd := by
  unfold countedIn countIn
  congr 1
  funext m
  by_cases hm : m.failureDomain = fd
  · simp [hm, hfd]
  · simp [hm]

@[simp] theorem countedIn_empty (machines : List Machine) : countedIn machines "" = 0 := by
  simp [countedIn]

theorem foldl_countMachine_empty (bump : failureDomainAggregation → failureDomainAggregation)
    (machines : List Machine) (counters : String → Option failureDomainAggregation) :
    machines.foldl (countMachine bump) counters "" = counters "" := by
  induction machines generalizing counters with
  | nil => rfl
  | cons m rest ih =>
    rw [List.foldl_cons, ih]
    unfold countMachine
    split_ifs with hm
    · rfl
    · cases counters m.failureDomain with
      | none => rfl
      | some a => exact Function.update_of_ne (Ne.symm hm) _ _

theorem mem_countByFailureDomain_iff {failureDomains : List FailureDomain}
    {allMachines priorityMachines : List Machine} (hfds : failureDomains ≠ [])
    {a : failureDomainAggregation} :
    a ∈ countByFailureDomain failureDomains allMachines priorityMachines ↔
      ∃ n ∈ failureDomains.map (·.name),
        a = ⟨n, countedIn priorityMachines n, countedIn allMachines n⟩ := by
  have hcount : ∀ n ∈ failureDomains.map (·.name),
      priorityMachines.foldl (countMachine fun a => { a with countPriority := a.countPriority + 1 })
        (allMachines.foldl (countMachine fun a => { a with countAll := a.countAll + 1 })
          (initCounters failureDomains)) n =
        some ⟨n, countedIn priorityMachines n, countedIn allMachines n⟩ := by
    intro n hname
    by_cases hn : n = ""
    · subst hn
      rw [foldl_countMachine_empty, foldl_countMachine_empty, initCounters_apply, if_pos hname]
      simp
    · rw [foldl_countMachine _ hn, foldl_countMachine _ hn, initCounters_apply, if_pos hname,
        countedIn_of_ne hn, countedIn_of_ne hn]
      simp [iterate_countAll, iterate_countPriority]
  unfold countByFailureDomain
  rw [if_neg hfds, List.mem_filterMap]
  constructor
  · rintro ⟨n, hn, hc⟩
    have hname := List.mem_dedup.mp hn
    rw [hcount n hname, Option.some.injEq] at hc
    exact ⟨n, hname, hc.symm⟩
  · rintro ⟨n, hname, rfl⟩
    exact ⟨n, List.mem_dedup.mpr hname, hcount n hname⟩

theorem countByFailureDomain_ne_nil_of_ne {failureDomains : List FailureDomain}
    {allMachines priorityMachines : List Machine} (hfds : failureDomains ≠ []) :
    countByFailureDomain failureDomains allMachines priorityMachines ≠ [] := by
  obtain ⟨fd, hfd⟩ := List.exists_mem_of_ne_nil _ hfds
  exact List.ne_nil_of_mem ((mem_countByFailureDomain_iff hfds).mpr
    ⟨fd.name, List.mem_map_of_mem hfd, rfl⟩)

theorem exists_head_of_sorted {α : Type*} {R : α → α → Prop} (hrefl : ∀ x, R x x)
    {l s : List α} (hperm : s.Perm l) (hsorted : s.Pairwise R) (hne : l ≠ []) :
    ∃ a rest, s = a :: rest ∧ a ∈ l ∧ ∀ b ∈ l, R a b := by
  cases s with
  | nil => exact absurd hperm.symm.eq_nil hne
  | cons a rest =>
    exact ⟨a, rest, rfl, hperm.subset List.mem_cons_self,
      fun b hb => rel_head_of_mem hsorted (hperm.symm.subset hb) hrefl⟩

section Lex

variable {failureDomains : List FailureDomain}
  (allMachines : List Machine)

theorem sort_head_lex (hfds : failureDomains ≠ []) (priorityMachines : List Machine) :
    ∃ f ∈ failureDomains.map (·.name), ∃ rest,
      sortSlice failureDomainAggregations.Less (countByFailureDomain failureDomains allMachines priorityMachines) =
        ⟨f, countedIn priorityMachines f, countedIn allMachines f⟩ :: rest ∧
      ∀ g ∈ failureDomains.map (·.name),
        toLex (countedIn priorityMachines f, countedIn allMachines f) ≤
          toLex (countedIn priorityMachines g, countedIn allMachines g) := by
  have hne : countByFailureDomain failureDomains allMachines priorityMachines ≠ [] :=
    countByFailureDomain_ne_nil_of_ne hfds
  obtain ⟨a, rest, hsort, ha, hle⟩ :=
    exists_head_of_sorted (R := fun a b => a.key ≤ b.key) (fun _ => le_rfl) (sortSlice_perm failureDomainAggregations.Less _) (sortSlice_sorted failureDomainAggregations.lessByKey _) hne
  obtain ⟨f, hf, rfl⟩ := (mem_countByFailureDomain_iff hfds).mp ha
  refine ⟨f, hf, rest, hsort, fun g hg => ?_⟩
  exact hle _ ((mem_countByFailureDomain_iff hfds).mpr ⟨g, hg, rfl⟩)

theorem sortReverse_head_lex (hfds : failureDomains ≠ []) (priorityMachines : List Machine) :
    ∃ f ∈ failureDomains.map (·.name), ∃ rest,
      sortSlice (Reverse failureDomainAggregations.Less) (countByFailureDomain failureDomains allMachines priorityMachines) =
        ⟨f, countedIn priorityMachines f, countedIn allMachines f⟩ :: rest ∧
      ∀ g ∈ failureDomains.map (·.name),
        toLex (countedIn priorityMachines g, countedIn allMachines g) ≤
          toLex (countedIn priorityMachines f, countedIn allMachines f) := by
  have hne : countByFailureDomain failureDomains allMachines priorityMachines ≠ [] :=
    countByFailureDomain_ne_nil_of_ne hfds
  obtain ⟨a, rest, hsort, ha, hle⟩ := exists_head_of_sorted (R := fun a b => b.key ≤ a.key)
    (fun _ => le_rfl) (sortSlice_perm (Reverse failureDomainAggregations.Less) _) (sortReverse_sorted _) hne
  obtain ⟨f, hf, rfl⟩ := (mem_countByFailureDomain_iff hfds).mp ha
  refine ⟨f, hf, rest, hsort, fun g hg => ?_⟩
  exact hle _ ((mem_countByFailureDomain_iff hfds).mpr ⟨g, hg, rfl⟩)

theorem PickFewest_lex (hfds : failureDomains ≠ []) (upToDateMachines : List Machine) :
    PickFewest failureDomains allMachines upToDateMachines ∈ failureDomains.map (·.name) ∧
      ∀ g ∈ failureDomains.map (·.name),
        toLex (countedIn upToDateMachines (PickFewest failureDomains allMachines upToDateMachines),
            countedIn allMachines (PickFewest failureDomains allMachines upToDateMachines)) ≤
          toLex (countedIn upToDateMachines g, countedIn allMachines g) := by
  obtain ⟨f, hf, rest, hsort, hle⟩ := sort_head_lex allMachines hfds upToDateMachines
  have hpick : PickFewest failureDomains allMachines upToDateMachines = f := by
    unfold PickFewest
    dsimp only
    rw [if_neg (countByFailureDomain_ne_nil_of_ne hfds), hsort]
  rw [hpick]
  exact ⟨hf, hle⟩

theorem PickMost_lex (eligibleMachines : List Machine) :
    (PickMost failureDomains allMachines eligibleMachines = "" ↔
        ∀ g ∈ failureDomains.map (·.name), countedIn eligibleMachines g = 0) ∧
      (PickMost failureDomains allMachines eligibleMachines ≠ "" →
        PickMost failureDomains allMachines eligibleMachines ∈ failureDomains.map (·.name) ∧
        ∀ g ∈ failureDomains.map (·.name),
          toLex (countedIn eligibleMachines g, countedIn allMachines g) ≤
            toLex (countedIn eligibleMachines (PickMost failureDomains allMachines eligibleMachines),
              countedIn allMachines (PickMost failureDomains allMachines eligibleMachines))) := by
  by_cases hfds : failureDomains = []
  · subst hfds
    simp [PickMost, countByFailureDomain]
  obtain ⟨f, hf, rest, hsort, hle⟩ := sortReverse_head_lex allMachines hfds eligibleMachines
  have hmax : ∀ g ∈ failureDomains.map (·.name),
      countedIn eligibleMachines g ≤ countedIn eligibleMachines f := by
    intro g hg
    have := hle g hg
    simp only [Prod.Lex.toLex_le_toLex] at this
    omega
  have hpick : PickMost failureDomains allMachines eligibleMachines =
      if countedIn eligibleMachines f > 0 then f else "" := by
    unfold PickMost
    dsimp only
    rw [if_neg (countByFailureDomain_ne_nil_of_ne hfds), hsort]
  rw [hpick]
  by_cases hpos : countedIn eligibleMachines f > 0
  · -- `f` counts an eligible machine, so it is not the empty name
    have hfne : f ≠ "" := by
      rintro rfl
      simp at hpos
    rw [if_pos hpos]
    refine ⟨⟨fun h => absurd h hfne, fun hall => absurd (hall f hf) (by omega)⟩,
      fun _ => ⟨hf, hle⟩⟩
  · rw [if_neg hpos]
    refine ⟨⟨fun _ g hg => ?_, fun _ => rfl⟩, fun h => absurd rfl h⟩
    have := hmax g hg
    omega

/-- A listed failure domain with an eligible machine whose pair of counts is greater than every
other listed one's is the one `PickMost` gives, however the sort orders equal pairs. -/
theorem PickMost_eq_of_lt (eligibleMachines : List Machine) {f : String}
    (hf : f ∈ failureDomains.map (·.name)) (hpos : 0 < countedIn eligibleMachines f)
    (hlt : ∀ g ∈ failureDomains.map (·.name), g ≠ f →
      toLex (countedIn eligibleMachines g, countedIn allMachines g) <
        toLex (countedIn eligibleMachines f, countedIn allMachines f)) :
    PickMost failureDomains allMachines eligibleMachines = f := by
  obtain ⟨hempty, hpick⟩ := PickMost_lex allMachines eligibleMachines
  have hne : PickMost failureDomains allMachines eligibleMachines ≠ "" := by
    rw [Ne, hempty]
    intro hall
    exact absurd (hall f hf) hpos.ne'
  obtain ⟨hmem, hle⟩ := hpick hne
  by_contra hneq
  exact absurd (hle f hf) (not_le.mpr (hlt _ hmem hneq))

end Lex

/-- On every list of failure domains and machines: with no failure domain `PickFewest` gives
`""`, and otherwise a listed one whose pair of counts (up-to-date machines, all machines) is
lexicographically least; `PickMost` gives `""` exactly when no listed failure domain counts an
eligible machine, and otherwise a listed one whose pair (eligible machines, all machines) is
lexicographically greatest. -/
theorem PickFewest_PickMost_lexicographic (failureDomains : List FailureDomain)
    (allMachines upToDateMachines eligibleMachines : List Machine) :
    (failureDomains = [] → PickFewest failureDomains allMachines upToDateMachines = "") ∧
    (failureDomains ≠ [] →
      PickFewest failureDomains allMachines upToDateMachines ∈ failureDomains.map (·.name) ∧
      ∀ g ∈ failureDomains.map (·.name),
        toLex (countedIn upToDateMachines (PickFewest failureDomains allMachines upToDateMachines),
            countedIn allMachines (PickFewest failureDomains allMachines upToDateMachines)) ≤
          toLex (countedIn upToDateMachines g, countedIn allMachines g)) ∧
    (PickMost failureDomains allMachines eligibleMachines = "" ↔
      ∀ g ∈ failureDomains.map (·.name), countedIn eligibleMachines g = 0) ∧
    (PickMost failureDomains allMachines eligibleMachines ≠ "" →
      PickMost failureDomains allMachines eligibleMachines ∈ failureDomains.map (·.name) ∧
      ∀ g ∈ failureDomains.map (·.name),
        toLex (countedIn eligibleMachines g, countedIn allMachines g) ≤
          toLex (countedIn eligibleMachines (PickMost failureDomains allMachines eligibleMachines),
            countedIn allMachines (PickMost failureDomains allMachines eligibleMachines))) := by
  refine ⟨fun hnil => ?_, fun hfds => PickFewest_lex allMachines hfds upToDateMachines,
    (PickMost_lex allMachines eligibleMachines).1, (PickMost_lex allMachines eligibleMachines).2⟩
  subst hnil
  simp [PickFewest, countByFailureDomain]

theorem PickFewest_PickMost_lexicographic_sample :
    PickFewest [⟨"a", true⟩, ⟨"b", true⟩]
        [⟨"m1", "a", 1, false, false, true, false⟩, ⟨"m2", "b", 2, false, false, false, false⟩]
        [⟨"m1", "a", 1, false, false, true, false⟩] = "b" ∧
      PickMost [⟨"a", true⟩, ⟨"b", true⟩]
        [⟨"m1", "a", 1, false, false, true, false⟩, ⟨"m2", "b", 2, false, false, false, false⟩]
        [⟨"m1", "a", 1, false, false, true, false⟩] = "a" := by
  have h := PickFewest_PickMost_lexicographic [⟨"a", true⟩, ⟨"b", true⟩]
    [⟨"m1", "a", 1, false, false, true, false⟩, ⟨"m2", "b", 2, false, false, false, false⟩]
    [⟨"m1", "a", 1, false, false, true, false⟩] [⟨"m1", "a", 1, false, false, true, false⟩]
  obtain ⟨-, hfewest, hmostEmpty, hmost⟩ := h
  constructor
  · -- `a` counts one up-to-date machine and `b` none, so the least pair is `b`'s
    obtain ⟨hmem, hle⟩ := hfewest (by simp)
    have hb := hle "b" (by simp)
    simp only [List.map_cons, List.map_nil, List.mem_cons, List.not_mem_nil, or_false] at hmem
    rcases hmem with ha | hb'
    · rw [ha] at hb
      exact absurd hb (by decide)
    · exact hb'
  · -- `a` counts an eligible machine, so `PickMost` gives a name, and the greatest pair is `a`'s
    have hne : PickMost [⟨"a", true⟩, ⟨"b", true⟩]
        [⟨"m1", "a", 1, false, false, true, false⟩, ⟨"m2", "b", 2, false, false, false, false⟩]
        [⟨"m1", "a", 1, false, false, true, false⟩] ≠ "" := by
      rw [Ne, hmostEmpty]
      intro hall
      exact absurd (hall "a" (by simp)) (by decide)
    obtain ⟨hmem, hle⟩ := hmost hne
    have ha := hle "a" (by simp)
    simp only [List.map_cons, List.map_nil, List.mem_cons, List.not_mem_nil, or_false] at hmem
    rcases hmem with ha' | hb
    · exact ha'
    · rw [hb] at ha
      exact absurd ha (by decide)

/-- With no failure domain listed, `PickFewest` gives the empty name, which is not listed. -/
theorem PickFewest_no_failureDomain :
    PickFewest [] [] [] = "" ∧
      PickFewest [] [] [] ∉ ([] : List FailureDomain).map (·.name) := by
  refine ⟨?_, by simp⟩
  simp [PickFewest, countByFailureDomain]

end ClusterApi.Util.FailureDomains
