import ClusterApi.Util.Version

/-!
# Validating and defaulting upgrade plans

`DefaultAndValidateUpgradePlans` of `exp/topology/desiredstate/upgrade_plan.go`. Its two loops
are recursions over the plans: `validateControlPlaneSteps` builds the `minors` and
`versionOrder` maps while checking the control plane plan, `validateWorkersSteps` checks the
workers plan against them. Go maps are functions into `Option`, updated with
`Function.update`. `uint64` minors are `UInt64`, so `targetMinor - currentMinor` wraps as in Go.

One branch of the workers defaulting wraps the function-scope `err`, which is nil there:
`errors.Wrapf(nil, ...)` is nil, so that branch returns a nil plan with a nil error. The model
keeps it as `.ok []`.
-/

namespace ClusterApi.Topology
open ClusterApi.Util

/-- The errors of the upgrade plan functions; each carries what its message formats. -/
inductive UpgradePlanError
  | parseClusterVersion (v : String)
  | parseControlPlaneVersion (v : String)
  | parseMinWorkersVersion (v : String)
  | controlPlaneItemParse (i : Nat) (v : String)
  | controlPlaneItemNotGreater (i : Nat) (v current : String)
  | controlPlaneItemSkipsMinor (i : Nat) (currentMinor : UInt64) (v : String)
  | controlPlaneWrongEnd (desired ends : String)
  | controlPlaneAlreadyAtDesired
  | workersNotInControlPlanePlan (diff : List String)
  | workersItemParse (i : Nat) (v : String)
  | workersItemNotGreater (i : Nat) (v current : String)
  | workersOrderUnknown (i : Nat) (v : String)
  | workersCurrentOrderUnknown (current : String)
  | workersOrderReversed (i : Nat) (v current : String)
  | workersSkew (i : Nat) (currentMinor : UInt64) (current : String) (targetMinor : UInt64)
      (v : String)
  | workersWrongEnd (desired ends : String)
  | workersNotExpected
  | parseDesiredVersion (v : String)
  | parseCurrentControlPlaneVersion (v : String)
  | parseVersion (v : String)
  | cannotComputeUpgradePlan (current desired : String)
  deriving DecidableEq, Repr

def UpgradePlanError.message : UpgradePlanError → String
  | .parseClusterVersion v => "failed to parse Cluster version " ++ v
  | .parseControlPlaneVersion v => "failed to parse ControlPlane version " ++ v
  | .parseMinWorkersVersion v => "failed to parse min workers version " ++ v
  | .controlPlaneItemParse i v =>
    "invalid ControlPlane upgrade plan: item " ++ toString i ++ "; failed to parse version " ++ v
  | .controlPlaneItemNotGreater i v c =>
    "invalid ControlPlane upgrade plan: item " ++ toString i ++ "; version " ++ v ++
      " must be greater than v" ++ c
  | .controlPlaneItemSkipsMinor i m v =>
    "invalid ControlPlane upgrade plan: item " ++ toString i ++ "; expecting a version with minor " ++
      toString m.toNat ++ " or " ++ toString (m + 1).toNat ++ ", found version " ++ v
  | .controlPlaneWrongEnd d e =>
    "invalid ControlPlane upgrade plan: control plane upgrade plan must end with version " ++ d ++
      ", ends with " ++ e ++ " instead"
  | .controlPlaneAlreadyAtDesired =>
    "invalid ControlPlane upgrade plan: control plane is already at the desired version"
  | .workersNotInControlPlanePlan diff =>
    "invalid workers upgrade plan: versions " ++ String.intercalate "," diff ++
      " doesn't match any versions in the control plane upgrade plan nor the control plane version"
  | .workersItemParse i v =>
    "invalid workers upgrade plan, item " ++ toString i ++ "; failed to parse version " ++ v
  | .workersItemNotGreater i v c =>
    "invalid workers upgrade plan, item " ++ toString i ++ "; version " ++ v ++
      " must be greater than v" ++ c
  | .workersOrderUnknown i v =>
    "invalid workers upgrade plan, item " ++ toString i ++ "; failer to determine version " ++ v ++
      " order"
  | .workersCurrentOrderUnknown c => "failer to determine version v" ++ c ++ " order"
  | .workersOrderReversed i v c =>
    "invalid workers upgrade plan, item " ++ toString i ++ "; version " ++ v ++ " must be before v" ++ c
  | .workersSkew i cm c tm v =>
    "invalid workers upgrade plan, item " ++ toString i ++ "; workers cannot go from minor " ++
      toString cm.toNat ++ " (" ++ c ++ ") to minor " ++ toString tm.toNat ++ " (" ++ v ++
      "), an intermediate step is required to comply with Kubernetes version skew rules"
  | .workersWrongEnd d e =>
    "invalid workers upgrade plan; workers upgrade plan must end with version " ++ d ++
      ", ends with " ++ e ++ " instead"
  | .workersNotExpected =>
    "invalid worker upgrade plan; there are no workers or workers already at the desired version"
  | .parseDesiredVersion _ => "failed to parse desired version"
  | .parseCurrentControlPlaneVersion _ => "failed to parse current ControlPlane version"
  | .parseVersion v => "failed to parse version " ++ v
  | .cannotComputeUpgradePlan c d => "cannot compute an upgrade plan from " ++ c ++ " to " ++ d

abbrev Minors := UInt64 → Option String

abbrev VersionOrder := String → Option Int

variable (L : Semver)

def render (v : Version) : String := "v" ++ L.toString v

/-- The loop over `controlPlaneUpgradePlan`; `i` is the index of the head. -/
def validateControlPlaneSteps (i : Nat) (current : Version) (minors : Minors)
    (versionOrder : VersionOrder) :
    List String → Except UpgradePlanError (Version × Minors × VersionOrder)
  | [] => .ok (current, minors, versionOrder)
  | targetVersion :: rest =>
    let versionOrder := Function.update versionOrder targetVersion (some (i : Int))
    match L.parseTolerant targetVersion with
    | none => .error (.controlPlaneItemParse i targetVersion)
    | some targetSemVer =>
      if Compare L targetSemVer current [WithBuildTags] ≤ 0 then
        .error (.controlPlaneItemNotGreater i targetVersion (L.toString current))
      else if current.minor ≠ targetSemVer.minor ∧ current.minor + 1 ≠ targetSemVer.minor then
        .error (.controlPlaneItemSkipsMinor i current.minor targetVersion)
      else
        validateControlPlaneSteps (i + 1) targetSemVer
          (Function.update minors targetSemVer.minor (some targetVersion)) versionOrder rest

def validateControlPlanePlan (desiredVersion : String) (desiredSemVer : Version)
    (controlPlaneVersion : String) (controlPlaneSemVer : Version)
    (controlPlaneUpgradePlan : List String) : Except UpgradePlanError (Minors × VersionOrder) :=
  let minors : Minors := Function.update (fun _ => none) controlPlaneSemVer.minor
    (some controlPlaneVersion)
  let versionOrder : VersionOrder := Function.update (fun _ => none) controlPlaneVersion (some (-1))
  if Compare L controlPlaneSemVer desiredSemVer [WithBuildTags] ≠ 0 then
    match validateControlPlaneSteps L 0 controlPlaneSemVer minors versionOrder
        controlPlaneUpgradePlan with
    | .error e => .error e
    | .ok (current, minors, versionOrder) =>
      if Compare L current desiredSemVer [WithBuildTags] ≠ 0 then
        .error (.controlPlaneWrongEnd desiredVersion (render L current))
      else .ok (minors, versionOrder)
  else if controlPlaneUpgradePlan ≠ [] then .error .controlPlaneAlreadyAtDesired
  else .ok (minors, versionOrder)

/-- The body of `for i := range targetMinor - currentMinor` from iteration `i` on, `k`
iterations left; `none` is the branch that returns for a minor missing from `minors`. -/
def workersIntermediateSteps (minors : Minors) (currentMinor : UInt64) (i : Nat) :
    Nat → Option (List String)
  | 0 => some []
  | k + 1 =>
    if 0 < i ∧ i % 3 = 0 then
      match minors (currentMinor + UInt64.ofNat i) with
      | none => none
      | some targetVersion =>
        (workersIntermediateSteps minors currentMinor (i + 1) k).map (targetVersion :: ·)
    else workersIntermediateSteps minors currentMinor (i + 1) k

/-- Lines 213-230: the default workers plan, `none` when the loop returns early. -/
def defaultWorkersUpgradePlan (minors : Minors) (desiredVersion : String)
    (currentMinor targetMinor : UInt64) : Option (List String) :=
  (workersIntermediateSteps minors currentMinor 0 (targetMinor - currentMinor).toNat).map
    fun steps => if steps.getLast? ≠ some desiredVersion then steps ++ [desiredVersion] else steps

/-- The `switch` on `cmp` of lines 243-264. -/
def checkWorkersOrder (versionOrder : VersionOrder) (i : Nat) (targetVersion : String)
    (currentSemVer : Version) (cmp : Int) : Except UpgradePlanError Unit :=
  if cmp ≤ 0 then .error (.workersItemNotGreater i targetVersion (L.toString currentSemVer))
  else if cmp = 2 then
    match versionOrder targetVersion with
    | none => .error (.workersOrderUnknown i targetVersion)
    | some targetVersionOrder =>
      match versionOrder (render L currentSemVer) with
      | none => .error (.workersCurrentOrderUnknown (L.toString currentSemVer))
      | some currentVersionOrder =>
        if targetVersionOrder < currentVersionOrder then
          .error (.workersOrderReversed i targetVersion (L.toString currentSemVer))
        else .ok ()
  else .ok ()

def validateWorkersSteps (versionOrder : VersionOrder) (i : Nat) (currentSemVer : Version) :
    List String → Except UpgradePlanError Version
  | [] => .ok currentSemVer
  | targetVersion :: rest =>
    match L.parseTolerant targetVersion with
    | none => .error (.workersItemParse i targetVersion)
    | some targetSemVer =>
      match checkWorkersOrder L versionOrder i targetVersion currentSemVer
          (Compare L targetSemVer currentSemVer [WithBuildTags]) with
      | .error e => .error e
      | .ok () =>
        if targetSemVer.minor - currentSemVer.minor > 3 then
          .error (.workersSkew i currentSemVer.minor (render L currentSemVer) targetSemVer.minor
            targetVersion)
        else validateWorkersSteps versionOrder (i + 1) targetSemVer rest

def validateWorkersPlan (versionOrder : VersionOrder) (desiredVersion : String)
    (desiredSemVer minWorkersSemVer : Version) (workersUpgradePlan : List String) :
    Except UpgradePlanError (List String) :=
  match validateWorkersSteps L versionOrder 0 minWorkersSemVer workersUpgradePlan with
  | .error e => .error e
  | .ok current =>
    if Compare L current desiredSemVer [WithBuildTags] ≠ 0 then
      .error (.workersWrongEnd desiredVersion (render L current))
    else .ok workersUpgradePlan

def workersOutsideControlPlanePlan (controlPlaneVersion : String)
    (controlPlaneUpgradePlan workersUpgradePlan : List String) : List String :=
  (workersUpgradePlan.filter (· ∉ controlPlaneVersion :: controlPlaneUpgradePlan)).dedup

def defaultAndValidateWorkersPlan (desiredVersion : String) (desiredSemVer : Version)
    (controlPlaneVersion : String) (minWorkersSemVer : Version) (minors : Minors)
    (versionOrder : VersionOrder) (controlPlaneUpgradePlan workersUpgradePlan : List String) :
    Except UpgradePlanError (List String) :=
  let diff := workersOutsideControlPlanePlan controlPlaneVersion controlPlaneUpgradePlan
    workersUpgradePlan
  if controlPlaneUpgradePlan ≠ [] ∧ diff ≠ [] then .error (.workersNotInControlPlanePlan diff)
  else
    let defaulted := if workersUpgradePlan = [] then
        defaultWorkersUpgradePlan minors desiredVersion minWorkersSemVer.minor desiredSemVer.minor
      else some workersUpgradePlan
    match defaulted with
    -- `errors.Wrapf(err, ...)` with the nil function-scope `err`: a nil plan and a nil error.
    | none => .ok []
    | some workersUpgradePlan =>
      validateWorkersPlan L versionOrder desiredVersion desiredSemVer minWorkersSemVer
        workersUpgradePlan

def parseMinWorkersVersion (minWorkersVersion : String) :
    Except UpgradePlanError (Option Version) :=
  if minWorkersVersion = "" then .ok none
  else match L.parseTolerant minWorkersVersion with
    | none => .error (.parseMinWorkersVersion minWorkersVersion)
    | some v => .ok (some v)

def DefaultAndValidateUpgradePlans (desiredVersion controlPlaneVersion minWorkersVersion : String)
    (controlPlaneUpgradePlan workersUpgradePlan : List String) :
    Except UpgradePlanError (List String) :=
  match L.parseTolerant desiredVersion with
  | none => .error (.parseClusterVersion desiredVersion)
  | some desiredSemVer =>
  match L.parseTolerant controlPlaneVersion with
  | none => .error (.parseControlPlaneVersion controlPlaneVersion)
  | some controlPlaneSemVer =>
  match parseMinWorkersVersion L minWorkersVersion with
  | .error e => .error e
  | .ok minWorkersSemVer =>
  match validateControlPlanePlan L desiredVersion desiredSemVer controlPlaneVersion
      controlPlaneSemVer controlPlaneUpgradePlan with
  | .error e => .error e
  | .ok (minors, versionOrder) =>
    match minWorkersSemVer with
    | some w =>
      if Compare L w desiredSemVer [WithBuildTags] ≠ 0 then
        defaultAndValidateWorkersPlan L desiredVersion desiredSemVer controlPlaneVersion w minors
          versionOrder controlPlaneUpgradePlan workersUpgradePlan
      else if workersUpgradePlan ≠ [] then .error .workersNotExpected
      else .ok workersUpgradePlan
    | none =>
      if workersUpgradePlan ≠ [] then .error .workersNotExpected else .ok workersUpgradePlan

/-! ### What an accepted plan satisfies -/

/-- A control plane plan from `current` ending at `last`: each item parses, is greater than
the one before under `Compare` with build tags (1, or 2 for different build metadata), and
keeps the minor or raises it by one. -/
inductive ControlPlaneChain : Version → List String → Version → Prop
  | nil (v : Version) : ControlPlaneChain v [] v
  | cons {current targetSemVer last : Version} {targetVersion : String} {rest : List String} :
      L.parseTolerant targetVersion = some targetSemVer →
      0 < Compare L targetSemVer current [WithBuildTags] →
      current.minor = targetSemVer.minor ∨ current.minor + 1 = targetSemVer.minor →
      ControlPlaneChain targetSemVer rest last →
      ControlPlaneChain current (targetVersion :: rest) last

/-- A workers plan from `current` ending at `last`: each item parses, is greater than the one
before, keeps the control plane plan order between versions that differ only in build
metadata, and raises the minor by at most 3 (in `uint64` arithmetic). -/
inductive WorkersChain (versionOrder : VersionOrder) : Version → List String → Version → Prop
  | nil (v : Version) : WorkersChain versionOrder v [] v
  | cons {current targetSemVer last : Version} {targetVersion : String} {rest : List String} :
      L.parseTolerant targetVersion = some targetSemVer →
      0 < Compare L targetSemVer current [WithBuildTags] →
      (Compare L targetSemVer current [WithBuildTags] = 2 → ∃ t c,
        versionOrder targetVersion = some t ∧ versionOrder (render L current) = some c ∧ c ≤ t) →
      targetSemVer.minor - current.minor ≤ 3 →
      WorkersChain versionOrder targetSemVer rest last →
      WorkersChain versionOrder current (targetVersion :: rest) last

theorem validateControlPlaneSteps_chain {i : Nat} {current last : Version} {minors minors' : Minors}
    {versionOrder versionOrder' : VersionOrder} {plan : List String}
    (h : validateControlPlaneSteps L i current minors versionOrder plan =
      .ok (last, minors', versionOrder')) :
    ControlPlaneChain L current plan last := by
  induction plan generalizing i current minors versionOrder with
  | nil =>
    simp only [validateControlPlaneSteps, Except.ok.injEq, Prod.mk.injEq] at h
    rw [← h.1]
    exact .nil current
  | cons targetVersion rest ih =>
    simp only [validateControlPlaneSteps] at h
    split at h
    · cases h
    · rename_i targetSemVer hparse
      split_ifs at h with hcmp hminor
      exact .cons hparse (by omega) (by tauto) (ih h)

theorem checkWorkersOrder_ok {versionOrder : VersionOrder} {i : Nat} {targetVersion : String}
    {current : Version} {cmp : Int}
    (h : checkWorkersOrder L versionOrder i targetVersion current cmp = .ok ()) :
    0 < cmp ∧ (cmp = 2 → ∃ t c, versionOrder targetVersion = some t ∧
      versionOrder (render L current) = some c ∧ c ≤ t) := by
  unfold checkWorkersOrder at h
  split_ifs at h with hle h2
  · split at h
    · cases h
    · rename_i t ht
      split at h
      · cases h
      · rename_i c hc
        split_ifs at h with hlt
        exact ⟨by omega, fun _ => ⟨t, c, ht, hc, by omega⟩⟩
  · exact ⟨by omega, fun h2' => absurd h2' h2⟩

theorem validateWorkersSteps_chain {versionOrder : VersionOrder} {i : Nat} {current last : Version}
    {plan : List String} (h : validateWorkersSteps L versionOrder i current plan = .ok last) :
    WorkersChain L versionOrder current plan last := by
  induction plan generalizing i current with
  | nil =>
    simp only [validateWorkersSteps, Except.ok.injEq] at h
    rw [← h]
    exact .nil current
  | cons targetVersion rest ih =>
    simp only [validateWorkersSteps] at h
    split at h
    · cases h
    · rename_i targetSemVer hparse
      split at h
      · cases h
      · rename_i horder
        split_ifs at h with hskew
        obtain ⟨hgt, h2⟩ := checkWorkersOrder_ok L horder
        exact .cons hparse hgt h2 (by simpa using hskew) (ih h)

theorem checkWorkersOrder_complete {versionOrder : VersionOrder} {i : Nat} {targetVersion : String}
    {current : Version} {cmp : Int} (hgt : 0 < cmp)
    (horder : cmp = 2 → ∃ t c, versionOrder targetVersion = some t ∧
      versionOrder (render L current) = some c ∧ c ≤ t) :
    checkWorkersOrder L versionOrder i targetVersion current cmp = .ok () := by
  unfold checkWorkersOrder
  rw [if_neg (by omega)]
  split_ifs with h2
  · obtain ⟨t, c, ht, hc, hle⟩ := horder h2
    simp [ht, hc, not_lt.mpr hle]
  · rfl

theorem validateWorkersSteps_complete {versionOrder : VersionOrder} {current last : Version}
    {plan : List String} (h : WorkersChain L versionOrder current plan last) (i : Nat) :
    validateWorkersSteps L versionOrder i current plan = .ok last := by
  induction h generalizing i with
  | nil v => rfl
  | @cons current targetSemVer last targetVersion rest hparse hgt horder hskew _ ih =>
    have hns : ¬ targetSemVer.minor - current.minor > 3 := by simpa using hskew
    simp only [validateWorkersSteps, hparse, checkWorkersOrder_complete L hgt horder, hns,
      if_false]
    exact ih (i + 1)

theorem ControlPlaneChain.nil_last {current last : Version}
    (h : ControlPlaneChain L current [] last) : last = current := by
  cases h
  rfl

structure ControlPlanePlanValid (controlPlaneSemVer desiredSemVer : Version)
    (controlPlaneUpgradePlan : List String) : Prop where
  empty_iff : controlPlaneUpgradePlan = [] ↔
    Compare L controlPlaneSemVer desiredSemVer [WithBuildTags] = 0
  chain : Compare L controlPlaneSemVer desiredSemVer [WithBuildTags] ≠ 0 →
    ∃ last, ControlPlaneChain L controlPlaneSemVer controlPlaneUpgradePlan last ∧
      Compare L last desiredSemVer [WithBuildTags] = 0

theorem validateControlPlanePlan_valid {desiredVersion controlPlaneVersion : String}
    {desiredSemVer controlPlaneSemVer : Version} {plan : List String} {r : Minors × VersionOrder}
    (h : validateControlPlanePlan L desiredVersion desiredSemVer controlPlaneVersion
      controlPlaneSemVer plan = .ok r) :
    ControlPlanePlanValid L controlPlaneSemVer desiredSemVer plan := by
  unfold validateControlPlanePlan at h
  dsimp only at h
  split_ifs at h with hcmp hplan
  · split at h
    · cases h
    · rename_i last minors versionOrder hsteps
      split_ifs at h with hend
      have hchain := validateControlPlaneSteps_chain L hsteps
      refine ⟨⟨fun hnil => ?_, fun h0 => absurd h0 hcmp⟩, fun _ => ⟨last, hchain, by simpa using hend⟩⟩
      subst hnil
      rw [← ControlPlaneChain.nil_last L hchain] at hcmp
      exact absurd (by simpa using hend) hcmp
  · exact ⟨⟨fun _ => by simpa using hcmp, fun _ => by simpa using hplan⟩,
      fun h0 => absurd (by simpa using hcmp) h0⟩

theorem workersIntermediateSteps_eq_none_iff {minors : Minors} {currentMinor : UInt64} :
    ∀ {i k : Nat}, workersIntermediateSteps minors currentMinor i k = none ↔
      ∃ j, i ≤ j ∧ j < i + k ∧ 0 < j ∧ j % 3 = 0 ∧
        minors (currentMinor + UInt64.ofNat j) = none
  | i, 0 => by simp [workersIntermediateSteps]; omega
  | i, k + 1 => by
    have ih := @workersIntermediateSteps_eq_none_iff minors currentMinor (i + 1) k
    simp only [workersIntermediateSteps]
    split_ifs with hstep
    · split
      · rename_i hmiss
        exact ⟨fun _ => ⟨i, le_rfl, by omega, hstep.1, hstep.2, hmiss⟩, fun _ => rfl⟩
      · rename_i v hv
        rw [Option.map_eq_none_iff, ih]
        constructor
        · rintro ⟨j, hj⟩
          exact ⟨j, by omega, by omega, hj.2.2⟩
        · rintro ⟨j, hij, hjk, hj⟩
          rcases Nat.eq_or_lt_of_le hij with rfl | hlt
          · rw [hv] at hj
            exact absurd hj.2.2 (by simp)
          · exact ⟨j, by omega, by omega, hj⟩
    · rw [ih]
      constructor
      · rintro ⟨j, hj⟩
        exact ⟨j, by omega, by omega, hj.2.2⟩
      · rintro ⟨j, hij, hjk, hj⟩
        rcases Nat.eq_or_lt_of_le hij with rfl | hlt
        · exact absurd ⟨hj.1, hj.2.1⟩ hstep
        · exact ⟨j, by omega, by omega, hj⟩

theorem validateWorkersPlan_ok {versionOrder : VersionOrder} {desiredVersion : String}
    {desiredSemVer minWorkersSemVer : Version} {plan result : List String}
    (h : validateWorkersPlan L versionOrder desiredVersion desiredSemVer minWorkersSemVer plan =
      .ok result) :
    ∃ last, WorkersChain L versionOrder minWorkersSemVer result last ∧
      Compare L last desiredSemVer [WithBuildTags] = 0 := by
  unfold validateWorkersPlan at h
  split at h
  · cases h
  · rename_i last hsteps
    split_ifs at h with hend
    cases h
    exact ⟨last, validateWorkersSteps_chain L hsteps, by simpa using hend⟩

theorem validateWorkersPlan_eq {versionOrder : VersionOrder} {desiredVersion : String}
    {desiredSemVer minWorkersSemVer : Version} {plan result : List String}
    (h : validateWorkersPlan L versionOrder desiredVersion desiredSemVer minWorkersSemVer plan =
      .ok result) : result = plan := by
  unfold validateWorkersPlan at h
  split at h
  · cases h
  · split_ifs at h
    exact (Except.ok.inj h).symm

theorem defaultAndValidateWorkersPlan_ok {desiredVersion controlPlaneVersion : String}
    {desiredSemVer minWorkersSemVer : Version} {minors : Minors} {versionOrder : VersionOrder}
    {controlPlaneUpgradePlan workersUpgradePlan result : List String}
    (h : defaultAndValidateWorkersPlan L desiredVersion desiredSemVer controlPlaneVersion
      minWorkersSemVer minors versionOrder controlPlaneUpgradePlan workersUpgradePlan = .ok result) :
    (workersUpgradePlan = [] ∧ result = [] ∧
      defaultWorkersUpgradePlan minors desiredVersion minWorkersSemVer.minor
        desiredSemVer.minor = none) ∨
    ∃ last, WorkersChain L versionOrder minWorkersSemVer result last ∧
      Compare L last desiredSemVer [WithBuildTags] = 0 := by
  unfold defaultAndValidateWorkersPlan at h
  dsimp only at h
  split_ifs at h with hdiff hW
  · -- no plan given: the default, or the early return
    cases hdefault : defaultWorkersUpgradePlan minors desiredVersion minWorkersSemVer.minor
        desiredSemVer.minor with
    | none =>
      rw [hdefault] at h
      exact .inl ⟨hW, (Except.ok.inj h).symm, rfl⟩
    | some plan =>
      rw [hdefault] at h
      exact .inr (validateWorkersPlan_ok L h)
  · exact .inr (validateWorkersPlan_ok L h)

/-- The postcondition of `DefaultAndValidateUpgradePlans` for every input it accepts. In the
workers case the only accepted result that is not a chain ending at the desired version is
the empty plan of the early-return branch. -/
theorem DefaultAndValidateUpgradePlans_ok {desiredVersion controlPlaneVersion minWorkersVersion : String}
    {controlPlaneUpgradePlan workersUpgradePlan result : List String}
    (h : DefaultAndValidateUpgradePlans L desiredVersion controlPlaneVersion minWorkersVersion
      controlPlaneUpgradePlan workersUpgradePlan = .ok result) :
    ∃ desiredSemVer controlPlaneSemVer, L.parseTolerant desiredVersion = some desiredSemVer ∧
      L.parseTolerant controlPlaneVersion = some controlPlaneSemVer ∧
      ControlPlanePlanValid L controlPlaneSemVer desiredSemVer controlPlaneUpgradePlan ∧
      (minWorkersVersion = "" → workersUpgradePlan = [] ∧ result = []) ∧
      ∀ minWorkersSemVer, minWorkersVersion ≠ "" →
        L.parseTolerant minWorkersVersion = some minWorkersSemVer →
        (Compare L minWorkersSemVer desiredSemVer [WithBuildTags] = 0 →
          workersUpgradePlan = [] ∧ result = []) ∧
        (Compare L minWorkersSemVer desiredSemVer [WithBuildTags] ≠ 0 →
          (workersUpgradePlan = [] ∧ result = []) ∨
          ∃ versionOrder last, WorkersChain L versionOrder minWorkersSemVer result last ∧
            Compare L last desiredSemVer [WithBuildTags] = 0) := by
  unfold DefaultAndValidateUpgradePlans at h
  split at h
  · cases h
  rename_i desiredSemVer hd
  split at h
  · cases h
  rename_i controlPlaneSemVer hc
  split at h
  · cases h
  rename_i minWorkers hmw
  split at h
  · cases h
  rename_i minors versionOrder hcp
  refine ⟨desiredSemVer, controlPlaneSemVer, hd, hc, validateControlPlanePlan_valid L hcp, ?_, ?_⟩
  · intro hempty
    simp only [parseMinWorkersVersion, hempty, if_true, Except.ok.injEq] at hmw
    subst hmw
    split_ifs at h with hW
    exact ⟨by simpa using hW, (Except.ok.inj h).symm.trans (by simpa using hW)⟩
  · intro w hne hw
    simp only [parseMinWorkersVersion, hne, if_false, hw] at hmw
    cases hmw
    dsimp only at h
    split_ifs at h with hcmp hW
    · refine ⟨fun h0 => absurd h0 hcmp, fun _ => ?_⟩
      rcases defaultAndValidateWorkersPlan_ok L h with ⟨hW, hr, -⟩ | ⟨last, hchain, hend⟩
      · exact .inl ⟨hW, hr⟩
      · exact .inr ⟨versionOrder, last, hchain, hend⟩
    · have hW' : workersUpgradePlan = [] := by simpa using hW
      exact ⟨fun _ => ⟨hW', (Except.ok.inj h).symm.trans hW'⟩, fun h0 => absurd (by simpa using hcmp) h0⟩

theorem defaultAndValidateWorkersPlan_missing_minor {desiredVersion controlPlaneVersion : String}
    {desiredSemVer minWorkersSemVer : Version} {minors : Minors} {versionOrder : VersionOrder}
    {controlPlaneUpgradePlan : List String} (j : Nat) (hj0 : 0 < j)
    (hj : j < (desiredSemVer.minor - minWorkersSemVer.minor).toNat) (hj3 : j % 3 = 0)
    (hmiss : minors (minWorkersSemVer.minor + UInt64.ofNat j) = none) :
    defaultAndValidateWorkersPlan L desiredVersion desiredSemVer controlPlaneVersion
      minWorkersSemVer minors versionOrder controlPlaneUpgradePlan [] = .ok [] := by
  have hnone : workersIntermediateSteps minors minWorkersSemVer.minor 0
      (desiredSemVer.minor - minWorkersSemVer.minor).toNat = none :=
    workersIntermediateSteps_eq_none_iff.mpr ⟨j, by omega, by omega, hj0, hj3, hmiss⟩
  simp [defaultAndValidateWorkersPlan, workersOutsideControlPlanePlan, defaultWorkersUpgradePlan,
    hnone]

/-! ### Along an accepted plan

With the semver package's precedence (`Semver.Lawful`) every item of an accepted plan lies
between the version the plan starts from and the one it ends at; a control plane plan passes
through every minor on its way, so under the skew rules the workers defaulting finds every
minor it looks up. -/

inductive Ascending : Version → List String → Version → Prop
  | nil (v : Version) : Ascending v [] v
  | cons {current targetSemVer last : Version} {targetVersion : String} {rest : List String} :
      L.parseTolerant targetVersion = some targetSemVer → L.compare current targetSemVer ≤ 0 →
      Ascending targetSemVer rest last → Ascending current (targetVersion :: rest) last

theorem validateControlPlaneSteps_minors {i : Nat} {current last : Version}
    {minors minors' : Minors} {versionOrder versionOrder' : VersionOrder} {plan : List String}
    (h : validateControlPlaneSteps L i current minors versionOrder plan =
      .ok (last, minors', versionOrder')) :
    (∀ k v, minors' k = some v → minors k = some v ∨
      ∃ vv, L.parseTolerant v = some vv ∧ vv.minor = k ∧ v ∈ plan) ∧
    (∀ k, minors k ≠ none → minors' k ≠ none) ∧
    ∀ e ∈ plan, ∀ ev, L.parseTolerant e = some ev → minors' ev.minor ≠ none := by
  induction plan generalizing i current minors versionOrder with
  | nil =>
    simp only [validateControlPlaneSteps, Except.ok.injEq, Prod.mk.injEq] at h
    obtain ⟨-, rfl, -⟩ := h
    exact ⟨fun _ _ hk => .inl hk, fun _ hk => hk, by simp⟩
  | cons targetVersion rest ih =>
    simp only [validateControlPlaneSteps] at h
    split at h
    · cases h
    · rename_i targetSemVer hparse
      split_ifs at h
      obtain ⟨hvals, hkeys, hitems⟩ := ih h
      refine ⟨fun k v hk => ?_, fun k hk => hkeys k ?_, fun e he ev hev => ?_⟩
      · rcases hvals k v hk with hk' | ⟨vv, hvv, hkv, hrest⟩
        · by_cases hkm : k = targetSemVer.minor
          · subst hkm
            simp only [Function.update_self, Option.some.injEq] at hk'
            subst hk'
            exact .inr ⟨targetSemVer, hparse, rfl, List.mem_cons_self⟩
          · rw [Function.update_of_ne hkm] at hk'
            exact .inl hk'
        · exact .inr ⟨vv, hvv, hkv, List.mem_cons_of_mem _ hrest⟩
      · by_cases hkm : k = targetSemVer.minor
        · simp [hkm]
        · rwa [Function.update_of_ne hkm]
      · rcases List.mem_cons.mp he with rfl | he
        · rw [hparse] at hev
          cases hev
          exact hkeys _ (by simp)
        · exact hitems e he ev hev

theorem validateControlPlanePlan_minors {desiredVersion controlPlaneVersion : String}
    {desiredSemVer controlPlaneSemVer : Version} {plan : List String} {minors : Minors}
    {versionOrder : VersionOrder}
    (h : validateControlPlanePlan L desiredVersion desiredSemVer controlPlaneVersion
      controlPlaneSemVer plan = .ok (minors, versionOrder)) :
    (∀ k v, minors k = some v → v = controlPlaneVersion ∨ v ∈ plan) ∧
    minors controlPlaneSemVer.minor ≠ none ∧
    ∀ e ∈ plan, ∀ ev, L.parseTolerant e = some ev → minors ev.minor ≠ none := by
  have hinit : ∀ k v, Function.update (fun _ => none) controlPlaneSemVer.minor
      (some controlPlaneVersion) k = some v → v = controlPlaneVersion := by
    intro k v hk
    by_cases hkm : k = controlPlaneSemVer.minor
    · subst hkm
      simpa [eq_comm] using hk
    · simp [Function.update_of_ne hkm] at hk
  unfold validateControlPlanePlan at h
  dsimp only at h
  split_ifs at h with hcmp hplan
  · split at h
    · cases h
    · rename_i last minors' versionOrder' hsteps
      split_ifs at h
      cases h
      obtain ⟨hvals, hkeys, hitems⟩ := validateControlPlaneSteps_minors L hsteps
      refine ⟨fun k v hk => ?_, hkeys _ (by simp), hitems⟩
      rcases hvals k v hk with hk' | ⟨-, -, -, hmem⟩
      · exact .inl (hinit k v hk')
      · exact .inr hmem
  · cases h
    have hnil : plan = [] := by simpa using hplan
    subst hnil
    exact ⟨fun k v hk => .inl (hinit k v hk), by simp, by simp⟩

theorem validateControlPlanePlan_minors_parse {desiredVersion controlPlaneVersion : String}
    {desiredSemVer controlPlaneSemVer : Version} {plan : List String} {minors : Minors}
    {versionOrder : VersionOrder}
    (hc : L.parseTolerant controlPlaneVersion = some controlPlaneSemVer)
    (h : validateControlPlanePlan L desiredVersion desiredSemVer controlPlaneVersion
      controlPlaneSemVer plan = .ok (minors, versionOrder)) :
    ∀ k v, minors k = some v → ∃ vv, L.parseTolerant v = some vv ∧ vv.minor = k ∧
      (v = controlPlaneVersion ∨ v ∈ plan) := by
  have hinit : ∀ k v, Function.update (fun _ => none) controlPlaneSemVer.minor
      (some controlPlaneVersion) k = some v →
      ∃ vv, L.parseTolerant v = some vv ∧ vv.minor = k ∧ (v = controlPlaneVersion ∨ v ∈ plan) := by
    intro k v hk
    by_cases hkm : k = controlPlaneSemVer.minor
    · subst hkm
      simp only [Function.update_self, Option.some.injEq] at hk
      subst hk
      exact ⟨controlPlaneSemVer, hc, rfl, .inl rfl⟩
    · simp [Function.update_of_ne hkm] at hk
  unfold validateControlPlanePlan at h
  dsimp only at h
  split_ifs at h with hcmp hplan
  · split at h
    · cases h
    · rename_i last minors' versionOrder' hsteps
      split_ifs at h
      cases h
      intro k v hk
      rcases (validateControlPlaneSteps_minors L hsteps).1 k v hk with hk' | ⟨vv, hvv, hkv, hmem⟩
      · exact hinit k v hk'
      · exact ⟨vv, hvv, hkv, .inr hmem⟩
  · cases h
    exact hinit

theorem workersIntermediateSteps_mem {minors : Minors} {currentMinor : UInt64} :
    ∀ {i k : Nat} {steps : List String}, workersIntermediateSteps minors currentMinor i k = some steps →
      ∀ v ∈ steps, ∃ j, i ≤ j ∧ j < i + k ∧ minors (currentMinor + UInt64.ofNat j) = some v
  | i, 0, steps, h => by
    simp only [workersIntermediateSteps, Option.some.injEq] at h
    subst h
    simp
  | i, k + 1, steps, h => by
    simp only [workersIntermediateSteps] at h
    split_ifs at h
    · split at h
      · cases h
      · rename_i targetVersion hv
        obtain ⟨rest, hrest, rfl⟩ := Option.map_eq_some_iff.mp h
        intro v hmem
        rcases List.mem_cons.mp hmem with rfl | hmem
        · exact ⟨i, le_rfl, by omega, hv⟩
        · obtain ⟨j, hij, hjk, hj⟩ := workersIntermediateSteps_mem hrest v hmem
          exact ⟨j, by omega, by omega, hj⟩
    · intro v hmem
      obtain ⟨j, hij, hjk, hj⟩ := workersIntermediateSteps_mem h v hmem
      exact ⟨j, by omega, by omega, hj⟩

theorem workersIntermediateSteps_of_plan {desiredVersion controlPlaneVersion : String}
    {desiredSemVer controlPlaneSemVer : Version} {plan : List String} {minors : Minors}
    {versionOrder : VersionOrder} {currentMinor : UInt64} {i k : Nat} {steps : List String}
    (hcp : validateControlPlanePlan L desiredVersion desiredSemVer controlPlaneVersion
      controlPlaneSemVer plan = .ok (minors, versionOrder))
    (hsteps : workersIntermediateSteps minors currentMinor i k = some steps) :
    ∀ v ∈ steps, v = controlPlaneVersion ∨ v ∈ plan := by
  intro v hv
  obtain ⟨j, -, -, hk⟩ := workersIntermediateSteps_mem hsteps v hv
  exact (validateControlPlanePlan_minors L hcp).1 _ v hk

theorem workersIntermediateSteps_length {minors : Minors} {currentMinor : UInt64} :
    ∀ {i k : Nat} {steps : List String}, workersIntermediateSteps minors currentMinor i k = some steps →
      steps.length = (i + k - 1) / 3 - (i - 1) / 3
  | i, 0, steps, h => by
    simp only [workersIntermediateSteps, Option.some.injEq] at h
    subst h
    simp
  | i, k + 1, steps, h => by
    simp only [workersIntermediateSteps] at h
    split_ifs at h with hstep
    · split at h
      · cases h
      · obtain ⟨rest, hrest, rfl⟩ := Option.map_eq_some_iff.mp h
        rw [List.length_cons, workersIntermediateSteps_length hrest]
        omega
    · rw [workersIntermediateSteps_length h]
      omega

section Lawful

variable {L} (hL : L.Lawful)
include hL

theorem ControlPlaneChain.ascending {current last : Version} {plan : List String}
    (h : ControlPlaneChain L current plan last) : Ascending L current plan last := by
  induction h with
  | nil v => exact .nil v
  | cons hparse hgt _ _ ih =>
    exact .cons hparse (hL.compare_le_of_nonneg (compare_nonneg_of_Compare_pos L hgt)) ih

theorem WorkersChain.ascending {versionOrder : VersionOrder} {current last : Version}
    {plan : List String} (h : WorkersChain L versionOrder current plan last) :
    Ascending L current plan last := by
  induction h with
  | nil v => exact .nil v
  | cons hparse hgt _ _ _ ih =>
    exact .cons hparse (hL.compare_le_of_nonneg (compare_nonneg_of_Compare_pos L hgt)) ih

theorem Ascending.bounds {current last : Version} {plan : List String}
    (h : Ascending L current plan last) :
    L.compare current last ≤ 0 ∧ ∀ e ∈ plan, ∃ ev, L.parseTolerant e = some ev ∧
      L.compare current ev ≤ 0 ∧ L.compare ev last ≤ 0 := by
  induction h with
  | nil v => exact ⟨le_of_eq (hL.compare_self v), by simp⟩
  | @cons current targetSemVer last targetVersion rest hparse hle _ ih =>
    obtain ⟨hlast, hitems⟩ := ih
    refine ⟨hL.compare_trans _ _ _ hle hlast, fun e he => ?_⟩
    rcases List.mem_cons.mp he with rfl | he
    · exact ⟨targetSemVer, hparse, hle, hlast⟩
    · obtain ⟨ev, hev, hlo, hhi⟩ := hitems e he
      exact ⟨ev, hev, hL.compare_trans _ _ _ hle hlo, hhi⟩

theorem ControlPlaneChain.covers_minors {current last : Version} {plan : List String}
    (h : ControlPlaneChain L current plan last) (hmaj : current.major = last.major) :
    ∀ k, current.minor.toNat ≤ k → k ≤ last.minor.toNat →
      k = current.minor.toNat ∨ ∃ e ∈ plan, ∃ ev, L.parseTolerant e = some ev ∧ ev.minor.toNat = k := by
  induction h with
  | nil v => intro k hlo hhi; exact .inl (by omega)
  | @cons current targetSemVer last targetVersion rest hparse hgt hminor hrest ih =>
    intro k hlo hhi
    have hle : L.compare current targetSemVer ≤ 0 :=
      hL.compare_le_of_nonneg (compare_nonneg_of_Compare_pos L hgt)
    have hmaj' : targetSemVer.major = current.major :=
      hL.major_eq_of_between hle ((hrest.ascending hL).bounds hL).1 hmaj
    have hmono : current.minor.toNat ≤ targetSemVer.minor.toNat := hL.minor_le hle hmaj'.symm
    have hstep : targetSemVer.minor.toNat ≤ current.minor.toNat + 1 := by
      rcases hminor with heq | heq
      · rw [heq]; omega
      · rw [← heq, UInt64.toNat_add]
        exact (Nat.mod_le _ _).trans (by simp)
    by_cases hk : k = current.minor.toNat
    · exact .inl hk
    · rcases ih (hmaj'.trans hmaj) k (by omega) hhi with hk' | ⟨e, he, ev, hev, hevk⟩
      · exact .inr ⟨targetVersion, List.mem_cons_self, targetSemVer, hparse, hk'.symm⟩
      · exact .inr ⟨e, List.mem_cons_of_mem _ he, ev, hev, hevk⟩

theorem ControlPlaneChain.head {current last : Version} {targetVersion : String}
    {rest : List String} (h : ControlPlaneChain L current (targetVersion :: rest) last) :
    ∃ targetSemVer, L.parseTolerant targetVersion = some targetSemVer ∧
      L.compare current targetSemVer ≤ 0 ∧
      (current.major = targetSemVer.major →
        targetSemVer.minor.toNat ≤ current.minor.toNat + 1) ∧
      ControlPlaneChain L targetSemVer rest last := by
  cases h with
  | cons hparse hgt hminor hrest =>
    refine ⟨_, hparse, hL.compare_le_of_nonneg (compare_nonneg_of_Compare_pos L hgt), fun _ => ?_,
      hrest⟩
    rcases hminor with heq | heq
    · rw [heq]; omega
    · rw [← heq, UInt64.toNat_add]
      exact (Nat.mod_le _ _).trans (by simp)

theorem minor_le_of_skew {current target : Version}
    (hgt : 0 < Compare L target current [WithBuildTags]) (hskew : target.minor - current.minor ≤ 3)
    (hmaj : current.major = target.major) :
    current.minor.toNat ≤ target.minor.toNat ∧ target.minor.toNat ≤ current.minor.toNat + 3 := by
  have hmono := hL.minor_le (hL.compare_le_of_nonneg (compare_nonneg_of_Compare_pos L hgt)) hmaj
  rw [UInt64.le_iff_toNat_le, UInt64.toNat_sub_of_le _ _ (UInt64.le_iff_toNat_le.mpr hmono)]
    at hskew
  simp only [UInt64.reduceToNat] at hskew
  exact ⟨hmono, by omega⟩

theorem WorkersChain.minor_le_length {versionOrder : VersionOrder} {current last : Version}
    {plan : List String} (h : WorkersChain L versionOrder current plan last)
    (hmaj : current.major = last.major) :
    last.minor.toNat ≤ current.minor.toNat + 3 * plan.length := by
  induction h with
  | nil v => simp
  | @cons current targetSemVer last targetVersion rest hparse hgt _ hskew hrest ih =>
    have hle := hL.compare_le_of_nonneg (compare_nonneg_of_Compare_pos L hgt)
    have hmaj' : targetSemVer.major = current.major :=
      hL.major_eq_of_between hle ((hrest.ascending hL).bounds hL).1 hmaj
    have hstep := (minor_le_of_skew hL hgt hskew hmaj'.symm).2
    have hrest' := ih (hmaj'.trans hmaj)
    rw [List.length_cons]
    omega

theorem WorkersChain.head {versionOrder : VersionOrder} {current last : Version}
    {targetVersion : String} {rest : List String}
    (h : WorkersChain L versionOrder current (targetVersion :: rest) last) :
    ∃ targetSemVer, L.parseTolerant targetVersion = some targetSemVer ∧
      L.compare current targetSemVer ≤ 0 ∧
      (current.major = targetSemVer.major →
        targetSemVer.minor.toNat ≤ current.minor.toNat + 3) := by
  cases h with
  | cons hparse hgt _ hskew _ =>
    exact ⟨_, hparse, hL.compare_le_of_nonneg (compare_nonneg_of_Compare_pos L hgt),
      fun hmaj => (minor_le_of_skew hL hgt hskew hmaj).2⟩

theorem validateControlPlanePlan_covers {desiredVersion controlPlaneVersion : String}
    {desiredSemVer controlPlaneSemVer : Version} {plan : List String} {minors : Minors}
    {versionOrder : VersionOrder}
    (hcp : validateControlPlanePlan L desiredVersion desiredSemVer controlPlaneVersion
      controlPlaneSemVer plan = .ok (minors, versionOrder))
    (hmaj : controlPlaneSemVer.major = desiredSemVer.major) :
    controlPlaneSemVer.minor.toNat ≤ desiredSemVer.minor.toNat ∧
    ∀ k, controlPlaneSemVer.minor.toNat ≤ k → k ≤ desiredSemVer.minor.toNat →
      minors (UInt64.ofNat k) ≠ none := by
  obtain ⟨-, hkey, hitems⟩ := validateControlPlanePlan_minors L hcp
  have hvalid := validateControlPlanePlan_valid L hcp
  by_cases hcd : Compare L controlPlaneSemVer desiredSemVer [WithBuildTags] = 0
  · -- no plan: the control plane's minor is the desired one
    have hcd' := (hL.major_minor_eq (compare_eq_zero_of_Compare_eq_zero L hcd)).2
    refine ⟨by rw [hcd'], fun k hklo hkhi => ?_⟩
    have hk : k = controlPlaneSemVer.minor.toNat := by
      have := congrArg UInt64.toNat hcd'
      omega
    subst hk
    simpa using hkey
  · obtain ⟨last, hchain, hend⟩ := hvalid.chain hcd
    obtain ⟨hmaj', hmin'⟩ := hL.major_minor_eq (compare_eq_zero_of_Compare_eq_zero L hend)
    refine ⟨?_, fun k hklo hkhi => ?_⟩
    · rw [← hmin']
      exact hL.minor_le ((hchain.ascending hL).bounds hL).1 (hmaj.trans hmaj'.symm)
    · rcases hchain.covers_minors hL (hmaj.trans hmaj'.symm) k hklo (hmin' ▸ hkhi) with
        rfl | ⟨e, he, ev, hev, rfl⟩
      · simpa using hkey
      · simpa using hitems e he ev hev

omit hL in
theorem toNat_add_ofNat {m : UInt64} {j : Nat} (h : m.toNat + j < 2 ^ 64) :
    (m + UInt64.ofNat j).toNat = m.toNat + j := by
  have hsize : UInt64.size = 2 ^ 64 := rfl
  rw [UInt64.toNat_add, UInt64.toNat_ofNat_of_lt' (by omega)]
  exact Nat.mod_eq_of_lt (by omega)

omit hL in
theorem workersIntermediateSteps_ne_none {minors : Minors} {m d : UInt64} {lo : Nat}
    (hmd : m.toNat ≤ d.toNat) (hlo : lo ≤ m.toNat + 3)
    (hcover : ∀ k, lo ≤ k → k ≤ d.toNat → minors (UInt64.ofNat k) ≠ none) :
    workersIntermediateSteps minors m 0 (d - m).toNat ≠ none := by
  intro hnone
  obtain ⟨j, -, hj, hj0, hj3, hmiss⟩ := workersIntermediateSteps_eq_none_iff.mp hnone
  have hsub : (d - m).toNat = d.toNat - m.toNat :=
    UInt64.toNat_sub_of_le _ _ (UInt64.le_iff_toNat_le.mpr hmd)
  -- the key `m + j` does not wrap: it is below `d`
  have hkey : m + UInt64.ofNat j = UInt64.ofNat (m.toNat + j) := by
    have hd64 := d.toNat_lt
    have hsize : UInt64.size = 2 ^ 64 := rfl
    apply UInt64.toNat_inj.mp
    rw [toNat_add_ofNat (by omega), UInt64.toNat_ofNat_of_lt' (by omega)]
  have hj3' : 3 ≤ j := by omega
  rw [hkey] at hmiss
  exact hcover _ (by omega) (by omega) hmiss

omit hL in
theorem coreCompare_of_minor_lt {a b : Version} (hmaj : a.major = b.major)
    (h : a.minor.toNat < b.minor.toNat) : coreCompare a b = -1 := by
  have hne : a.minor ≠ b.minor := fun heq => by rw [heq] at h; omega
  have hlt : a.minor < b.minor := UInt64.lt_iff_toNat_lt.mpr h
  simp [coreCompare, hmaj, hne, hlt]

theorem WorkersChain.step {versionOrder : VersionOrder} {current target last : Version}
    {targetVersion : String} {rest : List String}
    (hparse : L.parseTolerant targetVersion = some target) (hmaj : current.major = target.major)
    (hlt : coreCompare current target = -1)
    (hskew : target.minor.toNat ≤ current.minor.toNat + 3)
    (hrest : WorkersChain L versionOrder target rest last) :
    WorkersChain L versionOrder current (targetVersion :: rest) last := by
  have hgt : coreCompare target current = 1 := by rw [coreCompare_swap, hlt]; rfl
  have hcmp : Compare L target current [WithBuildTags] = 1 := by
    rw [hL.Compare_withBuildTags_of_coreCompare_ne (by omega), hgt]
  have hmono : current.minor.toNat ≤ target.minor.toNat := coreCompare_le_minor (by omega) hmaj
  refine .cons hparse (by omega) (fun h2 => absurd (hcmp.symm.trans h2) (by decide)) ?_ hrest
  rw [UInt64.le_iff_toNat_le, UInt64.toNat_sub_of_le _ _ (UInt64.le_iff_toNat_le.mpr hmono)]
  simp only [UInt64.reduceToNat]
  omega

theorem validateControlPlanePlan_minors_major {desiredVersion controlPlaneVersion : String}
    {desiredSemVer controlPlaneSemVer : Version} {plan : List String} {minors : Minors}
    {versionOrder : VersionOrder}
    (hc : L.parseTolerant controlPlaneVersion = some controlPlaneSemVer)
    (hcp : validateControlPlanePlan L desiredVersion desiredSemVer controlPlaneVersion
      controlPlaneSemVer plan = .ok (minors, versionOrder))
    (hmaj : controlPlaneSemVer.major = desiredSemVer.major) :
    ∀ k v, minors k = some v →
      ∃ vv, L.parseTolerant v = some vv ∧ vv.major = desiredSemVer.major ∧ vv.minor = k := by
  intro k v hk
  obtain ⟨vv, hvv, hkv, hv⟩ := validateControlPlanePlan_minors_parse L hc hcp k v hk
  refine ⟨vv, hvv, ?_, hkv⟩
  rcases hv with rfl | hmem
  · rw [hc] at hvv
    cases hvv
    exact hmaj
  · -- an item of the plan lies between the control plane's version and the desired one
    have hvalid := validateControlPlanePlan_valid L hcp
    have hcd : Compare L controlPlaneSemVer desiredSemVer [WithBuildTags] ≠ 0 := by
      intro h0
      rw [hvalid.empty_iff.mpr h0] at hmem
      cases hmem
    obtain ⟨last, hchain, hend⟩ := hvalid.chain hcd
    obtain ⟨hmaj', -⟩ := hL.major_minor_eq (compare_eq_zero_of_Compare_eq_zero L hend)
    obtain ⟨ev, hev, hlo, hhi⟩ := ((hchain.ascending hL).bounds hL).2 v hmem
    rw [hvv] at hev
    cases hev
    rw [hL.major_eq_of_between hlo hhi (hmaj.trans hmaj'.symm), hmaj]

theorem workersIntermediateSteps_chain {minors : Minors} {versionOrder : VersionOrder}
    {m : UInt64} {desiredVersion : String} {desiredSemVer : Version}
    (hd : L.parseTolerant desiredVersion = some desiredSemVer)
    (hminors : ∀ k v, minors k = some v →
      ∃ vv, L.parseTolerant v = some vv ∧ vv.major = desiredSemVer.major ∧ vv.minor = k) :
    ∀ {k i : Nat} {steps : List String} {current : Version},
      workersIntermediateSteps minors m i k = some steps →
      current.major = desiredSemVer.major →
      current.minor.toNat = m.toNat + (3 * ((i + 2) / 3) - 3) →
      coreCompare current desiredSemVer = -1 →
      desiredSemVer.minor.toNat = m.toNat + i + k →
      WorkersChain L versionOrder current (steps ++ [desiredVersion]) desiredSemVer
  | 0, i, steps, current, h, hmaj, hcur, hlt, hdm => by
    simp only [workersIntermediateSteps, Option.some.injEq] at h
    subst h
    exact WorkersChain.step hL hd hmaj hlt (by omega) (.nil _)
  | k + 1, i, steps, current, h, hmaj, hcur, hlt, hdm => by
    simp only [workersIntermediateSteps] at h
    split_ifs at h with hstep
    · split at h
      · cases h
      · rename_i v hv
        obtain ⟨rest, hrest, rfl⟩ := Option.map_eq_some_iff.mp h
        obtain ⟨vv, hvv, hvmaj, hvmin⟩ := hminors _ v hv
        have hd64 := desiredSemVer.minor.toNat_lt
        have hvmin' : vv.minor.toNat = m.toNat + i := by
          rw [hvmin, toNat_add_ofNat (by simp at hd64; omega)]
        have hvlt : coreCompare vv desiredSemVer = -1 :=
          coreCompare_of_minor_lt hvmaj (by omega)
        exact WorkersChain.step hL hvv (hmaj.trans hvmaj.symm)
          (coreCompare_of_minor_lt (hmaj.trans hvmaj.symm) (by omega)) (by omega)
          (workersIntermediateSteps_chain hd hminors hrest hvmaj (by omega) hvlt (by omega))
    · exact workersIntermediateSteps_chain hd hminors h hmaj (by omega) hlt (by omega)

theorem DefaultAndValidateUpgradePlans_workers
    {desiredVersion controlPlaneVersion minWorkersVersion : String}
    {controlPlaneUpgradePlan workersUpgradePlan result : List String}
    {desiredSemVer controlPlaneSemVer minWorkersSemVer : Version}
    (h : DefaultAndValidateUpgradePlans L desiredVersion controlPlaneVersion minWorkersVersion
      controlPlaneUpgradePlan workersUpgradePlan = .ok result)
    (hd : L.parseTolerant desiredVersion = some desiredSemVer)
    (hc : L.parseTolerant controlPlaneVersion = some controlPlaneSemVer)
    (hw : L.parseTolerant minWorkersVersion = some minWorkersSemVer)
    (hne : Compare L minWorkersSemVer desiredSemVer [WithBuildTags] ≠ 0)
    (hmaj : controlPlaneSemVer.major = desiredSemVer.major)
    (hlo : minWorkersSemVer.minor.toNat ≤ controlPlaneSemVer.minor.toNat)
    (hskew : controlPlaneSemVer.minor.toNat ≤ minWorkersSemVer.minor.toNat + 3) :
    (∃ versionOrder last, WorkersChain L versionOrder minWorkersSemVer result last ∧
      Compare L last desiredSemVer [WithBuildTags] = 0) ∧
    (controlPlaneUpgradePlan ≠ [] → ∀ e ∈ result,
      e = controlPlaneVersion ∨ e ∈ controlPlaneUpgradePlan ∨ e = desiredVersion) := by
  have hmw : minWorkersVersion ≠ "" := hL.ne_empty_of_parseTolerant hw
  unfold DefaultAndValidateUpgradePlans at h
  simp only [hd, hc, parseMinWorkersVersion, hmw, if_false, hw] at h
  split at h
  · cases h
  rename_i minors versionOrder hcp
  simp only [ne_eq, hne, not_false_eq_true, if_true] at h
  obtain ⟨hcd, hcover⟩ := validateControlPlanePlan_covers hL hcp hmaj
  unfold defaultAndValidateWorkersPlan at h
  dsimp only at h
  split_ifs at h with hdiff hW
  · -- no workers plan given: the default, which finds every minor it looks up
    cases hdefault : defaultWorkersUpgradePlan minors desiredVersion minWorkersSemVer.minor
        desiredSemVer.minor with
    | none =>
      exact absurd (Option.map_eq_none_iff.mp hdefault)
        (workersIntermediateSteps_ne_none (by omega) (by omega) hcover)
    | some plan =>
      rw [hdefault] at h
      dsimp only at h
      obtain ⟨last, hchain, hend⟩ := validateWorkersPlan_ok L h
      refine ⟨⟨versionOrder, last, hchain, hend⟩, fun _ e he => ?_⟩
      obtain rfl := validateWorkersPlan_eq L h
      unfold defaultWorkersUpgradePlan at hdefault
      obtain ⟨steps, hsteps, rfl⟩ := Option.map_eq_some_iff.mp hdefault
      have hstep := workersIntermediateSteps_of_plan L hcp hsteps
      split_ifs at he
      · rcases List.mem_append.mp he with he | he
        · exact (hstep e he).elim .inl (.inr ∘ .inl)
        · exact .inr (.inr (List.mem_singleton.mp he))
      · exact (hstep e he).elim .inl (.inr ∘ .inl)
  · -- a workers plan given: validated as it is, after the check that it comes from the
    dsimp only at h
    obtain ⟨last, hchain, hend⟩ := validateWorkersPlan_ok L h
    refine ⟨⟨versionOrder, last, hchain, hend⟩, fun hcpne e he => ?_⟩
    obtain rfl := validateWorkersPlan_eq L h
    have hdiff' : workersOutsideControlPlanePlan controlPlaneVersion controlPlaneUpgradePlan
        result = [] := by
      by_contra hne'
      exact hdiff ⟨hcpne, hne'⟩
    have : e ∉ (result.filter (· ∉ controlPlaneVersion :: controlPlaneUpgradePlan)).dedup := by
      rw [show (result.filter (· ∉ controlPlaneVersion :: controlPlaneUpgradePlan)).dedup = [] from
        hdiff']
      simp
    simp only [List.mem_dedup, List.mem_filter, he, true_and, decide_eq_true_eq, not_not,
      List.mem_cons] at this
    exact this.elim .inl (.inr ∘ .inl)

theorem DefaultAndValidateUpgradePlans_default_workers
    {desiredVersion controlPlaneVersion minWorkersVersion : String}
    {controlPlaneUpgradePlan : List String} {desiredSemVer controlPlaneSemVer minWorkersSemVer : Version}
    (hplan : DefaultAndValidateUpgradePlans L desiredVersion controlPlaneVersion ""
      controlPlaneUpgradePlan [] = .ok [])
    (hd : L.parseTolerant desiredVersion = some desiredSemVer)
    (hc : L.parseTolerant controlPlaneVersion = some controlPlaneSemVer)
    (hw : L.parseTolerant minWorkersVersion = some minWorkersSemVer)
    (hmaj : controlPlaneSemVer.major = desiredSemVer.major)
    (hwmaj : minWorkersSemVer.major = desiredSemVer.major)
    (hbelow : coreCompare minWorkersSemVer desiredSemVer = -1)
    (hskew : controlPlaneSemVer.minor.toNat ≤ minWorkersSemVer.minor.toNat + 3) :
    ∃ result, DefaultAndValidateUpgradePlans L desiredVersion controlPlaneVersion minWorkersVersion
        controlPlaneUpgradePlan [] = .ok result ∧
      (∀ e ∈ result, e = controlPlaneVersion ∨ e ∈ controlPlaneUpgradePlan ∨ e = desiredVersion) ∧
      result.getLast? = some desiredVersion ∧
      (∃ versionOrder, WorkersChain L versionOrder minWorkersSemVer result desiredSemVer) ∧
      result.length = max 1 ((desiredSemVer.minor.toNat - minWorkersSemVer.minor.toNat + 2) / 3) ∧
      ∀ versionOrder plan last, WorkersChain L versionOrder minWorkersSemVer plan last →
        Compare L last desiredSemVer [WithBuildTags] = 0 → result.length ≤ plan.length := by
  obtain ⟨minors, versionOrder, hcp⟩ : ∃ minors versionOrder,
      validateControlPlanePlan L desiredVersion desiredSemVer controlPlaneVersion controlPlaneSemVer
        controlPlaneUpgradePlan = .ok (minors, versionOrder) := by
    unfold DefaultAndValidateUpgradePlans at hplan
    simp only [hd, hc, parseMinWorkersVersion, if_true] at hplan
    split at hplan
    · cases hplan
    · exact ⟨_, _, ‹_›⟩
  have hmw : minWorkersVersion ≠ "" := hL.ne_empty_of_parseTolerant hw
  have hwd : minWorkersSemVer.minor.toNat ≤ desiredSemVer.minor.toNat :=
    coreCompare_le_minor (by omega) hwmaj
  have hn : (desiredSemVer.minor - minWorkersSemVer.minor).toNat =
      desiredSemVer.minor.toNat - minWorkersSemVer.minor.toNat :=
    UInt64.toNat_sub_of_le _ _ (UInt64.le_iff_toNat_le.mpr hwd)
  have hne : Compare L minWorkersSemVer desiredSemVer [WithBuildTags] ≠ 0 := by
    rw [hL.Compare_withBuildTags_of_coreCompare_ne (by omega), hbelow]
    decide
  have hminors := validateControlPlanePlan_minors_major hL hc hcp hmaj
  obtain ⟨steps, hsteps⟩ := Option.ne_none_iff_exists'.mp
    (workersIntermediateSteps_ne_none hwd hskew (validateControlPlanePlan_covers hL hcp hmaj).2)
  have hchain : WorkersChain L versionOrder minWorkersSemVer (steps ++ [desiredVersion])
      desiredSemVer :=
    workersIntermediateSteps_chain hL hd hminors hsteps hwmaj (by omega) hbelow (by omega)
  have hlast : steps.getLast? ≠ some desiredVersion := by
    intro hl
    obtain ⟨j, -, hj, hv⟩ := workersIntermediateSteps_mem hsteps _ (List.mem_of_getLast? hl)
    obtain ⟨vv, hvv, -, hvmin⟩ := hminors _ _ hv
    have hvd : vv = desiredSemVer := Option.some.inj (hvv.symm.trans hd)
    rw [hvd] at hvmin
    rw [hn] at hj
    have hd64 := desiredSemVer.minor.toNat_lt
    have hkey := congrArg UInt64.toNat hvmin
    rw [toNat_add_ofNat (by simp at hd64; omega)] at hkey
    omega
  have hvalidate : validateWorkersPlan L versionOrder desiredVersion desiredSemVer minWorkersSemVer
      (steps ++ [desiredVersion]) = .ok (steps ++ [desiredVersion]) := by
    simp [validateWorkersPlan, validateWorkersSteps_complete L hchain 0,
      Compare_withBuildTags_self L hL.compare_self]
  refine ⟨steps ++ [desiredVersion], ?_, fun e he => ?_, by simp, ⟨versionOrder, hchain⟩, ?_,
    fun versionOrder' plan last hplan' hend => ?_⟩
  · simp [DefaultAndValidateUpgradePlans, hd, hc, parseMinWorkersVersion, hmw, hw, hcp, hne,
      defaultAndValidateWorkersPlan, workersOutsideControlPlanePlan, defaultWorkersUpgradePlan,
      hsteps, hlast, hvalidate]
  · rcases List.mem_append.mp he with he | he
    · exact (workersIntermediateSteps_of_plan L hcp hsteps e he).elim .inl (.inr ∘ .inl)
    · exact .inr (.inr (List.mem_singleton.mp he))
  · rw [List.length_append, workersIntermediateSteps_length hsteps, hn, List.length_singleton]
    omega
  · -- any such plan climbs the same minors, at most 3 per step, and is not empty
    obtain ⟨hmaj', hmin'⟩ := hL.major_minor_eq (compare_eq_zero_of_Compare_eq_zero L hend)
    have hbound := hplan'.minor_le_length hL (hwmaj.trans hmaj'.symm)
    rw [hmin'] at hbound
    have hnonempty : plan ≠ [] := by
      rintro rfl
      cases hplan'
      exact hne hend
    have hpos := List.length_pos_of_ne_nil hnonempty
    rw [List.length_append, workersIntermediateSteps_length hsteps, hn, List.length_singleton]
    omega

end Lawful

/-! ### Fixed inputs

The release versions below parse as written in the semver package; `ComparesReleases` is its
documented precedence. `Semver.sample` behaves so on these strings. -/

/-- Workers four minors behind a control plane that is one minor from the desired version:
the call accepts and returns no workers plan. -/
theorem DefaultAndValidateUpgradePlans_nil_workers_plan (hL : L.ComparesReleases)
    (h33 : L.parseTolerant "v1.33.0" = some ⟨1, 33, 0, [], []⟩)
    (h32 : L.parseTolerant "v1.32.0" = some ⟨1, 32, 0, [], []⟩)
    (h28 : L.parseTolerant "v1.28.0" = some ⟨1, 28, 0, [], []⟩) :
    DefaultAndValidateUpgradePlans L "v1.33.0" "v1.32.0" "v1.28.0" ["v1.33.0"] [] = .ok [] := by
  unfold Semver.ComparesReleases at hL
  simp [DefaultAndValidateUpgradePlans, h33, h32, h28, parseMinWorkersVersion,
    validateControlPlanePlan, validateControlPlaneSteps, Compare_withBuildTags, hL, coreCompare,
    defaultAndValidateWorkersPlan, workersOutsideControlPlanePlan, defaultWorkersUpgradePlan,
    workersIntermediateSteps, newBuildIdentifiers, compareBuildIdentifiers]

theorem DefaultAndValidateUpgradePlans_nil_workers_plan_sample :
    Semver.sample.parseTolerant "v1.33.0" = some ⟨1, 33, 0, [], []⟩ ∧
    Semver.sample.parseTolerant "v1.32.0" = some ⟨1, 32, 0, [], []⟩ ∧
    Semver.sample.parseTolerant "v1.28.0" = some ⟨1, 28, 0, [], []⟩ ∧
    DefaultAndValidateUpgradePlans Semver.sample "v1.33.0" "v1.32.0" "v1.28.0" ["v1.33.0"] [] =
      .ok [] :=
  ⟨by decide, by decide, by decide,
    DefaultAndValidateUpgradePlans_nil_workers_plan Semver.sample Semver.sample_comparesReleases
      (by decide) (by decide) (by decide)⟩

theorem Compare_builds (hL : L.ComparesReleases) {x y : String} (hx : x ∈ ["a", "b", "c"])
    (hy : y ∈ ["a", "b", "c"]) :
    Compare L ⟨1, 30, 0, [], [x]⟩ ⟨1, 30, 0, [], [y]⟩ [WithBuildTags] = if x = y then 0 else 2 := by
  rw [Compare_withBuildTags_of_core_eq hL rfl rfl (by simp [coreCompare])]
  simp only [List.mem_cons, List.not_mem_nil, or_false] at hx hy
  rcases hx with rfl | rfl | rfl <;> rcases hy with rfl | rfl | rfl <;> decide

/-- An upgrade through two builds of one release. The plan is accepted from the start; once
the control plane has taken the first step, the same remaining plans are rejected, because
the workers' version is no longer a key of `versionOrder`. -/
theorem DefaultAndValidateUpgradePlans_revalidation_fails (hL : L.ComparesReleases)
    (ha : L.parseTolerant "v1.30.0+a" = some ⟨1, 30, 0, [], ["a"]⟩)
    (hb : L.parseTolerant "v1.30.0+b" = some ⟨1, 30, 0, [], ["b"]⟩)
    (hc : L.parseTolerant "v1.30.0+c" = some ⟨1, 30, 0, [], ["c"]⟩)
    (hsa : L.toString ⟨1, 30, 0, [], ["a"]⟩ = "1.30.0+a") :
    DefaultAndValidateUpgradePlans L "v1.30.0+c" "v1.30.0+a" "v1.30.0+a"
        ["v1.30.0+b", "v1.30.0+c"] [] = .ok ["v1.30.0+c"] ∧
    DefaultAndValidateUpgradePlans L "v1.30.0+c" "v1.30.0+b" "v1.30.0+a"
        ["v1.30.0+c"] ["v1.30.0+c"] = .error (.workersCurrentOrderUnknown "1.30.0+a") := by
  constructor
  · simp [DefaultAndValidateUpgradePlans, ha, hb, hc, hsa, parseMinWorkersVersion,
      validateControlPlanePlan, validateControlPlaneSteps, Compare_builds L hL,
      defaultAndValidateWorkersPlan, workersOutsideControlPlanePlan, defaultWorkersUpgradePlan,
      workersIntermediateSteps, validateWorkersPlan, validateWorkersSteps, checkWorkersOrder, render]
  · simp [DefaultAndValidateUpgradePlans, ha, hb, hc, hsa, parseMinWorkersVersion,
      validateControlPlanePlan, validateControlPlaneSteps, Compare_builds L hL,
      defaultAndValidateWorkersPlan, workersOutsideControlPlanePlan,
      validateWorkersPlan, validateWorkersSteps, checkWorkersOrder, render]

theorem DefaultAndValidateUpgradePlans_revalidation_fails_sample :
    Semver.sample.parseTolerant "v1.30.0+a" = some ⟨1, 30, 0, [], ["a"]⟩ ∧
    Semver.sample.parseTolerant "v1.30.0+b" = some ⟨1, 30, 0, [], ["b"]⟩ ∧
    Semver.sample.parseTolerant "v1.30.0+c" = some ⟨1, 30, 0, [], ["c"]⟩ ∧
    Semver.sample.toString ⟨1, 30, 0, [], ["a"]⟩ = "1.30.0+a" ∧
    DefaultAndValidateUpgradePlans Semver.sample "v1.30.0+c" "v1.30.0+a" "v1.30.0+a"
        ["v1.30.0+b", "v1.30.0+c"] [] = .ok ["v1.30.0+c"] ∧
    DefaultAndValidateUpgradePlans Semver.sample "v1.30.0+c" "v1.30.0+b" "v1.30.0+a"
        ["v1.30.0+c"] ["v1.30.0+c"] = .error (.workersCurrentOrderUnknown "1.30.0+a") :=
  ⟨by decide, by decide, by decide, by decide,
    DefaultAndValidateUpgradePlans_revalidation_fails Semver.sample Semver.sample_comparesReleases
      (by decide) (by decide) (by decide) (by decide)⟩

/-- Workers at a build of the control plane's release that neither the control plane nor its
plan uses. The control plane plan is accepted. `Compare` cannot order the workers' build against
the control plane's, so by `isLowerThanMinVersion` the workers count as older. Defaulting their
plan still fails, because the workers' version is not a key of `versionOrder`. -/
theorem DefaultAndValidateUpgradePlans_default_workers_fails (hL : L.ComparesReleases)
    (ha : L.parseTolerant "v1.30.0+a" = some ⟨1, 30, 0, [], ["a"]⟩)
    (hb : L.parseTolerant "v1.30.0+b" = some ⟨1, 30, 0, [], ["b"]⟩)
    (hc : L.parseTolerant "v1.30.0+c" = some ⟨1, 30, 0, [], ["c"]⟩)
    (hsb : L.toString ⟨1, 30, 0, [], ["b"]⟩ = "1.30.0+b") :
    DefaultAndValidateUpgradePlans L "v1.30.0+c" "v1.30.0+a" "" ["v1.30.0+c"] [] = .ok [] ∧
    Compare L ⟨1, 30, 0, [], ["b"]⟩ ⟨1, 30, 0, [], ["a"]⟩ [WithBuildTags] = 2 ∧
    DefaultAndValidateUpgradePlans L "v1.30.0+c" "v1.30.0+a" "v1.30.0+b" ["v1.30.0+c"] [] =
      .error (.workersCurrentOrderUnknown "1.30.0+b") := by
  refine ⟨?_, by simp [Compare_builds L hL], ?_⟩
  · simp [DefaultAndValidateUpgradePlans, ha, hc, parseMinWorkersVersion,
      validateControlPlanePlan, validateControlPlaneSteps, Compare_builds L hL]
  · simp [DefaultAndValidateUpgradePlans, ha, hb, hc, hsb, parseMinWorkersVersion,
      validateControlPlanePlan, validateControlPlaneSteps, Compare_builds L hL,
      defaultAndValidateWorkersPlan, workersOutsideControlPlanePlan, defaultWorkersUpgradePlan,
      workersIntermediateSteps, validateWorkersPlan, validateWorkersSteps, checkWorkersOrder, render]

theorem DefaultAndValidateUpgradePlans_default_workers_fails_sample :
    Semver.sample.parseTolerant "v1.30.0+a" = some ⟨1, 30, 0, [], ["a"]⟩ ∧
    Semver.sample.parseTolerant "v1.30.0+b" = some ⟨1, 30, 0, [], ["b"]⟩ ∧
    Semver.sample.parseTolerant "v1.30.0+c" = some ⟨1, 30, 0, [], ["c"]⟩ ∧
    Semver.sample.toString ⟨1, 30, 0, [], ["b"]⟩ = "1.30.0+b" ∧
    DefaultAndValidateUpgradePlans Semver.sample "v1.30.0+c" "v1.30.0+a" "" ["v1.30.0+c"] [] =
      .ok [] ∧
    Compare Semver.sample ⟨1, 30, 0, [], ["b"]⟩ ⟨1, 30, 0, [], ["a"]⟩ [WithBuildTags] = 2 ∧
    DefaultAndValidateUpgradePlans Semver.sample "v1.30.0+c" "v1.30.0+a" "v1.30.0+b"
        ["v1.30.0+c"] [] = .error (.workersCurrentOrderUnknown "1.30.0+b") :=
  ⟨by decide, by decide, by decide, by decide,
    DefaultAndValidateUpgradePlans_default_workers_fails Semver.sample
      Semver.sample_comparesReleases (by decide) (by decide) (by decide) (by decide)⟩

end ClusterApi.Topology
