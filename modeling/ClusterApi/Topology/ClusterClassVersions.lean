import ClusterApi.Topology.UpgradePlan

/-!
# Upgrade plans from the versions listed on a ClusterClass

`validateKubernetesVersions` (`internal/webhooks/clusterclass.go`) checks the ClusterClass list
of Kubernetes versions; `GetUpgradePlanFromClusterClassVersions` and `GetUpgradePlanOneMinor`
(`exp/topology/desiredstate/upgrade_plan.go`) are the plan functions `ComputeUpgradePlan` uses
when no runtime extension generates the plan. The scan of the ClusterClass versions tests
`start` and `end` before updating them, then the plan is collapsed to the last version of
each minor.
-/

namespace ClusterApi.Topology
open ClusterApi.Util

structure KubernetesVersionError where
  index : Nat
  value : String
  detail : String
  deriving DecidableEq, Repr

def KubernetesVersionError.field (e : KubernetesVersionError) : String :=
  "spec.kubernetesVersion[" ++ toString e.index ++ "]"

variable (L : Semver)

/-- The loop of `validateKubernetesVersions` from item `i` on; an item that does not parse
leaves `previousVersion` as it is. -/
def validateKubernetesVersionsFrom (previousVersion : Option Version) (i : Nat) :
    List String → List KubernetesVersionError
  | [] => []
  | v :: vs =>
    match L.parseTolerant v with
    | none =>
      ⟨i, v, "version must be a valid semantic version"⟩ ::
        validateKubernetesVersionsFrom previousVersion (i + 1) vs
    | some semV =>
      let errs := match previousVersion with
        | none => []
        | some prev =>
          (if Compare L semV prev [WithBuildTags] ≤ 0 then
            [⟨i, v, "version must be greater than v" ++ L.toString prev⟩] else []) ++
          (if prev.minor ≠ semV.minor ∧ prev.minor + 1 ≠ semV.minor then
            [⟨i, v, "expecting a version with minor " ++ toString prev.minor.toNat ++ " or " ++
              toString (prev.minor + 1).toNat ++ ", found version " ++ L.toString semV⟩]
          else [])
      errs ++ validateKubernetesVersionsFrom (some semV) (i + 1) vs

def validateKubernetesVersions (versions : List String) : List KubernetesVersionError :=
  validateKubernetesVersionsFrom L none 0 versions

/-- The first loop of `GetUpgradePlanFromClusterClassVersions`: which ClusterClass versions are
picked, given the `start` and `end` flags before the head. -/
def collectUpgradePlan (currentControlPlaneSemVer desiredSemVer : Version) (start «end» : Bool) :
    List String → Except UpgradePlanError (List String)
  | [] => .ok []
  | v :: vs =>
    match L.parseTolerant v with
    | none => .error (.parseVersion v)
    | some semV =>
      let pick := (start && !«end») || (!start && decide (semV.minor > currentControlPlaneSemVer.minor))
      let start := start || decide (L.toString semV = L.toString currentControlPlaneSemVer) ||
        decide (Compare L currentControlPlaneSemVer semV [WithBuildTags] < 0)
      let «end» := «end» || decide (L.toString semV = L.toString desiredSemVer) ||
        decide (Compare L desiredSemVer semV [WithBuildTags] < 0)
      match collectUpgradePlan currentControlPlaneSemVer desiredSemVer start «end» vs with
      | .error e => .error e
      | .ok plan => .ok (if pick then v :: plan else plan)

/-- The second loop: a version of a higher minor than the previous one is appended, one of the
same minor replaces the last item when there is one. -/
def simplifyUpgradePlan (currentMinor : UInt64) (simplified : List String) :
    List String → Except UpgradePlanError (List String)
  | [] => .ok simplified
  | v :: vs =>
    match L.parseTolerant v with
    | none => .error (.parseVersion v)
    | some semV =>
      let simplified := if semV.minor > currentMinor then simplified ++ [v] else simplified
      let simplified := if semV.minor = currentMinor ∧ simplified ≠ [] then
          simplified.dropLast ++ [v] else simplified
      simplifyUpgradePlan semV.minor simplified vs

def GetUpgradePlanFromClusterClassVersions (clusterClassVersions : List String)
    (desiredVersion currentControlPlaneVersion _minWorkersVersion : String) :
    Except UpgradePlanError (List String × List String) :=
  match L.parseTolerant desiredVersion with
  | none => .error (.parseDesiredVersion desiredVersion)
  | some desiredSemVer =>
  match L.parseTolerant currentControlPlaneVersion with
  | none => .error (.parseCurrentControlPlaneVersion currentControlPlaneVersion)
  | some currentControlPlaneSemVer =>
    if L.toString currentControlPlaneSemVer = L.toString desiredSemVer then .ok ([], [])
    else
      match collectUpgradePlan L currentControlPlaneSemVer desiredSemVer false false
          clusterClassVersions with
      | .error e => .error e
      | .ok upgradePlan =>
        match simplifyUpgradePlan L currentControlPlaneSemVer.minor [] upgradePlan with
        | .error e => .error e
        | .ok simplified => .ok (simplified, [])

def GetUpgradePlanOneMinor (desiredVersion currentControlPlaneVersion _minWorkersVersion : String) :
    Except UpgradePlanError (List String × List String) :=
  match L.parseTolerant desiredVersion with
  | none => .error (.parseDesiredVersion desiredVersion)
  | some desiredSemVer =>
  match L.parseTolerant currentControlPlaneVersion with
  | none => .error (.parseCurrentControlPlaneVersion currentControlPlaneVersion)
  | some currentControlPlaneSemVer =>
    if L.toString currentControlPlaneSemVer = L.toString desiredSemVer then .ok ([], [])
    else if desiredSemVer.minor > currentControlPlaneSemVer.minor + 1 then
      .error (.cannotComputeUpgradePlan currentControlPlaneVersion desiredVersion)
    else .ok ([desiredVersion], [])

theorem simplifyUpgradePlan_same_minor {m : UInt64} {plan : List String}
    (hplan : ∀ v ∈ plan, ∃ semV, L.parseTolerant v = some semV ∧ semV.minor = m) :
    simplifyUpgradePlan L m [] plan = .ok [] := by
  induction plan with
  | nil => rfl
  | cons v vs ih =>
    obtain ⟨semV, hv, hm⟩ := hplan v (by simp)
    have htail := ih fun w hw => hplan w (by simp [hw])
    simpa [simplifyUpgradePlan, hv, hm] using htail

theorem DefaultAndValidateUpgradePlans_empty_plan {desiredVersion controlPlaneVersion
    minWorkersVersion : String} {workersUpgradePlan : List String} {desiredSemVer
    controlPlaneSemVer : Version} (hd : L.parseTolerant desiredVersion = some desiredSemVer)
    (hc : L.parseTolerant controlPlaneVersion = some controlPlaneSemVer)
    (hw : ∃ w, parseMinWorkersVersion L minWorkersVersion = .ok w)
    (hcmp : Compare L controlPlaneSemVer desiredSemVer [WithBuildTags] ≠ 0) :
    DefaultAndValidateUpgradePlans L desiredVersion controlPlaneVersion minWorkersVersion []
      workersUpgradePlan =
      .error (.controlPlaneWrongEnd desiredVersion (render L controlPlaneSemVer)) := by
  obtain ⟨w, hw⟩ := hw
  simp [DefaultAndValidateUpgradePlans, hd, hc, hw, validateControlPlanePlan, hcmp,
    validateControlPlaneSteps]

theorem collectUpgradePlan_mem {currentControlPlaneSemVer desiredSemVer : Version}
    {start «end» : Bool} {versions plan : List String}
    (h : collectUpgradePlan L currentControlPlaneSemVer desiredSemVer start «end» versions = .ok plan) :
    ∀ v ∈ plan, v ∈ versions := by
  induction versions generalizing start «end» plan with
  | nil =>
    simp only [collectUpgradePlan, Except.ok.injEq] at h
    simp [← h]
  | cons w ws ih =>
    simp only [collectUpgradePlan] at h
    split at h
    · cases h
    · split at h
      · cases h
      · rename_i rest hrest
        have hsub := ih hrest
        intro v hv
        simp only [Except.ok.injEq] at h
        subst h
        split_ifs at hv
        · rcases List.mem_cons.mp hv with rfl | hv
          · simp
          · exact List.mem_cons_of_mem _ (hsub v hv)
        · exact List.mem_cons_of_mem _ (hsub v hv)

theorem collectUpgradePlan_ok {currentControlPlaneSemVer desiredSemVer : Version}
    {versions : List String} (hparse : ∀ v ∈ versions, ∃ semV, L.parseTolerant v = some semV) :
    ∀ start «end», ∃ plan,
      collectUpgradePlan L currentControlPlaneSemVer desiredSemVer start «end» versions = .ok plan := by
  induction versions with
  | nil => exact fun _ _ => ⟨[], rfl⟩
  | cons w ws ih =>
    intro start «end»
    obtain ⟨semV, hw⟩ := hparse w (by simp)
    simp only [collectUpgradePlan, hw]
    obtain ⟨plan, hplan⟩ := ih (fun v hv => hparse v (by simp [hv])) _ _
    rw [hplan]
    exact ⟨_, rfl⟩

theorem GetUpgradePlanFromClusterClassVersions_same_minor {clusterClassVersions : List String}
    {desiredVersion currentControlPlaneVersion minWorkersVersion : String}
    {desiredSemVer currentControlPlaneSemVer : Version}
    (hd : L.parseTolerant desiredVersion = some desiredSemVer)
    (hc : L.parseTolerant currentControlPlaneVersion = some currentControlPlaneSemVer)
    (hne : L.toString currentControlPlaneSemVer ≠ L.toString desiredSemVer)
    (hversions : ∀ v ∈ clusterClassVersions, ∃ semV, L.parseTolerant v = some semV ∧
      semV.minor = currentControlPlaneSemVer.minor)
    (hcmp : Compare L currentControlPlaneSemVer desiredSemVer [WithBuildTags] ≠ 0)
    (hw : ∃ w, parseMinWorkersVersion L minWorkersVersion = .ok w) :
    GetUpgradePlanFromClusterClassVersions L clusterClassVersions desiredVersion
        currentControlPlaneVersion minWorkersVersion = .ok ([], []) ∧
    DefaultAndValidateUpgradePlans L desiredVersion currentControlPlaneVersion minWorkersVersion
        [] [] = .error (.controlPlaneWrongEnd desiredVersion (render L currentControlPlaneSemVer)) := by
  refine ⟨?_, DefaultAndValidateUpgradePlans_empty_plan L hd hc hw hcmp⟩
  have hcollect : ∀ start «end», ∀ plan,
      collectUpgradePlan L currentControlPlaneSemVer desiredSemVer start «end»
        clusterClassVersions = .ok plan →
      simplifyUpgradePlan L currentControlPlaneSemVer.minor [] plan = .ok [] :=
    fun start «end» plan h => simplifyUpgradePlan_same_minor L fun v hv =>
      hversions v (collectUpgradePlan_mem L h v hv)
  obtain ⟨plan, hplan⟩ := @collectUpgradePlan_ok L currentControlPlaneSemVer desiredSemVer _
    (fun v hv => (hversions v hv).imp fun _ h => h.1) false false
  simp only [GetUpgradePlanFromClusterClassVersions, hd, hc, hne, if_false, hplan,
    hcollect false false plan hplan]

/-- A ClusterClass listing two patch releases of one minor, accepted by the webhook: the plan
function returns no control plane plan for the patch upgrade between them, and the validator
rejects that plan. -/
theorem GetUpgradePlanFromClusterClassVersions_patch_upgrade (hL : L.ComparesReleases)
    (h0 : L.parseTolerant "v1.31.0" = some ⟨1, 31, 0, [], []⟩)
    (h1 : L.parseTolerant "v1.31.1" = some ⟨1, 31, 1, [], []⟩)
    (hs0 : L.toString ⟨1, 31, 0, [], []⟩ = "1.31.0")
    (hs1 : L.toString ⟨1, 31, 1, [], []⟩ = "1.31.1") :
    validateKubernetesVersions L ["v1.31.0", "v1.31.1"] = [] ∧
    GetUpgradePlanFromClusterClassVersions L ["v1.31.0", "v1.31.1"] "v1.31.1" "v1.31.0" "" =
      .ok ([], []) ∧
    DefaultAndValidateUpgradePlans L "v1.31.1" "v1.31.0" "" [] [] =
      .error (.controlPlaneWrongEnd "v1.31.1" "v1.31.0") := by
  have hlt : Compare L ⟨1, 31, 0, [], []⟩ ⟨1, 31, 1, [], []⟩ [WithBuildTags] = -1 := by
    rw [Compare_withBuildTags_of_core_ne hL rfl rfl (by decide)]
    decide
  have hgt : Compare L ⟨1, 31, 1, [], []⟩ ⟨1, 31, 0, [], []⟩ [WithBuildTags] = 1 := by
    rw [Compare_withBuildTags_of_core_ne hL rfl rfl (by decide)]
    decide
  have hversions : ∀ v ∈ ["v1.31.0", "v1.31.1"], ∃ semV, L.parseTolerant v = some semV ∧
      semV.minor = (⟨1, 31, 0, [], []⟩ : Version).minor := by
    simp [h0, h1]
  obtain ⟨hplan, hreject⟩ : GetUpgradePlanFromClusterClassVersions L ["v1.31.0", "v1.31.1"]
      "v1.31.1" "v1.31.0" "" = .ok ([], []) ∧
      DefaultAndValidateUpgradePlans L "v1.31.1" "v1.31.0" "" [] [] =
        .error (.controlPlaneWrongEnd "v1.31.1" (render L ⟨1, 31, 0, [], []⟩)) :=
    GetUpgradePlanFromClusterClassVersions_same_minor L h1 h0 (by rw [hs0, hs1]; decide) hversions
      (by rw [hlt]; decide) ⟨none, rfl⟩
  refine ⟨?_, hplan, ?_⟩
  · simp [validateKubernetesVersions, validateKubernetesVersionsFrom, h0, h1, hgt]
  · rw [hreject, render, hs0]
    rfl

theorem GetUpgradePlanFromClusterClassVersions_patch_upgrade_sample :
    Semver.sample.parseTolerant "v1.31.0" = some ⟨1, 31, 0, [], []⟩ ∧
    Semver.sample.parseTolerant "v1.31.1" = some ⟨1, 31, 1, [], []⟩ ∧
    Semver.sample.toString ⟨1, 31, 0, [], []⟩ = "1.31.0" ∧
    Semver.sample.toString ⟨1, 31, 1, [], []⟩ = "1.31.1" ∧
    validateKubernetesVersions Semver.sample ["v1.31.0", "v1.31.1"] = [] ∧
    GetUpgradePlanFromClusterClassVersions Semver.sample ["v1.31.0", "v1.31.1"] "v1.31.1" "v1.31.0"
        "" = .ok ([], []) ∧
    DefaultAndValidateUpgradePlans Semver.sample "v1.31.1" "v1.31.0" "" [] [] =
      .error (.controlPlaneWrongEnd "v1.31.1" "v1.31.0") :=
  ⟨by decide, by decide, by decide, by decide,
    GetUpgradePlanFromClusterClassVersions_patch_upgrade Semver.sample
      Semver.sample_comparesReleases (by decide) (by decide) (by decide) (by decide)⟩

end ClusterApi.Topology
