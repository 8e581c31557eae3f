import ClusterApi.Util.Version
import ClusterApi.Lib.GoSort

/-!
# The lowest version of a collection of machines

`util/collections/machine_collection.go`. `LowestVersion` keeps the machines that have a version
(`WithVersion`), sorts them with `machinesByVersion`, which compares their `spec.version` by
`version.Compare(..., version.WithBuildTags())` and breaks ties by name, and returns the first
one's version.

`Machines` is a map; it is the list of its machines in the order `range` visits them, which Go
leaves open, so a statement for every list is one for every order. `sort.Sort` is a `Sorter`
with the contract of `Lib.GoSort`, which the model of `sort.Sort` keeps. The semver package is the
parameter `L` of `Util.Version`; where `Less` drops the error of `ParseTolerant` it reads the zero
`Version`.

`Compare` with build tags gives 2 for versions that differ in a non-numeric build identifier, and
`Less` holds neither way between them. That incomparability is not transitive: `1.0.0+abc` is
below `1.0.0+abc.1`, and both are incomparable with `1.0.0+xyz`. On three such machines the
insertion sort that `sort.Sort` runs on short data keeps `1.0.0+abc.1` first when it comes first.
-/

namespace ClusterApi.Util.Collections

open ClusterApi.Util ClusterApi.Lib.GoSort

/-- The fields of a Machine `LowestVersion` reads; `version` is `spec.version`. -/
structure Machine where
  name : String
  version : String
  deriving DecidableEq, Repr

variable (L : Semver)

/-- `v, _ := semver.ParseTolerant(s)`: a string that does not parse reads as the zero `Version`. -/
def parseTolerantOrZero (s : String) : Version :=
  (L.parseTolerant s).getD ⟨0, 0, 0, [], []⟩

def machinesByVersionLess (a b : Machine) : Bool :=
  let comp := Compare L (parseTolerantOrZero L a.version) (parseTolerantOrZero L b.version)
    [WithBuildTags]
  if comp = 0 then decide (a.name < b.name) else comp == -1

def WithVersion (machine : Machine) : Bool :=
  machine.version != "" && (L.parseTolerant machine.version).isSome

variable (S : Sorter)

def sortedByVersion (s : List Machine) : List Machine :=
  S.sort (machinesByVersionLess L) s

def LowestVersion (s : List Machine) : String :=
  let machines := s.filter (WithVersion L)
  if machines.length = 0 then ""
  else
    match sortedByVersion L S machines with
    | m :: _ => m.version
    | [] => ""

variable {L S}

theorem machinesByVersionLess_of_parse {a b : Machine} {va vb : Version}
    (ha : L.parseTolerant a.version = some va) (hb : L.parseTolerant b.version = some vb) :
    machinesByVersionLess L a b =
      if Compare L va vb [WithBuildTags] = 0 then decide (a.name < b.name)
      else Compare L va vb [WithBuildTags] == -1 := by
  simp only [machinesByVersionLess, parseTolerantOrZero, ha, hb, Option.getD_some]

theorem machinesByVersionLess_of_build (hL : L.ComparesReleases) {a b : Machine} {va vb : Version}
    (ha : L.parseTolerant a.version = some va) (hb : L.parseTolerant b.version = some vb)
    (hpa : va.pre = []) (hpb : vb.pre = []) (hcore : coreCompare va vb = 0) :
    machinesByVersionLess L a b =
      if compareBuildIdentifiers (newBuildIdentifiers va.build) (newBuildIdentifiers vb.build) = 0
      then decide (a.name < b.name)
      else compareBuildIdentifiers (newBuildIdentifiers va.build) (newBuildIdentifiers vb.build) ==
        -1 := by
  rw [machinesByVersionLess_of_parse ha hb, Compare_withBuildTags_of_core_eq hL hpa hpb hcore]

theorem LowestVersion_eq_head (hS : S.Lawful) {s : List Machine}
    (h : s.filter (WithVersion L) ≠ []) :
    ∃ m rest, sortedByVersion L S (s.filter (WithVersion L)) = m :: rest ∧
      LowestVersion L S s = m.version := by
  have hlen : (s.filter (WithVersion L)).length ≠ 0 := by simpa using h
  cases hsort : sortedByVersion L S (s.filter (WithVersion L)) with
  | nil =>
    have hl := @Sorter.Lawful.length_sort _ hS _ (machinesByVersionLess L)
      (s.filter (WithVersion L))
    change (sortedByVersion L S _).length = _ at hl
    rw [hsort, List.length_nil] at hl
    exact absurd hl.symm hlen
  | cons m rest =>
    exact ⟨m, rest, rfl, by simp only [LowestVersion, if_neg hlen, hsort]⟩

theorem LowestVersion_spec (hS : S.Lawful) (s : List Machine) :
    (s.filter (WithVersion L) = [] → LowestVersion L S s = "") ∧
      (s.filter (WithVersion L) ≠ [] →
        ∃ m ∈ s, WithVersion L m = true ∧ LowestVersion L S s = m.version) := by
  constructor
  · intro h
    simp [LowestVersion, h]
  · intro h
    obtain ⟨m, rest, hsort, hlow⟩ := LowestVersion_eq_head hS h
    obtain ⟨hms, hmv⟩ := List.mem_filter.mp (hS.head_mem hsort)
    exact ⟨m, hms, hmv, hlow⟩

theorem LowestVersion_lowest (hS : S.Lawful) (s : List Machine)
    (hne : s.filter (WithVersion L) ≠ [])
    (hweak : StrictWeakOn (machinesByVersionLess L) (s.filter (WithVersion L))) :
    ∃ m ∈ s, WithVersion L m = true ∧ LowestVersion L S s = m.version ∧
      ∀ m' ∈ s, WithVersion L m' = true → machinesByVersionLess L m' m = false := by
  obtain ⟨m, rest, hsort, hlow⟩ := LowestVersion_eq_head hS hne
  obtain ⟨hms, hmv⟩ := List.mem_filter.mp (hS.head_mem hsort)
  refine ⟨m, hms, hmv, hlow, fun m' hm' hm'v => ?_⟩
  exact hS.not_less_head hweak hsort m' (List.mem_filter.mpr ⟨hm', hm'v⟩)

/-- Three machines at `v1.0.0+abc`, `v1.0.0+abc.1` and `v1.0.0+xyz`. When the map is visited as
`b, c, a`, `LowestVersion` gives `b`'s version although `a`'s is below it; visited as `a, b, c`,
it gives `a`'s. -/
theorem LowestVersion_depends_on_order (hL : L.ComparesReleases)
    (habc : L.parseTolerant "v1.0.0+abc" = some ⟨1, 0, 0, [], ["abc"]⟩)
    (habc1 : L.parseTolerant "v1.0.0+abc.1" = some ⟨1, 0, 0, [], ["abc", "1"]⟩)
    (hxyz : L.parseTolerant "v1.0.0+xyz" = some ⟨1, 0, 0, [], ["xyz"]⟩) (hS : S.Lawful) :
    LowestVersion L S [⟨"b", "v1.0.0+abc.1"⟩, ⟨"c", "v1.0.0+xyz"⟩, ⟨"a", "v1.0.0+abc"⟩] =
        "v1.0.0+abc.1" ∧
      LowestVersion L S [⟨"a", "v1.0.0+abc"⟩, ⟨"b", "v1.0.0+abc.1"⟩, ⟨"c", "v1.0.0+xyz"⟩] =
        "v1.0.0+abc" ∧
      Compare L ⟨1, 0, 0, [], ["abc"]⟩ ⟨1, 0, 0, [], ["abc", "1"]⟩ [WithBuildTags] = -1 := by
  -- the three comparisons insertion sort makes, with the build identifiers deciding each
  have hcb : machinesByVersionLess L ⟨"c", "v1.0.0+xyz"⟩ ⟨"b", "v1.0.0+abc.1"⟩ = false := by
    rw [machinesByVersionLess_of_build hL hxyz habc1 rfl rfl (by decide)]
    decide
  have hac : machinesByVersionLess L ⟨"a", "v1.0.0+abc"⟩ ⟨"c", "v1.0.0+xyz"⟩ = false := by
    rw [machinesByVersionLess_of_build hL habc hxyz rfl rfl (by decide)]
    decide
  have hba : machinesByVersionLess L ⟨"b", "v1.0.0+abc.1"⟩ ⟨"a", "v1.0.0+abc"⟩ = false := by
    rw [machinesByVersionLess_of_build hL habc1 habc rfl rfl (by decide)]
    decide
  refine ⟨?_, ?_, ?_⟩
  · rw [LowestVersion, List.filter_eq_self.mpr (by simp [WithVersion, habc, habc1, hxyz]),
      sortedByVersion, hS.short _ _ (by decide)]
    simp [insertionSort, insertRev, hcb, hac]
  · rw [LowestVersion, List.filter_eq_self.mpr (by simp [WithVersion, habc, habc1, hxyz]),
      sortedByVersion, hS.short _ _ (by decide)]
    simp [insertionSort, insertRev, hba, hcb]
  · rw [Compare_withBuildTags_of_core_eq hL rfl rfl (by decide)]
    decide

theorem LowestVersion_depends_on_order_sample :
    LowestVersion Semver.sample Sorter.sample
        [⟨"b", "v1.0.0+abc.1"⟩, ⟨"c", "v1.0.0+xyz"⟩, ⟨"a", "v1.0.0+abc"⟩] = "v1.0.0+abc.1" ∧
      LowestVersion Semver.sample Sorter.sample
        [⟨"a", "v1.0.0+abc"⟩, ⟨"b", "v1.0.0+abc.1"⟩, ⟨"c", "v1.0.0+xyz"⟩] = "v1.0.0+abc" ∧
      Compare Semver.sample ⟨1, 0, 0, [], ["abc"]⟩ ⟨1, 0, 0, [], ["abc", "1"]⟩ [WithBuildTags] =
        -1 :=
  LowestVersion_depends_on_order Semver.sample_comparesReleases (by decide) (by decide) (by decide)
    Sorter.sample_lawful

end ClusterApi.Util.Collections
