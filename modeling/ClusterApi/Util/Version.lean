import Mathlib

/-!
# Versions and `version.Compare`

`Version` mirrors `semver.Version` of github.com/blang/semver/v4, which `util/version`
builds on. That package is not part of the repository: `ParseTolerant`, its own
`Version.Compare` and `Version.String` are the fields of `Semver`, a parameter of every
function that calls them. `util/version/version.go` adds build identifiers and `Compare`
with the `WithBuildTags` and `WithoutPreReleases` options, modelled here as written.
-/

namespace ClusterApi.Util

structure PRVersion where
  versionStr : String
  versionNum : UInt64
  isNum : Bool
  deriving DecidableEq, Repr

structure Version where
  major : UInt64
  minor : UInt64
  patch : UInt64
  pre : List PRVersion
  build : List String
  deriving DecidableEq, Repr

/-- The calls into the semver package: `ParseTolerant` (an error is `none`),
`Version.Compare` (precedence, build metadata ignored) and `Version.String`. -/
structure Semver where
  parseTolerant : String → Option Version
  compare : Version → Version → Int
  toString : Version → String

/-- The source lists the digit `0` twice. -/
def numbers : List Char := "01234567890".toList

def containsOnly (s set : List Char) : Bool := s.all (· ∈ set)

/-- `strconv.ParseUint(s, 10, 64)` on a string of digits: its value, or the largest `uint64`
on a range error; the empty string is a syntax error, for which the code keeps 0. -/
def parseUint (s : List Char) : UInt64 :=
  let n := s.foldl (fun n c => n * 10 + (c.toNat - '0'.toNat)) 0
  if n < UInt64.size then UInt64.ofNat n else UInt64.ofNat (UInt64.size - 1)

structure BuildIdentifier where
  identifierInt : UInt64
  identifierStr : String
  isNum : Bool
  deriving DecidableEq, Repr

def newBuildIdentifier (s : String) : BuildIdentifier :=
  if containsOnly s.toList numbers then ⟨parseUint s.toList, "", true⟩ else ⟨0, s, false⟩

def newBuildIdentifiers (ids : List String) : List BuildIdentifier :=
  ids.map newBuildIdentifier

/-- A number is lower than a string; two different strings give 2, their order unknown. -/
def BuildIdentifier.compare (v o : BuildIdentifier) : Int :=
  if v.isNum && !o.isNum then -1
  else if !v.isNum && o.isNum then 1
  else if v.isNum && o.isNum then
    if v.identifierInt < o.identifierInt then -1
    else if v.identifierInt = o.identifierInt then 0
    else 1
  else if v.identifierStr = o.identifierStr then 0
  else 2

def compareBuildIdentifiers : List BuildIdentifier → List BuildIdentifier → Int
  | [], [] => 0
  | [], _ :: _ => -1
  | _ :: _, [] => 1
  | a :: as, b :: bs =>
    let comp := a.compare b
    if comp ≠ 0 then comp else compareBuildIdentifiers as bs

structure Comparer where
  buildTags : Bool := false
  withoutPreReleases : Bool := false

abbrev CompareOption := Comparer → Comparer

def WithBuildTags : CompareOption := fun c => { c with buildTags := true }

def WithoutPreReleases : CompareOption := fun c => { c with withoutPreReleases := true }

def Compare (L : Semver) (a b : Version) (options : List CompareOption) : Int :=
  let c := options.foldl (fun c o => o c) ({} : Comparer)
  let a := if c.withoutPreReleases then { a with pre := [] } else a
  let b := if c.withoutPreReleases then { b with pre := [] } else b
  if c.buildTags then
    let comp := L.compare a b
    if comp ≠ 0 then comp
    else compareBuildIdentifiers (newBuildIdentifiers a.build) (newBuildIdentifiers b.build)
  else L.compare a b

variable (L : Semver)

theorem Compare_withBuildTags (a b : Version) :
    Compare L a b [WithBuildTags] =
      if L.compare a b ≠ 0 then L.compare a b
      else compareBuildIdentifiers (newBuildIdentifiers a.build) (newBuildIdentifiers b.build) := by
  simp [Compare, WithBuildTags]

theorem BuildIdentifier.compare_self (v : BuildIdentifier) : v.compare v = 0 := by
  cases v with
  | mk n s isNum => cases isNum <;> simp [BuildIdentifier.compare]

theorem compareBuildIdentifiers_self (l : List BuildIdentifier) : compareBuildIdentifiers l l = 0 := by
  induction l with
  | nil => rfl
  | cons a as ih => simp [compareBuildIdentifiers, BuildIdentifier.compare_self, ih]

def coreCompare (a b : Version) : Int :=
  if a.major ≠ b.major then (if a.major < b.major then -1 else 1)
  else if a.minor ≠ b.minor then (if a.minor < b.minor then -1 else 1)
  else if a.patch ≠ b.patch then (if a.patch < b.patch then -1 else 1)
  else 0

/-- What the semver package documents for release versions: their precedence is decided by
major, minor and patch, numerically. -/
def Semver.ComparesReleases : Prop :=
  ∀ a b : Version, a.pre = [] → b.pre = [] → L.compare a b = coreCompare a b

section Releases

variable {L} (hL : L.ComparesReleases) {a b : Version} (ha : a.pre = []) (hb : b.pre = [])
include hL ha hb

theorem Compare_withBuildTags_of_core_ne (hcore : coreCompare a b ≠ 0) :
    Compare L a b [WithBuildTags] = coreCompare a b := by
  rw [Compare_withBuildTags, hL a b ha hb, if_pos hcore]

theorem Compare_withBuildTags_of_core_eq (hcore : coreCompare a b = 0) :
    Compare L a b [WithBuildTags] =
      compareBuildIdentifiers (newBuildIdentifiers a.build) (newBuildIdentifiers b.build) := by
  rw [Compare_withBuildTags, hL a b ha hb, if_neg (not_not.mpr hcore)]

end Releases

theorem Compare_withBuildTags_self (hrefl : ∀ v, L.compare v v = 0) (v : Version) :
    Compare L v v [WithBuildTags] = 0 := by
  simp [Compare_withBuildTags, hrefl, compareBuildIdentifiers_self]

/-- A stand-in for the semver package on the inputs of the fixed-input theorems of this
development: release versions `vM.m.p`, optionally with build metadata `+b.c`. -/
def Semver.sample : Semver where
  parseTolerant s := match s.toList with
    | 'v' :: rest =>
      match rest.splitOn '+' with
      | [core] => release core []
      | [core, build] => release core ((build.splitOn '.').map String.ofList)
      | _ => none
    | _ => none
  compare := coreCompare
  toString v :=
    s!"{v.major.toNat}.{v.minor.toNat}.{v.patch.toNat}" ++
      if v.build = [] then "" else "+" ++ String.intercalate "." v.build
where
  release (core : List Char) (build : List String) : Option Version :=
    match core.splitOn '.' with
    | [ma, mi, pa] =>
      if containsOnly (ma ++ mi ++ pa) numbers ∧ ma ≠ [] ∧ mi ≠ [] ∧ pa ≠ [] then
        some ⟨parseUint ma, parseUint mi, parseUint pa, [], build⟩
      else none
    | _ => none

theorem Semver.sample_comparesReleases : Semver.sample.ComparesReleases :=
  fun _ _ _ _ => rfl

/-! ### Precedence

What the version-skew proofs use of the semver package, as its documentation has it:
precedence is decided by major, minor and patch first, numerically, and is a total preorder
(build metadata aside); a parsed version renders to a string that parses back to it; the empty
string is not a version. -/

def coreKey (v : Version) : Nat := (v.major.toNat * 2 ^ 64 + v.minor.toNat) * 2 ^ 64 + v.patch.toNat

theorem coreCompare_eq (a b : Version) : coreCompare a b =
    if coreKey a < coreKey b then -1 else if coreKey a = coreKey b then 0 else 1 := by
  have := a.major.toNat_lt; have := a.minor.toNat_lt; have := a.patch.toNat_lt
  have := b.major.toNat_lt; have := b.minor.toNat_lt; have := b.patch.toNat_lt
  unfold coreCompare coreKey
  simp only [ne_eq, UInt64.lt_iff_toNat_lt, ← UInt64.toNat_inj]
  split_ifs <;> omega

theorem coreCompare_le_iff {a b : Version} : coreCompare a b ≤ 0 ↔ coreKey a ≤ coreKey b := by
  rw [coreCompare_eq]
  split_ifs <;> omega

theorem coreCompare_swap (a b : Version) : coreCompare b a = -coreCompare a b := by
  rw [coreCompare_eq, coreCompare_eq]
  split_ifs <;> omega

theorem coreCompare_trans {a b c : Version} (hab : coreCompare a b ≤ 0)
    (hbc : coreCompare b c ≤ 0) : coreCompare a c ≤ 0 := by
  rw [coreCompare_le_iff] at *
  omega

theorem coreCompare_le_major {a b : Version} (h : coreCompare a b ≤ 0) :
    a.major.toNat ≤ b.major.toNat := by
  have := a.minor.toNat_lt; have := a.patch.toNat_lt
  have := b.minor.toNat_lt; have := b.patch.toNat_lt
  rw [coreCompare_le_iff, coreKey, coreKey] at h
  omega

theorem coreCompare_le_minor {a b : Version} (h : coreCompare a b ≤ 0) (hm : a.major = b.major) :
    a.minor.toNat ≤ b.minor.toNat := by
  have := a.patch.toNat_lt; have := b.patch.toNat_lt
  rw [coreCompare_le_iff, coreKey, coreKey, hm] at h
  omega

structure Semver.Lawful : Prop where
  compare_of_coreCompare_ne : ∀ a b, coreCompare a b ≠ 0 → L.compare a b = coreCompare a b
  compare_swap : ∀ a b, L.compare b a = -L.compare a b
  compare_trans : ∀ a b c, L.compare a b ≤ 0 → L.compare b c ≤ 0 → L.compare a c ≤ 0
  parseTolerant_render : ∀ s v, L.parseTolerant s = some v →
    L.parseTolerant ("v" ++ L.toString v) = some v
  parseTolerant_empty : L.parseTolerant "" = none

namespace Semver.Lawful

variable {L} (hL : L.Lawful)
include hL

theorem compare_self (v : Version) : L.compare v v = 0 := by
  have h := hL.compare_swap v v
  omega

theorem ne_empty_of_parseTolerant {s : String} {v : Version} (h : L.parseTolerant s = some v) :
    s ≠ "" := by
  rintro rfl
  rw [hL.parseTolerant_empty] at h
  cases h

theorem compare_le_of_nonneg {a b : Version} (h : 0 ≤ L.compare a b) : L.compare b a ≤ 0 := by
  rw [hL.compare_swap]
  omega

theorem coreCompare_le {a b : Version} (h : L.compare a b ≤ 0) : coreCompare a b ≤ 0 := by
  by_contra hlt
  rw [hL.compare_of_coreCompare_ne a b (by omega)] at h
  omega

theorem minor_le {a b : Version} (h : L.compare a b ≤ 0) (hm : a.major = b.major) :
    a.minor.toNat ≤ b.minor.toNat :=
  coreCompare_le_minor (hL.coreCompare_le h) hm

theorem major_eq_of_between {a e b : Version} (hae : L.compare a e ≤ 0) (heb : L.compare e b ≤ 0)
    (hab : a.major = b.major) : e.major = a.major := by
  have h₁ := coreCompare_le_major (hL.coreCompare_le hae)
  have h₂ := coreCompare_le_major (hL.coreCompare_le heb)
  rw [hab] at h₁ ⊢
  exact UInt64.toNat_inj.mp (by omega)

theorem major_minor_eq {a b : Version} (h : L.compare a b = 0) :
    a.major = b.major ∧ a.minor = b.minor := by
  have hab := coreCompare_le_iff.mp (hL.coreCompare_le (le_of_eq h))
  have hba := coreCompare_le_iff.mp (hL.coreCompare_le (a := b) (b := a)
    (by rw [hL.compare_swap, h]; rfl))
  have := a.minor.toNat_lt; have := a.patch.toNat_lt
  have := b.minor.toNat_lt; have := b.patch.toNat_lt
  unfold coreKey at hab hba
  exact ⟨UInt64.toNat_inj.mp (by omega), UInt64.toNat_inj.mp (by omega)⟩

theorem Compare_withBuildTags_of_coreCompare_ne {a b : Version} (h : coreCompare a b ≠ 0) :
    Compare L a b [WithBuildTags] = coreCompare a b := by
  rw [Compare_withBuildTags, hL.compare_of_coreCompare_ne a b h, if_pos h]

end Semver.Lawful

theorem compare_nonneg_of_Compare_pos {a b : Version} (h : 0 < Compare L a b [WithBuildTags]) :
    0 ≤ L.compare a b := by
  rw [Compare_withBuildTags] at h
  split_ifs at h with hc <;> omega

theorem compare_eq_zero_of_Compare_eq_zero {a b : Version} (h : Compare L a b [WithBuildTags] = 0) :
    L.compare a b = 0 := by
  rw [Compare_withBuildTags] at h
  split_ifs at h with hc <;> omega

end ClusterApi.Util
