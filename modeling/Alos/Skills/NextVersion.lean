import Alos.Registry.Versions
import Alos.Skills.Assigned

/-! # The next minor version

`_semver` reads a version by a pattern, `_next_minor` by splitting it at its first
hyphen and at its points. They agree on the numbers, but the latter knows nothing of
build metadata.

* `takeWhile_core` and `takeWhile_build` say what stands before the first hyphen;
* `nextMinor_of_core` and `nextMinor_of_plus` are the two ways that this goes;
* `next_minor_newer_iff` puts them together.
-/

namespace Alos.Skills

open Registry SemVer Except

section NextVersion

variable {κ : Type}

/-- The tables of the language, on the characters of a version. -/
structure AsciiTables (x : SkillAssignmentService κ) : Prop where
  isDigit : ∀ c : Char, c.isDigit = true → x.isDigit c = true
  plus : x.isDigit '+' = false
  decimal : ∀ c : Char, c.isDigit = true → x.decimal c = some (c.toNat - '0'.toNat)

variable {x : SkillAssignmentService κ}

/-- The number that a text of digits is read as. -/
theorem decimalOf_digits (htables : AsciiTables x) {text : List Char}
    (h : ∀ c ∈ text, c.isDigit = true) : decimalOf x text = .ok (value text) := by
  unfold decimalOf
  simp only [bind_eq_ok, pure_eq_ok, mapM_eq_ok]
  refine ⟨text.map fun c => c.toNat - '0'.toNat, ?_, ?_⟩
  · rw [List.forall₂_map_right_iff, List.forall₂_same]
    intro c hc
    rw [htables.decimal c (h c hc)]
  · rw [List.foldl_map, value]

/-- No hyphen is among the numbers. -/
theorem takeWhile_render (v : Version) : v.render.takeWhile (· ≠ '-') =
    v.core ++ (marked '-' (v.preRelease.map Subtype.val) ++
      marked '+' (v.build.map Subtype.val)).takeWhile (· ≠ '-') := by
  rw [Version.render, List.append_assoc]
  apply List.takeWhile_append_of_pos
  intro c hc
  have hne : c ≠ '-' := by
    rintro rfl
    exact Semver.notMem_core v.major v.minor v.patch (by decide) (by decide) hc
  simpa using hne

/-- What stands before the first hyphen is the numbers, unless build metadata follows
them at once. -/
theorem takeWhile_core {v : Version} (h : v.build = [] ∨ v.preRelease ≠ []) :
    v.render.takeWhile (· ≠ '-') = v.core := by
  rw [takeWhile_render]
  cases hpre : v.preRelease with
  | cons identifier identifiers => simp [marked]
  | nil =>
      rw [h.resolve_right (not_not.2 hpre)]
      simp [marked]

theorem takeWhile_build {v : Version} (hbuild : v.build ≠ []) (hpre : v.preRelease = []) :
    '+' ∈ v.render.takeWhile (· ≠ '-') := by
  rw [takeWhile_render, hpre]
  rcases List.exists_cons_of_ne_nil hbuild with ⟨identifier, identifiers, hbuild⟩
  rw [hbuild]
  simp [marked]

/-- The minor version after `v`. -/
def following (v : Version) : Version where
  major := v.major
  minor := ⟨Nat.toDigits 10 (value v.minor.1 + 1), numeric_toDigits _⟩
  patch := ⟨Nat.toDigits 10 0, numeric_toDigits 0⟩
  preRelease := []
  build := []

theorem precedence_following (v : Version) : SemVer.precedence v (following v) = .lt := by
  have hminor : compare (value v.minor.1) (value (following v).minor.1) = .lt := by
    rw [Nat.compare_eq_lt, following, value_toDigits]
    exact Nat.lt_succ_self _
  have hmajor : compare (value v.major.1) (value (following v).major.1) = .eq :=
    (compare_value_eq_iff v.major v.major).2 rfl
  rw [SemVer.precedence, hmajor, hminor]
  rfl

/-- The numbers of a version alone are followed by the next minor version. -/
theorem nextMinor_of_core (htables : AsciiTables x) {version : String} {v : Version}
    (h : version.toList.takeWhile (· ≠ '-') = v.core) :
    nextMinor x version = .ok (String.ofList (following v).render) := by
  -- the three numbers pass the check on digits
  have hdigits : ∀ text : {text : List Char // Numeric text},
      decide (¬ text.1.isEmpty ∧ text.1.all x.isDigit) = true := by
    intro text
    refine decide_eq_true ⟨by simpa using text.2.1.1, List.all_eq_true.2 fun c hc => ?_⟩
    exact htables.isDigit c (text.2.1.2 c hc)
  have hall : [v.major.1, v.minor.1, v.patch.1].all (fun part =>
      decide (¬ part.isEmpty ∧ part.all x.isDigit)) = true := by
    simp only [List.all_cons, List.all_nil, hdigits, Bool.and_self]
  unfold nextMinor
  rw [h, Version.core, Semver.splitOn_core]
  simp only
  rw [if_pos hall]
  simp only [bind_eq_ok, pure_eq_ok]
  refine ⟨value v.minor.1, decimalOf_digits htables v.minor.2.1.2, ?_⟩
  apply String.toList_inj.1
  change (String.ofList v.major.1 ++ "." ++ (value v.minor.1 + 1).repr ++ ".0").toList = _
  simp [following, Version.render, Version.core, marked, dotted, Nat.toDigits_zero]

/-- A plus before the first hyphen is no digit. -/
theorem nextMinor_of_plus (htables : AsciiTables x) {version : String}
    (h : '+' ∈ version.toList.takeWhile (· ≠ '-')) :
    nextMinor x version = .error (.raised (.assignment "AGENT_VERSION_INVALID"
      "Agent version is not semantic-version compatible.")) := by
  -- the plus stands in one of the pieces, which is then no number
  have hpiece : ∃ piece ∈ (version.toList.takeWhile (· ≠ '-')).splitOn '.', '+' ∈ piece := by
    by_contra hnone
    push Not at hnone
    have hdotted := Semver.notMem_dotted (by decide : '+' ≠ '.') hnone
    rw [dotted, List.intercalate_splitOn] at hdotted
    exact hdotted h
  rcases hpiece with ⟨piece, hmem, hplus⟩
  unfold nextMinor
  simp only
  split
  · rename_i major minor patch hparts
    rw [hparts] at hmem
    have hfails : ¬ [major, minor, patch].all fun part => ¬ part.isEmpty ∧ part.all x.isDigit := by
      intro hall
      have hpart := List.all_eq_true.1 hall piece hmem
      simp only [decide_eq_true_eq] at hpart
      have hdigit := List.all_eq_true.1 hpart.2 '+' hplus
      rw [htables.plus] at hdigit
      cases hdigit
    rw [if_neg hfails]
  · rfl

/-- The next version is read, and it is newer. -/
theorem nextMinor_newer (htables : AsciiTables x) {version : String} {v : Version}
    (hv : Derives version v) (hbuild : v.build = [] ∨ v.preRelease ≠ []) :
    ∃ next semver', nextMinor x version = .ok next ∧ Semver.ofString next = .ok semver' ∧
      compare (Semver.key v) semver' = .lt := by
  have hcore : version.toList.takeWhile (· ≠ '-') = v.core := by
    rw [← hv]
    exact takeWhile_core hbuild
  refine ⟨_, _, nextMinor_of_core htables hcore, Semver.ofString_render (following v), ?_⟩
  rw [Semver.compare_key]
  exact precedence_following v

theorem next_minor_newer_iff (htables : AsciiTables x) {version : String} {semver : Semver}
    (haccepted : Semver.ofString version = .ok semver) :
    (∃ next semver', nextMinor x version = .ok next ∧ Semver.ofString next = .ok semver' ∧
        compare semver semver' = .lt) ↔
      ∃ v, Derives version v ∧ (v.build = [] ∨ v.preRelease ≠ []) := by
  rcases Semver.exists_version haccepted with ⟨v, hv⟩
  constructor
  · rintro ⟨next, semver', hnext, -, -⟩
    refine ⟨v, hv, ?_⟩
    by_contra hbuild
    push Not at hbuild
    -- build metadata, and no pre-release before it
    have hplus : '+' ∈ version.toList.takeWhile (· ≠ '-') := by
      rw [← hv]
      exact takeWhile_build hbuild.1 hbuild.2
    rw [nextMinor_of_plus htables hplus] at hnext
    cases hnext
  · rintro ⟨w, hw, hbuild⟩
    have hsame : Semver.key w = semver := by
      have hread := Derives.ofString hw
      rw [haccepted] at hread
      exact (Except.ok.inj hread).symm
    rw [← hsame]
    exact nextMinor_newer htables hw hbuild

end NextVersion

/-! ## Versions with and without build metadata -/

/-- A service that knows the ASCII digits. -/
def asciiService : SkillAssignmentService Unit :=
  { summaryService with decimal := fun c => if c.isDigit then some (c.toNat - '0'.toNat) else none }

theorem ascii_tables : AsciiTables asciiService where
  isDigit := fun _ h => h
  plus := by decide
  decimal := fun _ h => if_pos h

theorem next_minor_newer_iff_published : ∃ semver,
    Semver.ofString "1.4.2-rc.1+build" = .ok semver ∧
      ((∃ next semver', nextMinor asciiService "1.4.2-rc.1+build" = .ok next ∧
          Semver.ofString next = .ok semver' ∧ compare semver semver' = .lt) ↔
        ∃ v, Derives "1.4.2-rc.1+build" v ∧ (v.build = [] ∨ v.preRelease ≠ [])) := by
  have haccepted : Semver.ofString "1.4.2-rc.1+build" =
      .ok ⟨1, 4, 2, 0, [.text "rc", .numeric 1]⟩ := by decide +kernel
  exact ⟨_, haccepted, next_minor_newer_iff ascii_tables haccepted⟩

/-- Build metadata that follows the patch number is taken for a part of it. -/
theorem build_metadata_refused :
    AsciiTables asciiService ∧ ∃ semver, Semver.ofString "1.0.0+build" = .ok semver ∧
      ¬ ∃ next semver', nextMinor asciiService "1.0.0+build" = .ok next ∧
        Semver.ofString next = .ok semver' ∧ compare semver semver' = .lt := by
  have haccepted : Semver.ofString "1.0.0+build" = .ok ⟨1, 0, 0, 1, []⟩ := by decide +kernel
  refine ⟨ascii_tables, _, haccepted, ?_⟩
  rintro ⟨next, semver', hnext, -, -⟩
  rw [nextMinor_of_plus ascii_tables (by decide)] at hnext
  cases hnext

end Alos.Skills
