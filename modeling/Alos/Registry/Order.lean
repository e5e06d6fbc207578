import Alos.Coop.Guards
import Alos.Registry.Reads
import Alos.Sorted

/-! # The order of versions

Semantic versions are totally preordered, and so are entries by subject and
version. `sorted_ok`: entries whose versions are all valid are sorted stably.
-/

namespace Alos.Registry

open Py Std

/-- Numbers come before texts, and each kind is ordered among itself. -/
theorem Identifier.compare_eq (a b : Identifier) :
    compare a b = match a, b with
      | .numeric n, .numeric m => compare n m
      | .numeric _, .text _ => .lt
      | .text _, .numeric _ => .gt
      | .text s, .text t => compare s t := by
  cases a <;> cases b <;> change instOrdIdentifier.ord _ _ = _ <;>
    simp [instOrdIdentifier.ord, Ordering.then_eq]

instance : TransOrd Identifier where
  eq_swap := by
    intro a b
    rw [Identifier.compare_eq, Identifier.compare_eq]
    cases a <;> cases b <;> dsimp only <;> first | exact OrientedOrd.eq_swap | rfl
  isLE_trans := by
    intro a b c hab hbc
    rw [Identifier.compare_eq] at hab hbc ⊢
    cases a <;> cases b <;> cases c <;> dsimp only at * <;>
      first | exact TransOrd.isLE_trans hab hbc | contradiction | rfl

/-- Precedence compares the parts one after the other, and leaves the build metadata out. -/
theorem Semver.compare_eq (a b : Semver) :
    compare a b = compareLex (compareOn major) (compareLex (compareOn minor)
      (compareLex (compareOn patch) (compareLex (compareOn release) (compareOn identifiers))))
        a b := by
  rcases a with ⟨_, _, _, _, _⟩
  rcases b with ⟨_, _, _, _, _⟩
  simp only [compareLex, compareOn]
  change instOrdSemver.ord _ _ = _
  simp only [instOrdSemver.ord, Ordering.then_eq]

instance : TransOrd Semver := by
  have hcompare : (compare : Semver → Semver → Ordering) =
      compareLex (compareOn Semver.major) (compareLex (compareOn Semver.minor)
        (compareLex (compareOn Semver.patch) (compareLex (compareOn Semver.release)
          (compareOn Semver.identifiers)))) := by
    funext a b
    exact Semver.compare_eq a b
  unfold TransOrd
  rw [hcompare]
  infer_instance

/-! ## Entries -/

/-- The version of the entry is a semantic version. -/
def Versioned (entry : RegistryEntry) : Prop := ∃ semver, Semver.ofString entry.version = .ok semver

instance (entry : RegistryEntry) : Decidable (Versioned entry) :=
  match h : Semver.ofString entry.version with
  | .ok semver => .isTrue ⟨semver, h⟩
  | .error e => .isFalse fun ⟨semver, hok⟩ => by
      rw [h] at hok
      cases hok

/-- The semantic version of an entry that has one. -/
def precedence (entry : RegistryEntry) : Semver :=
  match Semver.ofString entry.version with
  | .ok semver => semver
  | .error _ => ⟨0, 0, 0, 0, []⟩

/-- The order of entries, by subject and by version. -/
def comparison : RegistryEntry → RegistryEntry → Ordering :=
  compareLex (compareOn RegistryEntry.subjectId) (compareOn precedence)

instance : TransCmp comparison := inferInstanceAs (TransCmp (compareLex _ _))

/-- `a` does not come after `b`. -/
abbrev NotAfter (a b : RegistryEntry) : Prop := (comparison a b).isLE = true

instance : IsTrans RegistryEntry NotAfter where
  trans _ _ _ hab hbc := TransCmp.isLE_trans hab hbc

instance : Std.Total NotAfter where
  total a b := by
    have hswap : comparison b a = (comparison a b).swap := OrientedCmp.eq_swap
    unfold NotAfter
    rw [hswap]
    cases comparison a b <;> simp

/-- The precedence of an entry with a version is that of the version. -/
theorem precedence_of_versioned {entry : RegistryEntry} (h : Versioned entry) :
    Semver.ofString entry.version = .ok (precedence entry) := by
  obtain ⟨semver, hsemver⟩ := h
  rw [precedence, hsemver]

/-- What comes after entries of one subject has a version that is not lower. -/
theorem NotAfter.precedence {a b : RegistryEntry} (h : NotAfter a b)
    (hsubject : a.subjectId = b.subjectId) :
    (compare (precedence a) (precedence b)).isLE = true := by
  have hsame : compare a.subjectId b.subjectId = .eq := by
    rw [hsubject]
    exact ReflOrd.compare_self
  simpa [NotAfter, comparison, compareLex, compareOn, hsame] using h

/-- A sort that returns has returned entries of the list. -/
theorem mem_of_sorted {entries sortedEntries : List RegistryEntry}
    (h : sorted entries = .ok sortedEntries) {entry : RegistryEntry}
    (hentry : entry ∈ sortedEntries) : entry ∈ entries := by
  simp only [sorted, Except.bind_eq_ok, Except.pure_eq_ok] at h
  obtain ⟨keyed, hkeyed, rfl⟩ := h
  obtain ⟨pair, hpair, rfl⟩ := List.mem_map.1 hentry
  rw [List.mem_insertionSort] at hpair
  obtain ⟨entry, hmem, hread⟩ := Except.mem_of_mapM hkeyed hpair
  simp only [Except.bind_eq_ok, Except.pure_eq_ok] at hread
  obtain ⟨semver, -, rfl⟩ := hread
  exact hmem

/-- When every entry has a version the sorting succeeds, and is a stable sort by precedence. -/
theorem sorted_ok {entries : List RegistryEntry} (h : ∀ entry ∈ entries, Versioned entry) :
    sorted entries = .ok (entries.insertionSort NotAfter) := by
  have hkeyed : (entries.mapM fun entry => do return (entry, ← Semver.ofString entry.version) :
      Except ReadError (List (RegistryEntry × Semver))) =
        .ok (entries.map fun entry => (entry, precedence entry)) := by
    rw [Except.mapM_eq_ok, List.forall₂_map_right_iff, List.forall₂_same]
    intro entry hentry
    simp [precedence_of_versioned (h entry hentry), bind, Except.bind, pure, Except.pure]
  unfold sorted
  rw [hkeyed]
  simp only [bind, Except.bind, pure, Except.pure]
  rw [← List.map_insertionSort (r := NotAfter), List.map_map]
  · simp [Function.comp_def]
  · intro a ha b hb
    rfl

end Alos.Registry
