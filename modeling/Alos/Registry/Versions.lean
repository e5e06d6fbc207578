import Mathlib.Data.List.TakeWhile
import Alos.Registry.Detail
import Alos.SemVer

/-! # The versions that a registry reads

`_semver` reads the versions of Semantic Versioning, and tuples of Python
compare as they do.

* `ofString_render` and `exists_version` say which texts are read, and as what;
* `compare_key`: the tuples compare as the versions;
* `semver_laws` puts this together with the lists that are sorted by it.
-/

namespace Alos.Registry

open Py SemVer

namespace Semver

/-! ## Splitting a text -/

theorem partition_of_notMem {c : Char} {text : List Char} (h : c ∉ text) :
    partition c text = (text, none) := by
  have hall : ∀ d ∈ text, decide (d ≠ c) = true := by
    intro d hd
    simpa using fun hdc : d = c => h (hdc ▸ hd)
  have hspan : text.span (· ≠ c) = (text, []) := by
    rw [List.span_eq_takeWhile_dropWhile, List.takeWhile_eq_self_iff.2 hall,
      List.dropWhile_eq_nil_iff.2 hall]
  rw [partition, hspan]

/-- `partition` splits at the first mark. -/
theorem partition_of_mark {c : Char} {before after : List Char} (h : c ∉ before) :
    partition c (before ++ c :: after) = (before, some after) := by
  have hall : ∀ d ∈ before, decide (d ≠ c) = true := by
    intro d hd
    simpa using fun hdc : d = c => h (hdc ▸ hd)
  have hspan : (before ++ c :: after).span (· ≠ c) = (before, c :: after) := by
    rw [List.span_eq_takeWhile_dropWhile, List.takeWhile_append_of_pos hall,
      List.dropWhile_append_of_pos hall]
    simp
  rw [partition, hspan]

/-- What stands behind a mark, with the mark. -/
def behind (c : Char) : Option (List Char) → List Char
  | none => []
  | some after => c :: after

/-- The parts put together are the text. -/
theorem partition_text {c : Char} {text before : List Char} {after : Option (List Char)}
    (h : partition c text = (before, after)) : text = before ++ behind c after := by
  have hspan := List.takeWhile_append_dropWhile (p := fun d => decide (d ≠ c)) (l := text)
  unfold partition at h
  rw [List.span_eq_takeWhile_dropWhile] at h
  cases hrest : text.dropWhile fun d => decide (d ≠ c) with
  | nil =>
      rw [hrest] at h hspan
      cases h
      exact hspan.symm
  | cons d rest =>
      -- the first character that is not before the mark is the mark
      have hd : d = c := by
        have hhead := List.head?_dropWhile_not (fun d => decide (d ≠ c)) text
        rw [hrest] at hhead
        simpa using hhead
      subst hd
      rw [hrest] at h hspan
      cases h
      exact hspan.symm

/-! ## Identifiers -/

/-- Digits are a number of the grammar if they are a single one or begin with
another one than zero. -/
theorem numeric_iff {text : List Char} (h : Digits text) :
    Numeric text ↔ text.length = 1 ∨ text.head? ≠ some '0' := by
  constructor
  · rintro ⟨-, rfl | hhead⟩
    · exact .inl rfl
    · exact .inr hhead
  · rintro (hlength | hhead)
    · obtain ⟨c, rfl⟩ := List.length_eq_one_iff.1 hlength
      by_cases hc : c = '0'
      · exact ⟨h, .inl (by rw [hc])⟩
      · exact ⟨h, .inr (by simpa using hc)⟩
    · exact ⟨h, .inr hhead⟩

/-- A core part or a numeric identifier is read as the number it stands for. -/
theorem numeric?_eq_some {text : List Char} {n : ℕ} :
    numeric? text = some n ↔ Numeric text ∧ value text = n := by
  have hguard : (text ≠ [] ∧ text.all Char.isDigit = true ∧
      (text.length = 1 ∨ text.head? ≠ some '0')) ↔ Numeric text := by
    rw [List.all_eq_true]
    constructor
    · rintro ⟨hne, hdigits, h⟩
      exact (numeric_iff ⟨hne, hdigits⟩).2 h
    · intro h
      exact ⟨h.1.1, h.1.2, (numeric_iff h.1).1 h⟩
  unfold numeric?
  by_cases h : Numeric text
  · rw [if_pos (hguard.2 h), Option.some.injEq]
    exact (and_iff_right h).symm
  · rw [if_neg fun hg => h (hguard.1 hg)]
    simp [h]

/-- Splitting at the points gives the identifiers that were joined by them. -/
theorem identifiers?_eq_some {text : List Char} {pieces : List (List Char)} :
    identifiers? text = some pieces ↔
      dotted pieces = text ∧ pieces ≠ [] ∧
        ∀ piece ∈ pieces, piece ≠ [] ∧ ∀ c ∈ piece, isIdentifierChar c = true := by
  have hchars : ∀ piece : List Char, (piece.all fun c => c.isAlphanum ∨ c = '-') = true ↔
      ∀ c ∈ piece, isIdentifierChar c = true := by
    intro piece
    simp [isIdentifierChar]
  unfold identifiers?
  simp only [hchars]
  constructor
  · intro h
    split at h
    · rename_i hpieces
      cases h
      exact ⟨List.intercalate_splitOn '.', List.splitOn_ne_nil _ _, hpieces⟩
    · cases h
  · rintro ⟨rfl, hne, hpieces⟩
    -- no identifier holds a point
    have hsplit : (dotted pieces).splitOn '.' = pieces := by
      apply List.splitOn_intercalate '.' _ hne
      intro piece hpiece hdot
      exact absurd ((hpieces piece hpiece).2 '.' hdot) (by decide)
    rw [hsplit, if_pos hpieces]

/-- The key of a pre-release identifier. -/
def identifierKey (text : List Char) : Identifier :=
  if text.all Char.isDigit then .numeric (number text) else .text (String.ofList text)

/-- A pre-release identifier is refused exactly when it is a number with a leading zero. -/
theorem identifier_eq_ok {version : String} {text : List Char} {key : Identifier}
    (hne : text ≠ []) (hchars : ∀ c ∈ text, isIdentifierChar c = true) :
    identifier version text = .ok key ↔ PreReleaseIdentifier text ∧ identifierKey text = key := by
  unfold identifier identifierKey
  by_cases hdigits : text.all Char.isDigit = true
  · -- digits are refused when they are several and begin with a zero
    have hnumeric : PreReleaseIdentifier text ↔ ¬ (text.length > 1 ∧ text.head? = some '0') := by
      have hlength : text.length = 1 ∨ text.length > 1 := by
        have hpos := List.length_pos_iff.2 hne
        omega
      have hnot : ¬ Alphanumeric text := by
        intro h
        rw [h.all_isDigit] at hdigits
        cases hdigits
      rw [PreReleaseIdentifier, or_iff_right hnot,
        numeric_iff ⟨hne, List.all_eq_true.1 hdigits⟩]
      constructor
      · rintro (hone | hhead) ⟨hmany, hzero⟩
        · omega
        · exact hhead hzero
      · intro h
        rcases hlength with hone | hmany
        · exact .inl hone
        · exact .inr fun hzero => h ⟨hmany, hzero⟩
    rw [if_pos hdigits, if_pos hdigits, hnumeric]
    by_cases hzero : text.length > 1 ∧ text.head? = some '0'
    · simp [hzero]
    · rw [if_neg hzero, Except.ok.injEq]
      exact (and_iff_right hzero).symm
  · -- any other identifier has a character that is no digit
    have halphanumeric : Alphanumeric text := by
      refine ⟨hchars, ?_⟩
      obtain ⟨c, hc, hdigit⟩ := List.all_eq_false.1 (by simpa using hdigits)
      exact ⟨c, hc, by simpa using hdigit⟩
    rw [if_neg hdigits, if_neg hdigits, Except.ok.injEq]
    exact (and_iff_right (.inl halphanumeric)).symm

/-! ## Versions -/

/-- What is read of a version. -/
def key (v : Version) : Semver where
  major := value v.major.1
  minor := value v.minor.1
  patch := value v.patch.1
  release := if v.preRelease = [] then 1 else 0
  identifiers := v.preRelease.map fun identifier => identifierKey identifier.1

/-- A text of the identifiers, after the mark. -/
theorem notMem_dotted {c : Char} (hpoint : c ≠ '.') {pieces : List (List Char)}
    (h : ∀ piece ∈ pieces, c ∉ piece) : c ∉ dotted pieces := by
  induction pieces with
  | nil => simp [dotted]
  | cons piece pieces ih =>
      have hpiece := h piece List.mem_cons_self
      have htail := ih fun other hother => h other (List.mem_cons_of_mem _ hother)
      cases pieces with
      | nil => simpa [dotted] using hpiece
      | cons other pieces =>
          unfold dotted at htail ⊢
          rw [List.intercalate_cons_cons]
          simp [hpiece, hpoint, htail]

/-- Identifiers as far as the pattern reads them. -/
def Pieces (pieces : List (List Char)) : Prop :=
  ∀ piece ∈ pieces, piece ≠ [] ∧ ∀ c ∈ piece, isIdentifierChar c = true

/-- A mark that is no identifier character does not occur between the points. -/
theorem Pieces.notMem {pieces : List (List Char)} (h : Pieces pieces) {c : Char}
    (hc : isIdentifierChar c = false) (hpoint : c ≠ '.') : c ∉ dotted pieces := by
  apply notMem_dotted hpoint
  intro piece hpiece hmem
  have hchar := (h piece hpiece).2 c hmem
  rw [hc] at hchar
  cases hchar

/-- Nor does the other of the two marks. -/
theorem Pieces.notMem_marked {pieces : List (List Char)} (h : Pieces pieces) {c mark : Char}
    (hc : isIdentifierChar c = false) (hpoint : c ≠ '.') (hmark : c ≠ mark) :
    c ∉ marked mark pieces := by
  cases pieces with
  | nil => exact List.not_mem_nil
  | cons piece pieces =>
      intro hmem
      rcases List.mem_cons.1 hmem with hsame | htext
      · exact hmark hsame
      · exact h.notMem hc hpoint htext

/-- The text of identifiers, if there are any. -/
def dotted? (pieces : List (List Char)) : Option (List Char) :=
  if pieces = [] then none else some (dotted pieces)

/-- The text before a mark and the identifiers behind it are found again. -/
theorem partition_marked {mark : Char} {text : List Char} (h : mark ∉ text)
    (pieces : List (List Char)) :
    partition mark (text ++ marked mark pieces) = (text, dotted? pieces) := by
  unfold dotted?
  cases pieces with
  | nil => simpa [marked] using partition_of_notMem h
  | cons piece pieces => exact partition_of_mark h

/-- What stands behind a mark, written again. -/
theorem behind_dotted? (mark : Char) (pieces : List (List Char)) :
    behind mark (dotted? pieces) = marked mark pieces := by
  cases pieces with
  | nil => rfl
  | cons piece pieces => rfl

/-- The identifiers of a part, if there is one. -/
def pieces? (pieces : List (List Char)) : Option (List (List Char)) :=
  if pieces = [] then none else some pieces

/-- A part that is read is identifiers with points between them. -/
theorem mapM_identifiers?_eq_some {part : Option (List Char)} {read : Option (List (List Char))} :
    part.mapM identifiers? = some read ↔
      ∃ pieces, Pieces pieces ∧ part = dotted? pieces ∧ read = pieces? pieces := by
  -- nothing stands behind the mark, or identifiers do
  cases part with
  | none =>
      constructor
      · intro h
        cases h
        exact ⟨[], by simp [Pieces], rfl, rfl⟩
      · rintro ⟨pieces, -, hpart, rfl⟩
        cases pieces with
        | nil => rfl
        | cons piece pieces => cases hpart
  | some text =>
      simp only [Option.mapM_some, Functor.map, Option.map_eq_some_iff, identifiers?_eq_some]
      constructor
      · rintro ⟨pieces, ⟨rfl, hne, hpieces⟩, rfl⟩
        exact ⟨pieces, hpieces, (if_neg hne).symm, (if_neg hne).symm⟩
      · rintro ⟨pieces, hpieces, hpart, rfl⟩
        unfold dotted? at hpart
        split at hpart
        · cases hpart
        · rename_i hne
          exact ⟨pieces, ⟨(Option.some.inj hpart).symm, hne, hpieces⟩, (if_neg hne).symm⟩

/-- The numbers before the pre-release. -/
theorem core_eq {core a b c : List Char} (h : core.splitOn '.' = [a, b, c]) :
    core = dotted [a, b, c] := by
  rw [← h]
  exact (List.intercalate_splitOn '.').symm

theorem Numeric.notMem {text : List Char} (h : Numeric text) {c : Char}
    (hc : c.isDigit = false) : c ∉ text := by
  intro hmem
  have hdigit := h.1.2 c hmem
  rw [hc] at hdigit
  cases hdigit

/-- The core falls into its three numbers at the points. -/
theorem splitOn_core (a b c : {text : List Char // Numeric text}) :
    (dotted [a.1, b.1, c.1]).splitOn '.' = [a.1, b.1, c.1] := by
  apply List.splitOn_intercalate
  · intro text htext
    simp only [List.mem_cons, List.not_mem_nil, or_false] at htext
    rcases htext with rfl | rfl | rfl
    · exact Numeric.notMem a.2 (by decide)
    · exact Numeric.notMem b.2 (by decide)
    · exact Numeric.notMem c.2 (by decide)
  · exact List.cons_ne_nil _ _

/-- The core holds neither of the marks. -/
theorem notMem_core (a b c : {text : List Char // Numeric text}) {mark : Char}
    (hdigit : mark.isDigit = false) (hpoint : mark ≠ '.') : mark ∉ dotted [a.1, b.1, c.1] := by
  apply notMem_dotted hpoint
  intro text htext
  simp only [List.mem_cons, List.not_mem_nil, or_false] at htext
  rcases htext with rfl | rfl | rfl
  · exact Numeric.notMem a.2 hdigit
  · exact Numeric.notMem b.2 hdigit
  · exact Numeric.notMem c.2 hdigit

/-- The pattern of the source matches exactly the texts of the grammar. -/
theorem groups?_eq_some {version : String} {major minor patch : ℕ}
    {read : Option (List (List Char))} :
    groups? version = some (major, minor, patch, read) ↔
      ∃ a b c : {text : List Char // Numeric text}, ∃ preRelease build : List (List Char),
        version.toList =
            dotted [a.1, b.1, c.1] ++ marked '-' preRelease ++ marked '+' build ∧
          Pieces preRelease ∧ Pieces build ∧
          value a.1 = major ∧ value b.1 = minor ∧ value c.1 = patch ∧
          read = pieces? preRelease := by
  constructor
  · intro h
    -- the build follows the first plus, the pre-release the first hyphen before it
    rcases hbuild : partition '+' version.toList with ⟨main, build⟩
    rcases hpre : partition '-' main with ⟨core, prerelease⟩
    simp only [groups?, hbuild, hpre] at h
    split at h
    · rename_i a b c hcore
      simp only [bind, Option.bind_eq_some_iff] at h
      obtain ⟨_, hbuilds, _, hmajor, _, hminor, _, hpatch, _, hread, hresult⟩ := h
      cases hresult
      obtain ⟨ha, rfl⟩ := numeric?_eq_some.1 hmajor
      obtain ⟨hb, rfl⟩ := numeric?_eq_some.1 hminor
      obtain ⟨hc, rfl⟩ := numeric?_eq_some.1 hpatch
      obtain ⟨builds, hbuildPieces, rfl, -⟩ := mapM_identifiers?_eq_some.1 hbuilds
      obtain ⟨pieces, hpieces, rfl, rfl⟩ := mapM_identifiers?_eq_some.1 hread
      refine ⟨⟨a, ha⟩, ⟨b, hb⟩, ⟨c, hc⟩, pieces, builds, ?_, hpieces, hbuildPieces, rfl, rfl, rfl,
        rfl⟩
      rw [partition_text hbuild, partition_text hpre, core_eq hcore, behind_dotted?,
        behind_dotted?]
    · cases h
  · rintro ⟨a, b, c, preRelease, build, htext, hpre, hbuild, rfl, rfl, rfl, rfl⟩
    -- nothing before the build holds a plus, and nothing before the pre-release a hyphen
    have hplus : '+' ∉ dotted [a.1, b.1, c.1] ++ marked '-' preRelease := by
      intro hmem
      rcases List.mem_append.1 hmem with hcore | hmarked
      · exact notMem_core a b c (by decide) (by decide) hcore
      · exact hpre.notMem_marked (by decide) (by decide) (by decide) hmarked
    have hminus : '-' ∉ dotted [a.1, b.1, c.1] := notMem_core a b c (by decide) (by decide)
    have hread := mapM_identifiers?_eq_some.2 ⟨preRelease, hpre, rfl, rfl⟩
    have hbuilds := mapM_identifiers?_eq_some.2 ⟨build, hbuild, rfl, rfl⟩
    simp only [groups?, htext, partition_marked hplus, partition_marked hminus, splitOn_core,
      hread, hbuilds, numeric?_eq_some.2 ⟨a.2, rfl⟩, numeric?_eq_some.2 ⟨b.2, rfl⟩,
      numeric?_eq_some.2 ⟨c.2, rfl⟩]
    rfl

/-- The texts of identifiers of a kind, with what makes them so. -/
theorem exists_identifiers {P : List Char → Prop} {pieces : List (List Char)}
    (h : ∀ piece ∈ pieces, P piece) :
    ∃ identifiers : List {text : List Char // P text}, identifiers.map Subtype.val = pieces :=
  ⟨pieces.attachWith P h, List.attachWith_map_subtype_val h⟩

theorem pieces_of_preRelease (v : Version) : Pieces (v.preRelease.map Subtype.val) := by
  intro piece hpiece
  obtain ⟨identifier, -, rfl⟩ := List.mem_map.1 hpiece
  rcases identifier.2 with h | h
  · obtain ⟨c, hc, -⟩ := h.2
    exact ⟨List.ne_nil_of_mem hc, h.1⟩
  · refine ⟨h.1.1, fun c hc => ?_⟩
    simp [isIdentifierChar, Char.isAlphanum, h.1.2 c hc]

theorem pieces_of_build (v : Version) : Pieces (v.build.map Subtype.val) := by
  intro piece hpiece
  obtain ⟨identifier, -, rfl⟩ := List.mem_map.1 hpiece
  rcases identifier.2 with h | h
  · obtain ⟨c, hc, -⟩ := h.2
    exact ⟨List.ne_nil_of_mem hc, h.1⟩
  · refine ⟨h.1, fun c hc => ?_⟩
    simp [isIdentifierChar, Char.isAlphanum, h.2 c hc]

theorem Pieces.buildIdentifier {pieces : List (List Char)} (h : Pieces pieces) :
    ∀ piece ∈ pieces, BuildIdentifier piece := by
  intro piece hpiece
  obtain ⟨hne, hchars⟩ := h piece hpiece
  by_cases hdigits : piece.all Char.isDigit = true
  · exact .inr ⟨hne, List.all_eq_true.1 hdigits⟩
  · obtain ⟨c, hc, hdigit⟩ := List.all_eq_false.1 (by simpa using hdigits)
    exact .inl ⟨hchars, c, hc, by simpa using hdigit⟩

/-- The version is read, as its key. -/
theorem ofString_render (v : Version) : ofString (String.ofList v.render) = .ok (key v) := by
  have hgroups : groups? (String.ofList v.render) =
      some (value v.major.1, value v.minor.1, value v.patch.1,
        pieces? (v.preRelease.map Subtype.val)) := by
    apply groups?_eq_some.2
    refine ⟨v.major, v.minor, v.patch, _, v.build.map Subtype.val, ?_, pieces_of_preRelease v,
      pieces_of_build v, rfl, rfl, rfl, rfl⟩
    exact String.toList_ofList
  -- the loop reads every identifier of the pre-release
  have hidentifiers : ∀ version, (v.preRelease.map Subtype.val).mapM (identifier version) =
      .ok (v.preRelease.map fun identifier => identifierKey identifier.1) := by
    intro version
    rw [Except.mapM_eq_ok, List.forall₂_map_left_iff, List.forall₂_map_right_iff,
      List.forall₂_same]
    intro text htext
    obtain ⟨hne, hchars⟩ := pieces_of_preRelease v text.1 (List.mem_map_of_mem htext)
    exact (identifier_eq_ok hne hchars).2 ⟨text.2, rfl⟩
  unfold ofString
  rw [hgroups]
  unfold key pieces?
  by_cases hpre : v.preRelease = []
  · simp [hpre]
  · rw [if_neg fun h => hpre (List.map_eq_nil_iff.1 h), if_neg hpre]
    simp only [hidentifiers]
    rfl

/-- What is read is a version. -/
theorem exists_version {version : String} {semver : Semver} (h : ofString version = .ok semver) :
    ∃ v : Version, v.render = version.toList := by
  unfold ofString at h
  cases hgroups : groups? version with
  | none =>
      rw [hgroups] at h
      cases h
  | some groups =>
      rcases groups with ⟨major, minor, patch, read⟩
      obtain ⟨a, b, c, preRelease, build, htext, hpre, hbuild, -, -, -, rfl⟩ :=
        groups?_eq_some.1 hgroups
      rw [hgroups] at h
      -- the loop has refused no identifier
      have hidentifiers : ∀ piece ∈ preRelease, PreReleaseIdentifier piece := by
        intro piece hpiece
        have hne : preRelease ≠ [] := List.ne_nil_of_mem hpiece
        simp only [pieces?, if_neg hne, Except.bind_eq_ok] at h
        obtain ⟨keys, hkeys, -⟩ := h
        obtain ⟨k, hk⟩ := Except.ok_of_mapM hkeys hpiece
        exact ((identifier_eq_ok (hpre piece hpiece).1 (hpre piece hpiece).2).1 hk).1
      obtain ⟨identifiers, rfl⟩ := exists_identifiers hidentifiers
      obtain ⟨builds, rfl⟩ := exists_identifiers hbuild.buildIdentifier
      exact ⟨⟨a, b, c, identifiers, builds⟩, htext.symm⟩

/-- The only refusal of an identifier is a conflict. -/
theorem identifier_refuses {version : String} {text : List Char} {e : ReadError}
    (h : identifier version text = .error e) : ∃ message, e = .conflict message := by
  unfold identifier at h
  split at h
  · split at h
    · cases h
      exact ⟨_, rfl⟩
    · cases h
  · cases h

/-- What is refused is refused as a conflict. -/
theorem ofString_refuses {version : String} {e : ReadError} (h : ofString version = .error e) :
    ∃ message, e = .conflict message := by
  unfold ofString at h
  split at h
  · cases h
    exact ⟨_, rfl⟩
  · cases h
  · rcases Except.bind_eq_error.1 h with hloop | ⟨_, -, h⟩
    · obtain ⟨text, -, hidentifier⟩ := Except.error_of_mapM hloop
      exact identifier_refuses hidentifier
    · cases h

/-! ## Precedence -/

theorem compare_identifierKey (a b : List Char) :
    compare (identifierKey a) (identifierKey b) = compareIdentifiers a b := by
  rw [Identifier.compare_eq]
  unfold identifierKey compareIdentifiers
  cases a.all Char.isDigit <;> cases b.all Char.isDigit <;> rfl

/-- The keys of the source order identifiers field by field as SemVer does. -/
theorem compare_identifierKeys (as bs : List (List Char)) :
    compare (as.map identifierKey) (bs.map identifierKey) = compareFields as bs := by
  induction as generalizing bs with
  | nil => cases bs <;> rfl
  | cons a as ih =>
      cases bs with
      | nil => rfl
      | cons b bs =>
          rw [compareFields, ← ih bs, ← compare_identifierKey a b]
          exact List.compare_cons_cons

/-- The keys compare as the versions. -/
theorem compare_key (v w : Version) : compare (key v) (key w) = SemVer.precedence v w := by
  -- a release comes after its pre-releases, as `release` tells
  have hpre : (compare (key v).release (key w).release).then
      (compare (key v).identifiers (key w).identifiers) =
        comparePreReleases (v.preRelease.map Subtype.val) (w.preRelease.map Subtype.val) := by
    have hkeys : ∀ x : Version, (key x).identifiers =
        (x.preRelease.map Subtype.val).map identifierKey := by
      intro x
      rw [List.map_map]
      rfl
    rw [hkeys, hkeys, compare_identifierKeys]
    unfold key
    cases v.preRelease <;> cases w.preRelease <;> rfl
  rw [Semver.compare_eq]
  unfold SemVer.precedence
  rw [← hpre]
  rfl

/-- Two versions have one key exactly when they differ in build metadata at most. -/
theorem key_eq_iff (v w : Version) : key v = key w ↔ SameRelease v w := by
  constructor
  · intro h
    rw [← precedence_eq_iff, ← compare_key, h]
    exact Std.ReflOrd.compare_self
  · rintro ⟨hmajor, hminor, hpatch, hpre⟩
    unfold key
    rw [hmajor, hminor, hpatch, hpre]

/-- Any two versions are comparable. -/
theorem precedence_total (v w : Version) :
    (SemVer.precedence v w).isLE = true ∨ (SemVer.precedence w v).isLE = true := by
  have hswap : compare (key w) (key v) = (compare (key v) (key w)).swap := Std.OrientedOrd.eq_swap
  rw [← compare_key, ← compare_key, hswap]
  cases compare (key v) (key w) <;> simp

/-- Precedence is passed on. -/
theorem precedence_trans {u v w : Version} (huv : (SemVer.precedence u v).isLE = true)
    (hvw : (SemVer.precedence v w).isLE = true) : (SemVer.precedence u w).isLE = true := by
  rw [← compare_key] at huv hvw ⊢
  exact Std.TransOrd.isLE_trans huv hvw

end Semver

/-! ## The lists that are sorted by versions -/

/-- The grammar derives the text as this version. -/
def Derives (version : String) (v : Version) : Prop := v.render = version.toList

/-- A text of the grammar is accepted, with the key of its version. -/
theorem Derives.ofString {version : String} {v : Version} (h : Derives version v) :
    Semver.ofString version = .ok (Semver.key v) := by
  have htext : String.ofList v.render = version := by
    rw [h]
    exact String.ofList_toList
  rw [← htext]
  exact Semver.ofString_render v

/-- The key that a version sorts by is that of the version it spells. -/
theorem Derives.precedence {entry : RegistryEntry} {v : Version} (h : Derives entry.version v) :
    precedence entry = Semver.key v := by
  rw [Registry.precedence, h.ofString]

/-- Entries of one subject that a sort has put in their order. -/
theorem NotAfter.derives {a b : RegistryEntry} (h : NotAfter a b)
    (hsubject : a.subjectId = b.subjectId) {v w : Version} (hv : Derives a.version v)
    (hw : Derives b.version w) : (SemVer.precedence v w).isLE = true := by
  have horder := h.precedence hsubject
  rwa [hv.precedence, hw.precedence, Semver.compare_key] at horder

/-- A registered version of a subject. -/
structure Registered (entries : Table RegistryEntry.key)
    (tenantId organizationId workspaceId subjectId : String) (entry : RegistryEntry) : Prop where
  mem : entry ∈ entries.values
  tenantId : entry.tenantId = tenantId
  organizationId : entry.organizationId = organizationId
  workspaceId : entry.workspaceId = workspaceId
  subjectId : entry.subjectId = subjectId

/-- The entries that `list_entries` selects. -/
def matching (entries : Table RegistryEntry.key) (tenantId organizationId workspaceId : String)
    (subjectId : Option String) : List RegistryEntry :=
  entries.values.filter fun entry =>
    entry.tenantId = tenantId ∧ entry.organizationId = organizationId ∧
      entry.workspaceId = workspaceId ∧ (subjectId = none ∨ subjectId = some entry.subjectId)

/-- What `_semver` and the lists that are sorted by it promise. -/
structure SemverLaws (entries : Table RegistryEntry.key) : Prop where
  accepts : ∀ version, (∃ semver, Semver.ofString version = .ok semver) ↔ ∃ v, Derives version v
  refuses : ∀ version e, Semver.ofString version = .error e → ∃ message, e = .conflict message
  compares : ∀ version version' semver semver' v w,
    Semver.ofString version = .ok semver → Semver.ofString version' = .ok semver' →
      Derives version v → Derives version' w → compare semver semver' = SemVer.precedence v w
  same : ∀ version version' semver semver' v w,
    Semver.ofString version = .ok semver → Semver.ofString version' = .ok semver' →
      Derives version v → Derives version' w → (semver = semver' ↔ SameRelease v w)
  total : ∀ v w, (SemVer.precedence v w).isLE = true ∨ (SemVer.precedence w v).isLE = true
  trans : ∀ u v w, (SemVer.precedence u v).isLE = true → (SemVer.precedence v w).isLE = true →
    (SemVer.precedence u w).isLE = true
  equal : ∀ v w, SemVer.precedence v w = .eq ↔ SameRelease v w
  lists : ∀ tenantId organizationId workspaceId subjectId,
    (∃ listed, listEntries entries tenantId organizationId workspaceId subjectId = .ok listed) ↔
      ∀ entry ∈ matching entries tenantId organizationId workspaceId subjectId,
        ∃ v, Derives entry.version v
  ascending : ∀ tenantId organizationId workspaceId subjectId listed,
    listEntries entries tenantId organizationId workspaceId subjectId = .ok listed →
      listed.Perm (matching entries tenantId organizationId workspaceId subjectId) ∧
      listed.Pairwise fun a b => a.subjectId = b.subjectId →
        ∃ v w, Derives a.version v ∧ Derives b.version w ∧ (SemVer.precedence v w).isLE = true
  finds : ∀ tenantId organizationId workspaceId subjectId,
    (∃ entry, latestEntry entries tenantId organizationId workspaceId subjectId = .ok entry) ↔
      (∃ entry, Registered entries tenantId organizationId workspaceId subjectId entry) ∧
        ∀ entry, Registered entries tenantId organizationId workspaceId subjectId entry →
          ∃ v, Derives entry.version v
  latest : ∀ tenantId organizationId workspaceId subjectId entry,
    latestEntry entries tenantId organizationId workspaceId subjectId = .ok entry →
      Registered entries tenantId organizationId workspaceId subjectId entry ∧
        ∀ other, Registered entries tenantId organizationId workspaceId subjectId other →
          ∃ v w, Derives other.version v ∧ Derives entry.version w ∧
            (SemVer.precedence v w).isLE = true

/-- A sort that returns has read every version. -/
theorem derives_of_sorted {xs ys : List RegistryEntry} (h : sorted xs = .ok ys) :
    ∀ entry ∈ xs, ∃ v, Derives entry.version v := by
  intro entry hentry
  obtain ⟨semver, hsemver⟩ := versioned_of_sorted h entry hentry
  exact Semver.exists_version hsemver

/-- A sort returns when the grammar derives every version. -/
theorem exists_sorted_iff {xs : List RegistryEntry} :
    (∃ ys, sorted xs = .ok ys) ↔ ∀ entry ∈ xs, ∃ v, Derives entry.version v := by
  constructor
  · rintro ⟨ys, h⟩
    exact derives_of_sorted h
  · intro h
    refine ⟨_, sorted_ok fun entry hentry => ?_⟩
    obtain ⟨v, hv⟩ := h entry hentry
    exact ⟨_, hv.ofString⟩

/-- Where every version can be read, `sorted` is the insertion sort by key. -/
theorem sorted_eq {xs ys : List RegistryEntry} (h : sorted xs = .ok ys) :
    ys = xs.insertionSort NotAfter := by
  rw [sorted_ok (versioned_of_sorted h)] at h
  exact (Except.ok.inj h).symm

/-- Sorting loses no entry and adds none. -/
theorem perm_sorted {xs ys : List RegistryEntry} (h : sorted xs = .ok ys) : ys.Perm xs := by
  rw [sorted_eq h]
  exact List.perm_insertionSort NotAfter xs

/-- Of two versions of a subject the lower one comes first. -/
theorem pairwise_sorted {xs ys : List RegistryEntry} (h : sorted xs = .ok ys) :
    ys.Pairwise fun a b => a.subjectId = b.subjectId →
      ∃ v w, Derives a.version v ∧ Derives b.version w ∧ (SemVer.precedence v w).isLE = true := by
  have hderives : ∀ entry ∈ ys, ∃ v, Derives entry.version v :=
    fun entry hentry => derives_of_sorted h entry (mem_of_sorted h hentry)
  have hsorted : ys.Pairwise NotAfter := by
    rw [sorted_eq h]
    exact List.pairwise_insertionSort NotAfter xs
  apply hsorted.imp_of_mem
  intro a b ha hb hab hsubject
  obtain ⟨v, hv⟩ := hderives a ha
  obtain ⟨w, hw⟩ := hderives b hb
  exact ⟨v, w, hv, hw, hab.derives hsubject hv hw⟩

/-- What `latest_entry` chooses from is what was registered for the subject. -/
theorem mem_matching {entries : Table RegistryEntry.key}
    {tenantId organizationId workspaceId subjectId : String} {entry : RegistryEntry} :
    entry ∈ matching entries tenantId organizationId workspaceId (some subjectId) ↔
      Registered entries tenantId organizationId workspaceId subjectId entry := by
  rw [matching, List.mem_filter, decide_eq_true_eq]
  constructor
  · rintro ⟨hmem, htenant, horganization, hworkspace, hsubject⟩
    have hsame : subjectId = entry.subjectId := by simpa using hsubject
    exact ⟨hmem, htenant, horganization, hworkspace, hsame.symm⟩
  · intro h
    exact ⟨h.mem, h.tenantId, h.organizationId, h.workspaceId,
      .inr (congrArg some h.subjectId.symm)⟩

/-- There is a latest entry if there is an entry, and if every version is read. -/
theorem exists_latestEntry {entries : Table RegistryEntry.key}
    {tenantId organizationId workspaceId subjectId : String} {entry : RegistryEntry}
    (hentry : Registered entries tenantId organizationId workspaceId subjectId entry)
    (hderives : ∀ entry, Registered entries tenantId organizationId workspaceId subjectId entry →
      ∃ v, Derives entry.version v) :
    ∃ latest, latestEntry entries tenantId organizationId workspaceId subjectId = .ok latest := by
  obtain ⟨listed, hlisted⟩ : ∃ listed,
      listEntries entries tenantId organizationId workspaceId (some subjectId) = .ok listed :=
    exists_sorted_iff.2 fun other hother => hderives other (mem_matching.1 hother)
  have hmem : entry ∈ listed := (perm_sorted hlisted).mem_iff.2 (mem_matching.2 hentry)
  have hlast := List.getLast?_eq_some_getLast (List.ne_nil_of_mem hmem)
  refine ⟨listed.getLast (List.ne_nil_of_mem hmem), Except.bind_eq_ok.2 ⟨listed, hlisted, ?_⟩⟩
  rw [hlast]
  rfl

/-- The latest entry has a highest version, and every version was read on the way. -/
theorem derives_of_latestEntry {entries : Table RegistryEntry.key}
    {tenantId organizationId workspaceId subjectId : String} {entry : RegistryEntry}
    (h : latestEntry entries tenantId organizationId workspaceId subjectId = .ok entry) :
    ∀ other, Registered entries tenantId organizationId workspaceId subjectId other →
      ∃ v, Derives other.version v := by
  obtain ⟨listed, hlisted, -⟩ := Except.bind_eq_ok.1 h
  intro other hother
  exact derives_of_sorted hlisted other (mem_matching.2 hother)

/-- The latest entry is the last one of the sorted list. -/
theorem latestEntry_highest {entries : Table RegistryEntry.key}
    {tenantId organizationId workspaceId subjectId : String} {entry : RegistryEntry}
    (h : latestEntry entries tenantId organizationId workspaceId subjectId = .ok entry) :
    Registered entries tenantId organizationId workspaceId subjectId entry ∧
      ∀ other, Registered entries tenantId organizationId workspaceId subjectId other →
        ∃ v w, Derives other.version v ∧ Derives entry.version w ∧
          (SemVer.precedence v w).isLE = true := by
  let principal : Principal :=
    { actorId := "", tenantId := tenantId, organizationId := organizationId
      workspaceId := workspaceId }
  have hlatest : Latest entries principal subjectId entry := latestEntry_ok h
  have hentry : Registered entries tenantId organizationId workspaceId subjectId entry :=
    ⟨hlatest.registered, hlatest.place.1, hlatest.place.2.1, hlatest.place.2.2, hlatest.subject⟩
  have hderives := derives_of_latestEntry h
  refine ⟨hentry, ?_⟩
  intro other hother
  obtain ⟨v, hv⟩ := hderives other hother
  obtain ⟨w, hw⟩ := hderives entry hentry
  -- the list is sorted by what the grammar derives
  have hhighest := hlatest.highest other hother.mem
    ⟨hother.tenantId, hother.organizationId, hother.workspaceId⟩ hother.subjectId
  rw [hv.precedence, hw.precedence, Semver.compare_key] at hhighest
  exact ⟨v, w, hv, hw, hhighest⟩

/-- There is a latest entry exactly when the subject has versions and all can be read. -/
theorem exists_latestEntry_iff {entries : Table RegistryEntry.key}
    {tenantId organizationId workspaceId subjectId : String} :
    (∃ entry, latestEntry entries tenantId organizationId workspaceId subjectId = .ok entry) ↔
      (∃ entry, Registered entries tenantId organizationId workspaceId subjectId entry) ∧
        ∀ entry, Registered entries tenantId organizationId workspaceId subjectId entry →
          ∃ v, Derives entry.version v := by
  constructor
  · rintro ⟨entry, h⟩
    exact ⟨⟨entry, (latestEntry_highest h).1⟩, derives_of_latestEntry h⟩
  · rintro ⟨⟨entry, hentry⟩, hderives⟩
    exact exists_latestEntry hentry hderives

/-- The laws hold of any cache, whatever versions were registered in it. -/
theorem semver_laws (entries : Table RegistryEntry.key) : SemverLaws entries where
  accepts := by
    intro version
    constructor
    · rintro ⟨semver, h⟩
      exact Semver.exists_version h
    · rintro ⟨v, h⟩
      exact ⟨_, h.ofString⟩
  refuses := fun _ _ h => Semver.ofString_refuses h
  compares := by
    intro version version' semver semver' v w h h' hv hw
    rw [hv.ofString] at h
    rw [hw.ofString] at h'
    cases h
    cases h'
    exact Semver.compare_key v w
  same := by
    intro version version' semver semver' v w h h' hv hw
    rw [hv.ofString] at h
    rw [hw.ofString] at h'
    cases h
    cases h'
    exact Semver.key_eq_iff v w
  total := Semver.precedence_total
  trans := fun _ _ _ => Semver.precedence_trans
  equal := precedence_eq_iff
  lists := fun _ _ _ _ => exists_sorted_iff
  ascending := fun _ _ _ _ _ h => ⟨perm_sorted h, pairwise_sorted h⟩
  finds := fun _ _ _ _ => exists_latestEntry_iff
  latest := fun _ _ _ _ _ h => latestEntry_highest h

end Alos.Registry
