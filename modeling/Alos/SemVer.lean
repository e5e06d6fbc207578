import Mathlib.Data.List.Induction
import Mathlib.Data.String.Basic

/-! # Semantic versions

The grammar and the precedence of Semantic Versioning 2.0.0.

* `Version` is what the grammar derives, with the texts of its parts; `render`
  is the text that it derives;
* `precedence` compares two versions;
* `precedence_eq_iff`: two versions have the same precedence if and only if they
  differ at most in their build metadata.
-/

namespace SemVer

/-! ## The grammar -/

/-- A letter, a digit or a hyphen. -/
def isIdentifierChar (c : Char) : Bool := c.isAlphanum || c == '-'

/-- `<digits>`. -/
def Digits (text : List Char) : Prop := text ≠ [] ∧ ∀ c ∈ text, c.isDigit = true

/-- `<numeric identifier>`: digits without a leading zero. -/
def Numeric (text : List Char) : Prop := Digits text ∧ (text = ['0'] ∨ text.head? ≠ some '0')

/-- `<alphanumeric identifier>`: one of its characters is no digit. -/
def Alphanumeric (text : List Char) : Prop :=
  (∀ c ∈ text, isIdentifierChar c = true) ∧ ∃ c ∈ text, c.isDigit = false

/-- `<pre-release identifier>`. -/
def PreReleaseIdentifier (text : List Char) : Prop := Alphanumeric text ∨ Numeric text

/-- `<build identifier>`. -/
def BuildIdentifier (text : List Char) : Prop := Alphanumeric text ∨ Digits text

/-- A version. There is no pre-release and no build metadata where the list of
their identifiers is empty. -/
structure Version where
  major : {text : List Char // Numeric text}
  minor : {text : List Char // Numeric text}
  patch : {text : List Char // Numeric text}
  preRelease : List {text : List Char // PreReleaseIdentifier text}
  build : List {text : List Char // BuildIdentifier text}

/-- Texts with points between them. -/
def dotted (texts : List (List Char)) : List Char := ['.'].intercalate texts

/-- A part of a version that may be missing, after its mark. -/
def marked (mark : Char) : List (List Char) → List Char
  | [] => []
  | text :: texts => mark :: dotted (text :: texts)

/-- `<version core>`. -/
def Version.core (v : Version) : List Char := dotted [v.major.1, v.minor.1, v.patch.1]

/-- `<valid semver>`. -/
def Version.render (v : Version) : List Char :=
  v.core ++ marked '-' (v.preRelease.map Subtype.val) ++ marked '+' (v.build.map Subtype.val)

/-! ## Precedence -/

/-- The number that digits stand for. -/
def value (digits : List Char) : ℕ :=
  digits.foldl (fun n c => 10 * n + (c.toNat - '0'.toNat)) 0

/-- Identifiers of digits only are compared as numbers, others as texts; the
former are lower. -/
def compareIdentifiers (a b : List Char) : Ordering :=
  match a.all Char.isDigit, b.all Char.isDigit with
  | true, true => compare (value a) (value b)
  | true, false => .lt
  | false, true => .gt
  | false, false => compare (String.ofList a) (String.ofList b)

/-- The first difference decides; where there is none, more fields are higher. -/
def compareFields : List (List Char) → List (List Char) → Ordering
  | [], [] => .eq
  | [], _ :: _ => .lt
  | _ :: _, [] => .gt
  | a :: as, b :: bs => (compareIdentifiers a b).then (compareFields as bs)

/-- A version without a pre-release is higher than one with it. -/
def comparePreReleases : List (List Char) → List (List Char) → Ordering
  | [], [] => .eq
  | [], _ :: _ => .gt
  | _ :: _, [] => .lt
  | a :: as, b :: bs => compareFields (a :: as) (b :: bs)

def precedence (v w : Version) : Ordering :=
  (compare (value v.major.1) (value w.major.1)).then <|
    (compare (value v.minor.1) (value w.minor.1)).then <|
      (compare (value v.patch.1) (value w.patch.1)).then <|
        comparePreReleases (v.preRelease.map Subtype.val) (w.preRelease.map Subtype.val)

/-- The versions differ at most in their build metadata. -/
structure SameRelease (v w : Version) : Prop where
  major : v.major = w.major
  minor : v.minor = w.minor
  patch : v.patch = w.patch
  preRelease : v.preRelease = w.preRelease

/-! ## Numbers without leading zeros -/

theorem value_snoc (text : List Char) (c : Char) :
    value (text ++ [c]) = 10 * value text + (c.toNat - '0'.toNat) := by
  unfold value
  rw [List.foldl_append]
  rfl

theorem digit_bounds {c : Char} (h : c.isDigit = true) : 48 ≤ c.toNat ∧ c.toNat ≤ 57 := by
  simp only [Char.isDigit, Bool.and_eq_true, decide_eq_true_eq, ge_iff_le,
    UInt32.le_iff_toNat_le] at h
  exact h

/-- A number that does not begin with a zero is not zero. -/
theorem value_pos {text : List Char} (h : Digits text) (hhead : text.head? ≠ some '0') :
    0 < value text := by
  obtain ⟨hne, hdigits⟩ := h
  -- on the digits from the end; the first of them is not zero
  induction text using List.reverseRecOn with
  | nil => exact absurd rfl hne
  | append_singleton text c ih =>
      rw [value_snoc]
      have hc := digit_bounds (hdigits c (by simp))
      by_cases htext : text = []
      · subst htext
        have hzero : c ≠ '0' := by simpa using hhead
        have hnat : c.toNat ≠ 48 := fun hnat => hzero (Char.toNat_inj.1 hnat)
        have hdigit : 0 < c.toNat - '0'.toNat := by
          change 0 < c.toNat - 48
          omega
        omega
      · have hhead' : text.head? ≠ some '0' := by
          rwa [List.head?_append_of_ne_nil _ htext] at hhead
        have hpos := ih hhead' htext fun d hd => hdigits d (List.mem_append_left _ hd)
        omega

/-- The last digit and the number before it are told apart by the value. -/
theorem snoc_value_inj {t u : List Char} {c d : Char} (hc : c.isDigit = true)
    (hd : d.isDigit = true) (h : value (t ++ [c]) = value (u ++ [d])) :
    value t = value u ∧ c = d := by
  rw [value_snoc, value_snoc] at h
  have hc := digit_bounds hc
  have hd := digit_bounds hd
  change 10 * value t + (c.toNat - 48) = 10 * value u + (d.toNat - 48) at h
  have hlast : c.toNat = d.toNat := by omega
  exact ⟨by omega, Char.toNat_inj.1 hlast⟩

/-- Digits that do not begin with a zero, or none. -/
def Leading (text : List Char) : Prop :=
  (∀ c ∈ text, c.isDigit = true) ∧ text.head? ≠ some '0'

theorem Leading.init {text : List Char} {c : Char} (h : Leading (text ++ [c])) : Leading text := by
  refine ⟨fun d hd => h.1 d (List.mem_append_left _ hd), ?_⟩
  intro hhead
  apply h.2
  have hne : text ≠ [] := by
    rintro rfl
    cases hhead
  rw [List.head?_append_of_ne_nil _ hne, hhead]

theorem Leading.value_eq_zero {text : List Char} (h : Leading text) :
    value text = 0 ↔ text = [] := by
  constructor
  · intro hzero
    by_contra hne
    have hpos := value_pos ⟨hne, h.1⟩ h.2
    omega
  · rintro rfl
    rfl

theorem Leading.value_inj {t u : List Char} (ht : Leading t) (hu : Leading u)
    (h : value t = value u) : t = u := by
  induction t using List.reverseRecOn generalizing u with
  | nil => exact (hu.value_eq_zero.1 h.symm).symm
  | append_singleton t c ih =>
      induction u using List.reverseRecOn with
      | nil => exact ht.value_eq_zero.1 h
      | append_singleton u d _ =>
          obtain ⟨hinit, hlast⟩ := snoc_value_inj (ht.1 c (by simp)) (hu.1 d (by simp)) h
          rw [ih ht.init hu.init hinit, hlast]

theorem Numeric.value_inj {t u : List Char} (ht : Numeric t) (hu : Numeric u)
    (h : value t = value u) : t = u := by
  rcases ht with ⟨htdigits, rfl | ht⟩
  · rcases hu with ⟨hudigits, rfl | hu⟩
    · rfl
    · have hpos := value_pos hudigits hu
      rw [← h] at hpos
      exact absurd hpos (by decide)
  · rcases hu with ⟨hudigits, rfl | hu⟩
    · have hpos := value_pos htdigits ht
      rw [h] at hpos
      exact absurd hpos (by decide)
    · exact Leading.value_inj ⟨htdigits.2, ht⟩ ⟨hudigits.2, hu⟩ h

/-! ## Numbers as texts -/

theorem head?_toDigits {n : ℕ} (h : 0 < n) : (Nat.toDigits 10 n).head? ≠ some '0' := by
  induction n using Nat.strong_induction_on with
  | _ n ih =>
      by_cases hdigit : n < 10
      · rw [Nat.toDigits_of_lt_base hdigit, List.head?_cons, Ne, Option.some.injEq,
          Nat.digitChar_eq_zero]
        omega
      · rw [Nat.toDigits_of_base_le (by decide) (by omega),
          List.head?_append_of_ne_nil _ Nat.toDigits_ne_nil]
        exact ih (n / 10) (by omega) (by omega)

/-- The digits of a number are a numeric identifier. -/
theorem numeric_toDigits (n : ℕ) : Numeric (Nat.toDigits 10 n) := by
  refine ⟨⟨Nat.toDigits_ne_nil, fun c hc =>
    Nat.isDigit_of_mem_toDigits (by decide) (by decide) hc⟩, ?_⟩
  rcases Nat.eq_zero_or_pos n with rfl | hpos
  · exact .inl (Nat.toDigits_zero 10)
  · exact .inr (head?_toDigits hpos)

theorem value_toDigits (n : ℕ) : value (Nat.toDigits 10 n) = n := Nat.ofDigitChars_ten_toDigits

/-! ## Versions of the same precedence -/

theorem Numeric.all_isDigit {text : List Char} (h : Numeric text) : text.all Char.isDigit = true :=
  List.all_eq_true.2 h.1.2

theorem Alphanumeric.all_isDigit {text : List Char} (h : Alphanumeric text) :
    text.all Char.isDigit = false := by
  obtain ⟨c, hc, hdigit⟩ := h.2
  exact List.all_eq_false.2 ⟨c, hc, by simpa using hdigit⟩

theorem compareIdentifiers_eq_iff {a b : List Char} (ha : PreReleaseIdentifier a)
    (hb : PreReleaseIdentifier b) : compareIdentifiers a b = .eq ↔ a = b := by
  unfold compareIdentifiers
  -- numbers by value, words by their letters, and a number is no word
  rcases ha with ha | ha <;> rcases hb with hb | hb
  · rw [ha.all_isDigit, hb.all_isDigit, Std.LawfulEqOrd.compare_eq_iff_eq]
    exact String.ofList_inj
  · rw [ha.all_isDigit, hb.all_isDigit]
    simp only [reduceCtorEq, false_iff]
    rintro rfl
    have hdigits := hb.all_isDigit
    rw [ha.all_isDigit] at hdigits
    cases hdigits
  · rw [ha.all_isDigit, hb.all_isDigit]
    simp only [reduceCtorEq, false_iff]
    rintro rfl
    have hdigits := ha.all_isDigit
    rw [hb.all_isDigit] at hdigits
    cases hdigits
  · rw [ha.all_isDigit, hb.all_isDigit, Std.LawfulEqOrd.compare_eq_iff_eq]
    constructor
    · exact ha.value_inj hb
    · rintro rfl
      rfl

theorem compareFields_eq_iff {as bs : List (List Char)} (ha : ∀ a ∈ as, PreReleaseIdentifier a)
    (hb : ∀ b ∈ bs, PreReleaseIdentifier b) : compareFields as bs = .eq ↔ as = bs := by
  induction as generalizing bs with
  | nil => cases bs <;> simp [compareFields]
  | cons a as ih =>
      cases bs with
      | nil => simp [compareFields]
      | cons b bs =>
          have hhead := compareIdentifiers_eq_iff (ha a List.mem_cons_self)
            (hb b List.mem_cons_self)
          have htail := @ih bs (fun x hx => ha x (List.mem_cons_of_mem _ hx))
            fun x hx => hb x (List.mem_cons_of_mem _ hx)
          rw [compareFields, Ordering.then_eq_eq, hhead, htail, List.cons.injEq]

theorem comparePreReleases_eq_iff {as bs : List (List Char)}
    (ha : ∀ a ∈ as, PreReleaseIdentifier a) (hb : ∀ b ∈ bs, PreReleaseIdentifier b) :
    comparePreReleases as bs = .eq ↔ as = bs := by
  cases as with
  | nil => cases bs <;> simp [comparePreReleases]
  | cons a as =>
      cases bs with
      | nil => simp [comparePreReleases]
      | cons b bs => exact compareFields_eq_iff ha hb

theorem compare_value_eq_iff (t u : {text : List Char // Numeric text}) :
    compare (value t.1) (value u.1) = .eq ↔ t = u := by
  rw [Std.LawfulEqOrd.compare_eq_iff_eq]
  constructor
  · intro h
    exact Subtype.ext (t.2.value_inj u.2 h)
  · rintro rfl
    rfl

theorem precedence_eq_iff (v w : Version) : precedence v w = .eq ↔ SameRelease v w := by
  have hidentifiers : ∀ x : Version, ∀ a ∈ x.preRelease.map Subtype.val, PreReleaseIdentifier a := by
    intro x a ha
    obtain ⟨identifier, -, rfl⟩ := List.mem_map.1 ha
    exact identifier.2
  have hpreRelease := comparePreReleases_eq_iff (hidentifiers v) (hidentifiers w)
  rw [List.map_inj_right fun _ _ => Subtype.ext] at hpreRelease
  simp only [precedence, Ordering.then_eq_eq, compare_value_eq_iff, hpreRelease]
  constructor
  · rintro ⟨hmajor, hminor, hpatch, hpre⟩
    exact ⟨hmajor, hminor, hpatch, hpre⟩
  · intro h
    exact ⟨h.major, h.minor, h.patch, h.preRelease⟩

end SemVer
