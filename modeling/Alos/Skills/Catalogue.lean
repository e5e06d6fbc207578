import Alos.Registry.Authorized
import Alos.Registry.Sequential
import Alos.Skills.Visibility

/-! # The catalogue of skills

What a principal reads of the skills: the list, the versions of a skill, and the
detail of a version or of the latest one. All of them are reads of one list, that
of the entries which the principal may use.

* `Listed.version`: a version has a detail just when it is listed;
* `Listed.latest`: without a version, it is the detail of the last one listed;
* `detailOf_shows`: the detail of an entry that its payload names tells what the list
  tells of it;
* `catalogue_reads` puts the results together.
-/

namespace Alos.Skills

open Py Registry

section Catalogue

variable {registry : Table RegistryEntry.key} {principal : Principal}

/-- The detail of an entry. -/
def detailOf (entry : RegistryEntry) : Json.Fields :=
  setItem (setItem (entry.payload.erase "tool_ids") "lifecycle_state" (.str entry.state.value))
    "correlation_id" (.str entry.correlationId)

theorem detailOf_get? (entry : RegistryEntry) {key : String} (htools : key ≠ "tool_ids")
    (hstate : key ≠ "lifecycle_state") (hcorrelation : key ≠ "correlation_id") :
    (detailOf entry).get? key = entry.payload.get? key := by
  rw [detailOf, get?_setItem, if_neg hcorrelation, get?_setItem, if_neg hstate,
    Json.Fields.get?_erase htools]

/-- The tools of a skill are not shown. -/
theorem detailOf_tool_ids (entry : RegistryEntry) : (detailOf entry).get? "tool_ids" = none := by
  rw [detailOf, get?_setItem, if_neg (by decide), get?_setItem, if_neg (by decide)]
  rw [Json.Fields.get?, List.lookup_eq_none_iff]
  intro item hitem
  have hkept := (List.mem_filter.1 hitem).2
  rw [decide_eq_true_eq] at hkept
  simpa using Ne.symm hkept

/-- The payload names the skill and the version that the entry is filed under. -/
def Identified (entry : RegistryEntry) : Prop :=
  entry.payload.get? "skill_id" = some (.str entry.subjectId) ∧
    entry.payload.get? "skill_version" = some (.str entry.version)

/-- An entry that a registration of a skill has made is so named, its id and its version
being texts. -/
theorem identified_of_formed {ι κ : Type} {x : Registries ι κ} {i : ι} {entry : RegistryEntry}
    (h : Formed x i entry) (hid : (x.registry i).idField = "skill_id")
    (hversion : (x.registry i).versionField = "skill_version")
    (htexts : ∀ key ∈ ["skill_id", "skill_version"], ∃ text,
      entry.payload.get? key = some (.str text)) : Identified entry := by
  -- a key that holds a text is read as this text
  have hfield : ∀ {key text}, key ∈ ["skill_id", "skill_version"] →
      textField x entry.payload key = .ok text → entry.payload.get? key = some (.str text) := by
    intro key text hkey htext
    rcases htexts key hkey with ⟨found, hfound⟩
    rw [textField, hfound] at htext
    cases htext
    exact hfound
  constructor
  · exact hfield (by simp) (hid ▸ h.subjectId)
  · exact hfield (by simp) (hversion ▸ h.version)

/-- What the list tells of an entry its detail tells too; a name or a description that
is not there is listed as null. -/
def Shows (entry : RegistryEntry) (detail : Json.Fields) : Prop :=
  ∃ item, skillItem entry = .obj item ∧ ∀ key value, (key, value) ∈ item →
    detail.get? key = some value ∨ (value = .null ∧ detail.get? key = none)

theorem mem_present {payload : Json.Fields} {key key' : String} {value : Json}
    (h : (key', value) ∈ present payload key) : key' = key ∧ payload.get? key = some value := by
  unfold present at h
  split at h
  · cases h
  · cases h
  · rename_i found hfound hget
    rcases List.mem_singleton.1 h with h
    cases h
    exact ⟨rfl, hget⟩

theorem detailOf_state (entry : RegistryEntry) :
    (detailOf entry).get? "lifecycle_state" = some (.str entry.state.value) := by
  rw [detailOf, get?_setItem, if_neg (by decide), get?_setItem, if_pos rfl]

theorem detailOf_shows {entry : RegistryEntry} (h : Identified entry) :
    Shows entry (detailOf entry) := by
  -- a field of the payload is null in the list if it is not there
  have hfield : ∀ key, key ≠ "tool_ids" → key ≠ "lifecycle_state" → key ≠ "correlation_id" →
      (detailOf entry).get? key = some (RegistryAuthorityView.field entry.payload key) ∨
        (RegistryAuthorityView.field entry.payload key = .null ∧
          (detailOf entry).get? key = none) := by
    intro key htools hstate hcorrelation
    rw [detailOf_get? entry htools hstate hcorrelation, RegistryAuthorityView.field]
    cases entry.payload.get? key with
    | none => exact .inr ⟨rfl, rfl⟩
    | some value => exact .inl rfl
  have hpresent : ∀ {key key' : String} {value : Json}, key ≠ "tool_ids" →
      key ≠ "lifecycle_state" → key ≠ "correlation_id" →
      (key', value) ∈ present entry.payload key → (detailOf entry).get? key' = some value := by
    intro key key' value htools hstate hcorrelation hmem
    rcases mem_present hmem with ⟨rfl, hget⟩
    rwa [detailOf_get? entry htools hstate hcorrelation]
  refine ⟨_, rfl, fun key value hmem => ?_⟩
  simp only [List.mem_append, List.mem_cons, List.not_mem_nil, or_false, Prod.mk.injEq] at hmem
  rcases hmem with ((⟨rfl, rfl⟩ | ⟨rfl, rfl⟩ | ⟨rfl, rfl⟩ | ⟨rfl, rfl⟩ | ⟨rfl, rfl⟩) | howner) | hrisk
  · exact .inl ((detailOf_get? entry (by decide) (by decide) (by decide)).trans h.1)
  · exact .inl ((detailOf_get? entry (by decide) (by decide) (by decide)).trans h.2)
  · exact hfield "name" (by decide) (by decide) (by decide)
  · exact hfield "description" (by decide) (by decide) (by decide)
  · exact .inl (detailOf_state entry)
  · exact .inl (hpresent (by decide) (by decide) (by decide) howner)
  · exact .inl (hpresent (by decide) (by decide) (by decide) hrisk)

/-- A version that is asked for has a detail if and only if a usable entry has
the version. -/
theorem getSkill_version (htyped : ∀ entry ∈ registry.values, Typed entry)
    {skillId version : String} (hversion : version ≠ "") {detail : Json} :
    getSkill registry principal skillId (some version) = .ok detail ↔
      ∃ entry ∈ registry.values, IsVersion skillId version entry ∧ Usable principal entry ∧
        detail = .obj (detailOf entry) := by
  have htarget : (some version).filter (· ≠ "") = some version := by
    rw [Option.filter_some, if_pos (by simpa using hversion)]
  simp only [getSkill, htarget, Except.bind_eq_ok, Except.pure_eq_ok, Except.ok.injEq,
    getAuthorized_ok htyped, get_ok]
  constructor
  · rintro ⟨target, rfl, entry, ⟨hmem, hkey⟩, view, ⟨other, hother, hsubject, hversion', husable, -⟩,
      rfl⟩
    -- the entry of the key is the one that is authorized
    have hsame : entry = other := by
      have hplace := husable.place
      have hkey' : other.key = entry.key := by
        rw [hkey, RegistryEntry.key, hplace.1, hplace.2.2, hsubject, hversion']
      have hfound := Table.get?_of_mem hother
      rw [hkey', Table.get?_of_mem hmem] at hfound
      exact Option.some.inj hfound
    exact ⟨other, hother, ⟨hsubject, hversion'⟩, husable, by rw [hsame]; rfl⟩
  · rintro ⟨entry, hmem, ⟨rfl, rfl⟩, husable, rfl⟩
    have hplace := husable.place
    refine ⟨_, rfl, entry, ⟨hmem, ?_⟩, _, ⟨entry, hmem, rfl, rfl, husable, rfl⟩, rfl⟩
    rw [RegistryEntry.key, hplace.1, hplace.2.2]

theorem version_ne_empty {entry : RegistryEntry} (h : Versioned entry) : entry.version ≠ "" := by
  intro hempty
  rcases h with ⟨semver, hsemver⟩
  rw [hempty] at hsemver
  cases hsemver

/-! ## The list -/

/-- The versions of a skill that are listed. -/
def versionsIn (listed : List RegistryEntry) (skillId : String) : List RegistryEntry :=
  listed.filter (·.subjectId = skillId)

theorem mem_versionsIn {listed : List RegistryEntry} {skillId : String} {entry : RegistryEntry} :
    entry ∈ versionsIn listed skillId ↔ entry ∈ listed ∧ entry.subjectId = skillId := by
  rw [versionsIn, List.mem_filter, decide_eq_true_eq]

/-- The list of what the principal may use, in order. -/
structure Listed (registry : Table RegistryEntry.key) (principal : Principal)
    (listed : List RegistryEntry) : Prop where
  list : listAuthorizedEntries registry (some principal) = .ok listed
  usable : ∀ entry, entry ∈ listed ↔ entry ∈ registry.values ∧ Usable principal entry
  sorted : listed.Pairwise NotAfter
  versioned : ∀ entry ∈ listed, Versioned entry

theorem exists_listed (hversioned : ∀ entry ∈ registry.values, Versioned entry)
    (htyped : ∀ entry ∈ registry.values, Typed entry) : ∃ listed, Listed registry principal listed := by
  classical
  have husable : ∀ entry,
      entry ∈ (registry.values.filter (Usable principal ·)).insertionSort NotAfter ↔
        entry ∈ registry.values ∧ Usable principal entry := by
    intro entry
    rw [List.mem_insertionSort, List.mem_filter, decide_eq_true_eq]
  refine ⟨_, listAuthorizedEntries_eq hversioned htyped, husable,
    List.pairwise_insertionSort NotAfter _, ?_⟩
  intro entry hentry
  exact hversioned entry ((husable entry).1 hentry).1

namespace Listed

variable {listed : List RegistryEntry} {skillId : String}

theorem getVersions (h : Listed registry principal listed) (skillId : String) :
    Skills.getVersions registry principal skillId =
      .ok ((versionsIn listed skillId).map RegistryEntry.version) := by
  rw [Skills.getVersions, h.list]
  rfl

theorem ascending (h : Listed registry principal listed) (skillId : String) :
    (versionsIn listed skillId).Pairwise fun a b =>
      (compare (precedence a) (precedence b)).isLE = true := by
  have hsorted := h.sorted.sublist (List.filter_sublist (p := (·.subjectId = skillId)))
  apply hsorted.imp_of_mem
  intro a b ha hb hab
  exact hab.precedence ((mem_versionsIn.1 ha).2.trans (mem_versionsIn.1 hb).2.symm)

/-- A skill is listed once in each version. -/
theorem eq_of_version (h : Listed registry principal listed) {a b : RegistryEntry}
    (ha : a ∈ versionsIn listed skillId) (hb : b ∈ versionsIn listed skillId)
    (hversion : a.version = b.version) : a = b := by
  rcases mem_versionsIn.1 ha with ⟨hina, hsubjecta⟩
  rcases mem_versionsIn.1 hb with ⟨hinb, hsubjectb⟩
  rcases (h.usable a).1 hina with ⟨hmema, husablea⟩
  rcases (h.usable b).1 hinb with ⟨hmemb, husableb⟩
  exact eq_of_place hmema hmemb husablea.place husableb.place (hsubjecta.trans hsubjectb.symm)
    hversion

/-- A version has a detail if and only if it is listed. -/
theorem version (h : Listed registry principal listed)
    (htyped : ∀ entry ∈ registry.values, Typed entry) {version : String} (hne : version ≠ "")
    {detail : Json} : getSkill registry principal skillId (some version) = .ok detail ↔
      ∃ entry ∈ versionsIn listed skillId, entry.version = version ∧
        detail = .obj (detailOf entry) := by
  rw [getSkill_version htyped hne]
  constructor
  · rintro ⟨entry, hentry, ⟨hsubject, hversion⟩, husable, hdetail⟩
    have hlisted := (h.usable entry).2 ⟨hentry, husable⟩
    exact ⟨entry, mem_versionsIn.2 ⟨hlisted, hsubject⟩, hversion, hdetail⟩
  · rintro ⟨entry, hentry, hversion, hdetail⟩
    rcases mem_versionsIn.1 hentry with ⟨hlisted, hsubject⟩
    rcases (h.usable entry).1 hlisted with ⟨hregistered, husable⟩
    exact ⟨entry, hregistered, ⟨hsubject, hversion⟩, husable, hdetail⟩

/-- The version that is read when none is asked for is the last one listed. -/
theorem latestVersion (h : Listed registry principal listed) (skillId : String) :
    Skills.latestVersion registry principal skillId =
      match (versionsIn listed skillId).getLast? with
      | none => .error (.notFound "skill definition was not found")
      | some entry => .ok entry.version := by
  rw [Skills.latestVersion, h.getVersions]
  simp only [bind, Except.bind, List.getLast?_map]
  cases (versionsIn listed skillId).getLast? <;> rfl

/-- Without a version, the detail is that of the last version listed. -/
theorem latest (h : Listed registry principal listed)
    (htyped : ∀ entry ∈ registry.values, Typed entry) {detail : Json} :
    getSkill registry principal skillId = .ok detail ↔
      ∃ entry, (versionsIn listed skillId).getLast? = some entry ∧
        detail = .obj (detailOf entry) := by
  have hlatest := h.latestVersion skillId
  cases hlast : (versionsIn listed skillId).getLast? with
  | none =>
      rw [hlast] at hlatest
      have herror : getSkill registry principal skillId =
          .error (.notFound "skill definition was not found") := by
        simp only [getSkill, Option.filter_none, hlatest]
        rfl
      simp [herror]
  | some entry =>
      rw [hlast] at hlatest
      have hentry := List.mem_of_getLast? hlast
      have hne := version_ne_empty (h.versioned entry (mem_versionsIn.1 hentry).1)
      have htarget : (some entry.version).filter (· ≠ "") = some entry.version := by
        rw [Option.filter_some, if_pos (by simpa using hne)]
      -- without a version, the detail is that of the latest
      have hsame : getSkill registry principal skillId =
          getSkill registry principal skillId (some entry.version) := by
        simp only [getSkill, Option.filter_none, hlatest, htarget]
      rw [hsame, h.version htyped hne]
      constructor
      · rintro ⟨other, hother, hversion, hdetail⟩
        exact ⟨entry, rfl, by rw [hdetail, h.eq_of_version hother hentry hversion]⟩
      · rintro ⟨last, hlast', hdetail⟩
        cases hlast'
        exact ⟨entry, hentry, rfl, hdetail⟩

end Listed

/-! ## The reads -/

/-- The reads of the skills, over the one list of what the principal may use. -/
structure Catalogue (registry : Table RegistryEntry.key) (principal : Principal)
    (listed : List RegistryEntry) : Prop where
  usable : ∀ entry, entry ∈ listed ↔ entry ∈ registry.values ∧ Usable principal entry
  list : listSkills registry principal = .ok (listed.map skillItem)
  versions : ∀ skillId, getVersions registry principal skillId =
    .ok ((versionsIn listed skillId).map RegistryEntry.version)
  ascending : ∀ skillId, (versionsIn listed skillId).Pairwise fun a b =>
    (compare (precedence a) (precedence b)).isLE = true
  /-- A version has a detail if and only if it is listed. -/
  version : ∀ skillId version detail, version ≠ "" →
    (getSkill registry principal skillId (some version) = .ok detail ↔
      ∃ entry ∈ versionsIn listed skillId, entry.version = version ∧
        detail = .obj (detailOf entry))
  /-- A skill has one if and only if a version is listed, and it is that of the
  highest. -/
  latest : ∀ skillId detail, getSkill registry principal skillId = .ok detail ↔
    ∃ entry, (versionsIn listed skillId).getLast? = some entry ∧ detail = .obj (detailOf entry)
  /-- It shows the entry as the list does, and never its tools. -/
  shown : ∀ entry ∈ listed, Shows entry (detailOf entry) ∧
    (detailOf entry).get? "lifecycle_state" = some (.str "ACTIVE") ∧
    (detailOf entry).get? "tool_ids" = none

theorem catalogue_reads (registry : Table RegistryEntry.key) (principal : Principal)
    (hversioned : ∀ entry ∈ registry.values, Versioned entry)
    (htyped : ∀ entry ∈ registry.values, Typed entry)
    (hidentified : ∀ entry ∈ registry.values, Identified entry) :
    ∃ listed, Catalogue registry principal listed := by
  rcases @exists_listed registry principal hversioned htyped with ⟨listed, h⟩
  refine ⟨listed, h.usable, ?_, h.getVersions, h.ascending, fun _ _ _ hne => h.version htyped hne,
    fun _ _ => h.latest htyped, ?_⟩
  · rw [listSkills, h.list]
    rfl
  · intro entry hentry
    have hregistered := ((h.usable entry).1 hentry).1
    have hactive := ((h.usable entry).1 hentry).2.active
    refine ⟨detailOf_shows (hidentified entry hregistered), ?_, detailOf_tool_ids entry⟩
    rw [detailOf_state, hactive]
    rfl

end Catalogue

/-- A version of a skill, with a payload that names it. -/
def namedSkill (version : String) : RegistryEntry :=
  let entry := scopedEntry "skill" "skill.ledger" version .active
  { entry with payload := entry.payload ++
      [("skill_id", .str "skill.ledger"), ("skill_version", .str version)] }

theorem namedSkill_typed (version : String) : Typed (namedSkill version) := by
  intro key hkey
  simp only [refFields, List.mem_cons, List.not_mem_nil, or_false] at hkey
  rcases hkey with rfl | rfl | rfl | rfl | rfl
  · exact ⟨[], .inr ⟨rfl, rfl⟩⟩
  · exact ⟨[], .inr ⟨rfl, rfl⟩⟩
  · exact ⟨[], .inr ⟨rfl, rfl⟩⟩
  · exact ⟨[], .inr ⟨rfl, rfl⟩⟩
  · exact ⟨["scope.ledger"], .inl rfl⟩

/-- Two active versions of a skill. -/
theorem catalogue_reads_versions :
    ∃ listed, Catalogue ⟨[namedSkill "1.0.0", namedSkill "2.0.0"], by decide⟩ scopeHolder
      listed := by
  have hentry : ∀ entry ∈ [namedSkill "1.0.0", namedSkill "2.0.0"],
      ∃ version, entry = namedSkill version := by
    intro entry hentry
    simp only [List.mem_cons, List.not_mem_nil, or_false] at hentry
    rcases hentry with rfl | rfl <;> exact ⟨_, rfl⟩
  apply catalogue_reads
  · decide
  · intro entry hmem
    rcases hentry entry hmem with ⟨version, rfl⟩
    exact namedSkill_typed version
  · intro entry hmem
    rcases hentry entry hmem with ⟨version, rfl⟩
    exact ⟨rfl, rfl⟩

end Alos.Skills
