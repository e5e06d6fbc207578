import Mathlib.Data.List.Sort
import Alos.Memory.Frame

/-! # Who may read a memory

A record is read in two ways: `retrieve` filters the records of a principal, and
a bundle tells the lineage of one record.

* `Entitled` is the rule of the allow policy, under which a fact that is missing
  is a denial;
* `guarded_iff`: `retrieve` follows it if and only if no record that passes the
  filters is bound to a division or a project that the principal lacks;
* `bundles_iff`: a bundle is made for readable records only if and only if the
  record passes the filters that the bundle does not look at.
-/

namespace Alos.Memory

open Coop Py

variable {casefold : String → String} {s : Store} {principal : Principal} {now : Datetime}

/-! ## What is retrieved -/

theorem mem_found {query : Option String} {record : MemoryRecord} :
    record ∈ found casefold s principal now query ↔
      record ∈ s.values ∧ Readable principal now record ∧ Asked casefold query record := by
  unfold found
  rw [List.mem_insertionSort, List.mem_filter, decide_eq_true_eq]

theorem mem_of_limited {limit : Int} {records : List MemoryRecord} {record : MemoryRecord}
    (h : record ∈ limited limit records) : record ∈ records := by
  unfold limited at h
  split at h <;> exact List.mem_of_mem_take h

/-- A retrieval without a query that is cut nowhere. -/
theorem retrieve_all (h : principal.active = true) :
    retrieve casefold s principal now none s.values.length =
      .ok (found casefold s principal now none) := by
  have hlength : (found casefold s principal now none).length ≤ s.values.length := by
    unfold found
    rw [List.length_insertionSort]
    exact List.length_filter_le ..
  unfold retrieve limited
  rw [if_neg (not_not_intro h), if_pos (by omega), Int.toNat_natCast, List.take_of_length_le hlength]

/-- A principal may see the record: it is active and unexpired, in the principal's
place, under scopes of the principal, of a classification that is allowed, and of
the principal's own division and project if it has any. -/
structure Entitled (principal : Principal) (now : Datetime) (record : MemoryRecord) : Prop where
  active : record.status = .active
  unexpired : ∀ expiresAt ∈ record.expiresAt, now < expiresAt
  tenantId : record.tenantId = principal.tenantId
  organizationId : record.organizationId = principal.organizationId
  workspaceId : record.workspaceId = principal.workspaceId
  hasScope : record.scopeRefs ≠ []
  scopes : ∀ ref ∈ record.scopeRefs, ref ∈ principal.scopes
  classification : ClassificationAllowed record.classification principal
  division : ∀ division, record.divisionId = some division →
    principal.divisionId = some division.val
  project : ∀ project, record.projectId = some project → principal.projectId = some project.val

/-- A record is bound to what the principal has, if the principal has anything. -/
def Lacks (bound : Option Text) (own : Option String) : Prop := bound ≠ none ∧ ¬ Given own

/-- The filter lets a missing fact pass. -/
theorem bound_iff {bound : Option Text} {own : Option String} :
    (∀ text, bound = some text → own = some text.val) ↔ ¬ Elsewhere bound own ∧ ¬ Lacks bound own := by
  unfold Elsewhere Lacks
  cases bound with
  | none => simp
  | some text =>
      simp only [Option.some.injEq, forall_eq', ne_eq, reduceCtorEq, not_false_eq_true, true_and,
        Option.map_some, not_and, not_not]
      constructor
      · rintro rfl
        exact ⟨fun _ => rfl, text.val, rfl, text.property⟩
      · rintro ⟨hown, hgiven⟩
        exact (hown hgiven).symm

theorem entitled_iff {record : MemoryRecord} : Entitled principal now record ↔
    Readable principal now record ∧ ¬ Lacks record.divisionId principal.divisionId ∧
      ¬ Lacks record.projectId principal.projectId := by
  constructor
  · intro h
    -- a record that is bound is bound to the principal's own division and project
    have hdivision := bound_iff.1 h.division
    have hproject := bound_iff.1 h.project
    exact ⟨⟨h.tenantId, h.organizationId, h.workspaceId, h.active, h.unexpired,
      ⟨h.hasScope, h.scopes⟩, h.classification, hdivision.1, hproject.1⟩, hdivision.2, hproject.2⟩
  · rintro ⟨⟨htenant, horganization, hworkspace, hactive, hunexpired, hscopes, hclassification,
      hdivision, hproject⟩, hdivision', hproject'⟩
    constructor
    · exact hactive
    · exact hunexpired
    · exact htenant
    · exact horganization
    · exact hworkspace
    · exact hscopes.1
    · exact hscopes.2
    · exact hclassification
    · exact bound_iff.2 ⟨hdivision, hdivision'⟩
    · exact bound_iff.2 ⟨hproject, hproject'⟩

/-- Whatever is retrieved, the principal may see it. -/
def Guarded (casefold : String → String) (s : Store) (principal : Principal) (now : Datetime) :
    Prop :=
  ∀ query limit records, retrieve casefold s principal now query limit = .ok records →
    ∀ record ∈ records, Entitled principal now record

theorem guarded_iff (casefold : String → String) (s : Store) (principal : Principal)
    (now : Datetime) (hactive : principal.active = true) :
    Guarded casefold s principal now ↔ ∀ record ∈ s.values, Readable principal now record →
      ¬ Lacks record.divisionId principal.divisionId ∧
        ¬ Lacks record.projectId principal.projectId := by
  constructor
  · intro h record hmem hreadable
    have hfound : record ∈ found casefold s principal now none :=
      mem_found.2 ⟨hmem, hreadable, fun _ hnone => (nomatch hnone)⟩
    exact (entitled_iff.1 (h none _ _ (retrieve_all hactive) record hfound)).2
  · intro h query limit records hrecords record hmem
    unfold retrieve at hrecords
    rw [if_neg (not_not_intro hactive)] at hrecords
    cases hrecords
    obtain ⟨hstored, hreadable, -⟩ := mem_found.1 (mem_of_limited hmem)
    exact entitled_iff.2 ⟨hreadable, h record hstored hreadable⟩

/-! ## A principal without a division -/

/-- A member of the workspace that is in no division. -/
def reader : Principal where
  actorId := "actor_reader"
  tenantId := "tenant_a"
  organizationId := "organization"
  workspaceId := "workspace"
  scopes := {"scope"}

/-- A record of a division. -/
def divisionNote : MemoryRecord :=
  { note "tenant_a" with divisionId := some ⟨"division", by decide⟩ }

/-- A record of a project of the division, and a member that is in both. -/
def projectNote : MemoryRecord :=
  { divisionNote with projectId := some ⟨"project", by decide⟩ }

def colleague : Principal :=
  { reader with divisionId := some "division", projectId := some "project" }

theorem guarded_colleague :
    retrieve id (Table.empty.put projectNote) colleague 0 = .ok [projectNote] ∧
      Guarded id (Table.empty.put projectNote) colleague 0 := by
  refine ⟨rfl, (guarded_iff id _ colleague 0 rfl).2 ?_⟩
  intro record hmem _
  rcases Table.mem_put.1 hmem with rfl | ⟨hmem, -⟩
  · -- the member does not lack the division and the project of the record
    refine ⟨fun hlacks => ?_, fun hlacks => ?_⟩
    · exact absurd hlacks.2 (by decide)
    · exact absurd hlacks.2 (by decide)
  · cases hmem

/-- The record is retrieved by a principal that is in no division. -/
theorem division_missing :
    retrieve id (Table.empty.put divisionNote) reader 0 = .ok [divisionNote] ∧
      reader.divisionId = none ∧ ¬ Guarded id (Table.empty.put divisionNote) reader 0 := by
  have hretrieved : retrieve id (Table.empty.put divisionNote) reader 0 = .ok [divisionNote] := by
    rfl
  refine ⟨hretrieved, rfl, ?_⟩
  intro h
  have hentitled := h none 12 _ hretrieved divisionNote List.mem_cons_self
  cases hentitled.division _ rfl

/-! ## What is bundled -/

/-- The bundle of a record is made only if the record would be retrieved without
a query and a limit. -/
def Bundles (casefold : String → String) (s : Store) (principal : Principal) (now : Datetime)
    (memoryId : String) : Prop :=
  ∀ runId correlationId bundle,
    buildEvidenceBundle s memoryId principal now runId correlationId = .ok bundle →
      ∃ records, retrieve casefold s principal now none s.values.length = .ok records ∧
        ∃ record ∈ records, record.memoryId = memoryId

/-- What a bundle does not look at: the organization, the status, the expiry, the
scopes, the classification, the division and the project. -/
structure Unchecked (principal : Principal) (now : Datetime) (record : MemoryRecord) : Prop where
  organizationId : record.organizationId = principal.organizationId
  active : record.status = .active
  unexpired : ∀ expiresAt ∈ record.expiresAt, now < expiresAt
  scopes : ScopeMatches record principal
  classification : ClassificationAllowed record.classification principal
  division : ¬ Elsewhere record.divisionId principal.divisionId
  project : ¬ Elsewhere record.projectId principal.projectId

theorem readable_iff {record : MemoryRecord} : Readable principal now record ↔
    (record.tenantId = principal.tenantId ∧ record.workspaceId = principal.workspaceId) ∧
      Unchecked principal now record := by
  constructor
  · rintro ⟨htenant, horganization, hworkspace, hactive, hunexpired, hscopes, hclassification,
      hdivision, hproject⟩
    exact ⟨⟨htenant, hworkspace⟩, horganization, hactive, hunexpired, hscopes, hclassification,
      hdivision, hproject⟩
  · rintro ⟨⟨htenant, hworkspace⟩, h⟩
    exact ⟨htenant, h.organizationId, hworkspace, h.active, h.unexpired, h.scopes,
      h.classification, h.division, h.project⟩

theorem bundle_ok {memoryId : String} {runId correlationId : Option String}
    {bundle : MemoryEvidenceBundle} :
    buildEvidenceBundle s memoryId principal now runId correlationId = .ok bundle ↔
      ∃ record, s.get? memoryId = some record ∧
        (record.tenantId = principal.tenantId ∧ record.workspaceId = principal.workspaceId) ∧
        bundleOf record now runId correlationId = bundle := by
  unfold buildEvidenceBundle
  cases s.get? memoryId with
  | none => simp
  | some record =>
      simp only [Option.some.injEq, exists_eq_left']
      -- the bundle compares the place only
      by_cases hplace : record.tenantId ≠ principal.tenantId ∨
          record.workspaceId ≠ principal.workspaceId
      · rw [if_pos hplace]
        simp only [reduceCtorEq, false_iff, not_and]
        intro h
        tauto
      · rw [if_neg hplace]
        simp only [ne_eq, not_or, not_not] at hplace
        simp [hplace]

/-- A bundle that is made for retrieved records only is made for a record that
passes the other filters. -/
theorem Bundles.unchecked {memoryId : String} (h : Bundles casefold s principal now memoryId)
    (hactive : principal.active = true) {record : MemoryRecord}
    (hget : s.get? memoryId = some record) (htenant : record.tenantId = principal.tenantId)
    (hworkspace : record.workspaceId = principal.workspaceId) : Unchecked principal now record := by
  obtain ⟨records, hrecords, found, hfound, hid⟩ :=
    h none none _ (bundle_ok.2 ⟨record, hget, ⟨htenant, hworkspace⟩, rfl⟩)
  rw [retrieve_all hactive, Except.ok.injEq] at hrecords
  subst hrecords
  obtain ⟨hmem, hreadable, -⟩ := mem_found.1 hfound
  -- what is filed under the id is the record
  have hsame := Table.get?_of_mem hmem
  rw [hid, hget] at hsame
  cases hsame
  exact (readable_iff.1 hreadable).2

theorem bundles_iff (casefold : String → String) (s : Store) (principal : Principal)
    (now : Datetime) (memoryId : String) (hactive : principal.active = true) :
    Bundles casefold s principal now memoryId ↔ ∀ record, s.get? memoryId = some record →
      record.tenantId = principal.tenantId → record.workspaceId = principal.workspaceId →
        Unchecked principal now record := by
  constructor
  · intro h record hget htenant hworkspace
    exact h.unchecked hactive hget htenant hworkspace
  · intro h runId correlationId bundle hbundle
    obtain ⟨record, hget, hplace, -⟩ := bundle_ok.1 hbundle
    have hreadable := readable_iff.2 ⟨hplace, h record hget hplace.1 hplace.2⟩
    refine ⟨_, retrieve_all hactive, record, mem_found.2 ⟨Table.mem_of_get? hget, hreadable, ?_⟩,
      Table.key_of_get? hget⟩
    exact fun _ hnone => (nomatch hnone)

/-! ## The lineage of a deleted record -/

/-- A deleted record with a source. -/
def deletedNote : MemoryRecord :=
  { note "tenant_a" with status := .deleted, sourceRef := some ⟨"source", by decide⟩ }

theorem bundles_reader : Bundles id (Table.empty.put (note "tenant_a")) reader 0 "memory" := by
  apply (bundles_iff id _ reader 0 "memory" rfl).2
  intro record hget _ _
  cases hget
  constructor
  all_goals first | rfl | decide

/-- The bundle of the deleted record names its source, and nothing is retrieved. -/
theorem deleted_bundled :
    (buildEvidenceBundle (Table.empty.put deletedNote) "memory" reader 0).map (·.sourceRefs) =
        .ok ["source"] ∧
      retrieve id (Table.empty.put deletedNote) reader 0 = .ok [] ∧
      ¬ Bundles id (Table.empty.put deletedNote) reader 0 "memory" := by
  refine ⟨rfl, rfl, ?_⟩
  intro h
  have hunchecked : Unchecked reader 0 deletedNote := h.unchecked rfl rfl rfl rfl
  cases hunchecked.active

end Alos.Memory
