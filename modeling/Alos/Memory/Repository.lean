import Alos.Audit
import Alos.Coop.Lock
import Alos.Identity
import Alos.Sources.Models

/-! # The memory repository

`MemoryRepository` of `alos.memory.repository` and the `MemoryService` over it.
No method awaits; `AuditSink.append` is the one call that leaves the repository.

* `write`, `expire` and `delete` put a record into the dict;
* `retrieve` and `buildEvidenceBundle` are the two ways to read it.
-/

namespace Alos.Memory

open Coop Py Sources Tools

/-- The states of a record. -/
inductive MemoryStatus where
  | active
  | expired
  | deleted
deriving DecidableEq, Repr

/-- `Field(min_length=1)`. -/
abbrev Text := {text : String // text ≠ ""}

/-- A record of the memory, with what it is bound to. -/
structure MemoryRecord where
  memoryId : String
  tenantId : String
  organizationId : String
  workspaceId : String
  divisionId : Option Text := none
  projectId : Option Text := none
  actorId : String
  scopeRefs : List String := []
  classification : DataClassification := .internal
  content : String
  sourceRef : Option Text := none
  evidenceRef : Option Text := none
  runId : Option Text := none
  correlationId : Option Text := none
  status : MemoryStatus := .active
  createdAt : Datetime
  expiresAt : Option Datetime := none
deriving DecidableEq

/-- How a bundle tells that a record is past its time. -/
inductive Freshness where
  | current
  | stale
deriving DecidableEq, Repr

/-- The references of the records that were found. -/
structure MemoryEvidenceBundle where
  memoryRefs : List String
  sourceRefs : List String
  evidenceRefs : List String
  runId : Option String
  correlationId : Option String
  classification : DataClassification
  freshness : Freshness

/-- What a method raises; `audit` is whatever the audit sink raised. -/
inductive MemoryError where
  | memory (message : String)
  | audit
deriving DecidableEq, Repr

/-- `_store`. -/
abbrev Store := Table MemoryRecord.memoryId

/-- One coroutine of the repository. -/
abbrev Op (α : Type) := Proc Store AuditEvent (fun _ => Appended) MemoryError α

/-! ## Writing -/

def auditEvent (record : MemoryRecord) (eventType outcome reason : String)
    (metadata : Json.Fields) : AuditEvent where
  eventType := eventType
  entityType := "memory"
  entityId := record.memoryId
  tenantId := record.tenantId
  organizationId := record.organizationId
  workspaceId := record.workspaceId
  actorId := record.actorId
  correlationId := (record.correlationId.map Subtype.val).getD "unknown"
  outcome := outcome
  reason := reason
  metadata := metadata

/-- `_append_audit`. -/
def appendAudit (event : AuditEvent) : Op Unit := do
  match ← Proc.ask event with
  | Appended.returned => pure ()
  | Appended.raised => .raise .audit

/-- An optional text in the metadata of an event. -/
def optional (value : Option Text) : Json :=
  match value with
  | none => .null
  | some text => .str text.val

/-- `write`: whatever is stored under the id is replaced. -/
def write (record : MemoryRecord) : Op MemoryRecord := do
  .raiseIf (Blank record.memoryId) (.memory "memory_id must not be blank")
  -- what is stored under the id is replaced, whosever it is
  .modify (·.put record)
  appendAudit (auditEvent record "memory.record.written" "SUCCESS"
    "Material memory record stored by backend authority."
    [("source_ref", optional record.sourceRef), ("evidence_ref", optional record.evidenceRef),
      ("classification", .str (text record.classification)),
      ("scope_refs", .arr (record.scopeRefs.map .str)),
      ("expires_at", match record.expiresAt with
        | none => .null
        | some expiresAt => .str (isoformatOffset expiresAt))])
  pure record

/-- `get`, without a look at who asks. -/
def get (memoryId : String) : Op MemoryRecord := do
  let s ← .get
  match s.get? memoryId with
  | none => .raise (.memory s!"memory {memoryId} was not found")
  | some record => pure record

/-- The record is replaced by one of another status, and the event of that is
appended. -/
def replaceStatus (memoryId : String) (status : MemoryStatus)
    (event : MemoryRecord → AuditEvent) : Op MemoryRecord := do
  let record ← get memoryId
  -- from any status
  let updated := { record with status := status }
  .modify (·.put updated)
  appendAudit (event record)
  pure updated

/-- `expire`. -/
def expire (memoryId : String) (now : Datetime) (reason : String := "Expiry policy") :
    Op MemoryRecord :=
  replaceStatus memoryId .expired fun record =>
    auditEvent record "memory.record.expired" "EXPIRED" reason
      [("expires_at", .str (isoformatOffset now))]

/-- `delete`: the record stays, marked as deleted. -/
def delete (memoryId : String) (reason : String := "Explicit delete") : Op MemoryRecord :=
  replaceStatus memoryId .deleted fun record =>
    auditEvent record "memory.record.deleted" "DELETED" reason [("status", .str "DELETED")]

/-! ## Reading -/

/-- `_scope_matches`. -/
def ScopeMatches (record : MemoryRecord) (principal : Principal) : Prop :=
  record.scopeRefs ≠ [] ∧ ∀ ref ∈ record.scopeRefs, ref ∈ principal.scopes

instance (record : MemoryRecord) (principal : Principal) :
    Decidable (ScopeMatches record principal) := inferInstanceAs (Decidable (_ ∧ _))

/-- `bool(value)`. -/
def Given (value : Option String) : Prop := ∃ text ∈ value, text ≠ ""

instance (value : Option String) : Decidable (Given value) :=
  inferInstanceAs (Decidable (∃ text ∈ value, text ≠ ""))

/-- `_classification_allowed`. -/
def ClassificationAllowed (classification : DataClassification) (principal : Principal) : Prop :=
  if principal.dataScope = .ownAssigned then
    classification = .«public» ∨ classification = .internal
  else if Given principal.projectId then rank classification ≤ rank .internal
  else rank classification ≤ rank .confidential

instance (classification : DataClassification) (principal : Principal) :
    Decidable (ClassificationAllowed classification principal) := by
  unfold ClassificationAllowed
  infer_instance

/-- `bound and own and bound != own`. -/
def Elsewhere (bound : Option Text) (own : Option String) : Prop :=
  bound ≠ none ∧ Given own ∧ bound.map Subtype.val ≠ own

instance (bound : Option Text) (own : Option String) : Decidable (Elsewhere bound own) :=
  inferInstanceAs (Decidable (_ ∧ _ ∧ _))

/-- The filters of `retrieve` but for the query. -/
def Readable (principal : Principal) (now : Datetime) (record : MemoryRecord) : Prop :=
  record.tenantId = principal.tenantId ∧ record.organizationId = principal.organizationId ∧
    record.workspaceId = principal.workspaceId ∧ record.status = .active ∧
    (∀ expiresAt ∈ record.expiresAt, now < expiresAt) ∧ ScopeMatches record principal ∧
    ClassificationAllowed record.classification principal ∧
    ¬ Elsewhere record.divisionId principal.divisionId ∧
    ¬ Elsewhere record.projectId principal.projectId

instance (principal : Principal) (now : Datetime) (record : MemoryRecord) :
    Decidable (Readable principal now record) :=
  inferInstanceAs (Decidable (_ ∧ _ ∧ _ ∧ _ ∧ _ ∧ _ ∧ _ ∧ _ ∧ _))

section Reads

variable (casefold : String → String)

/-- `_query_matches`; `casefold` follows the tables of Unicode. -/
def QueryMatches (record : MemoryRecord) (query : String) : Prop :=
  (casefold query).toList <:+: (casefold (" ".intercalate [record.content,
    (record.sourceRef.map Subtype.val).getD "", (record.evidenceRef.map Subtype.val).getD "",
    record.memoryId])).toList

/-- The query is blank, or the record matches it. -/
def Asked (query : Option String) (record : MemoryRecord) : Prop :=
  ∀ text ∈ query, Blank text ∨ QueryMatches casefold record text

instance (query : Option String) (record : MemoryRecord) :
    Decidable (Asked casefold query record) := by
  unfold Asked QueryMatches
  infer_instance

/-- `records[:limit]`. -/
def limited (limit : Int) (records : List MemoryRecord) : List MemoryRecord :=
  if 0 ≤ limit then records.take limit.toNat
  -- a negative limit counts from the end
  else records.take (records.length - (-limit).toNat)

/-- The newest come first, and records of one instant stay in their order. -/
def NewestFirst (a b : MemoryRecord) : Prop := b.createdAt ≤ a.createdAt

instance (a b : MemoryRecord) : Decidable (NewestFirst a b) := inferInstanceAs (Decidable (_ ≤ _))

/-- `matches`, when they are sorted. -/
def found (s : Store) (principal : Principal) (now : Datetime) (query : Option String) :
    List MemoryRecord :=
  (s.values.filter fun record =>
    Readable principal now record ∧ Asked casefold query record).insertionSort NewestFirst

/-- `retrieve`: the records the principal may read, newest first, up to the limit. -/
def retrieve (s : Store) (principal : Principal) (now : Datetime) (query : Option String := none)
    (limit : Int := 12) : Except MemoryError (List MemoryRecord) :=
  if ¬ principal.active then .error (.memory "principal is not active")
  else .ok (limited limit (found casefold s principal now query))

end Reads

/-- The bundle of a record; `run_id` and `correlation_id` are taken from the
record when they are not given. -/
def bundleOf (record : MemoryRecord) (now : Datetime) (runId correlationId : Option String) :
    MemoryEvidenceBundle where
  memoryRefs := [record.memoryId]
  sourceRefs := (record.sourceRef.map Subtype.val).toList
  evidenceRefs := (record.evidenceRef.map Subtype.val).toList
  runId := orElse runId (record.runId.map Subtype.val)
  correlationId := orElse correlationId (record.correlationId.map Subtype.val)
  classification := record.classification
  freshness := if ∀ expiresAt ∈ record.expiresAt, now < expiresAt then .current else .stale

/-- `MemoryService.build_evidence_bundle`. -/
def buildEvidenceBundle (s : Store) (memoryId : String) (principal : Principal) (now : Datetime)
    (runId correlationId : Option String := none) : Except MemoryError MemoryEvidenceBundle :=
  match s.get? memoryId with
  | none => .error (.memory s!"memory {memoryId} was not found")
  | some record =>
      -- the other filters of `retrieve` are not applied
      if record.tenantId ≠ principal.tenantId ∨ record.workspaceId ≠ principal.workspaceId then
        .error (.memory "memory is outside the authorized boundary")
      else .ok (bundleOf record now runId correlationId)

end Alos.Memory
