import Mathlib.Data.Finset.Sort
import Mathlib.Data.List.Infix
import Alos.Audit
import Alos.Coop.Lock
import Alos.Evidence
import Alos.Sources.Chunks
import Alos.Sources.Models

/-! # The source registry

`SourceRegistry` of `alos.sources.service`. Only `AuditSink.append` is awaited
outside the lock, and nothing inside it, so what comes before the append is one
step. The clock is read by every call; a call carries what it says.
-/

namespace Alos.Sources

open Coop Py Tools

/-- What a call of the registry can raise. -/
inductive SourceError where
  | source (message : String)
  | evidence (e : EvidenceError)
  | contract (e : ContractError)
  | audit
deriving DecidableEq, Repr

/-- The parameters of the registry. -/
structure SourceRegistry extends EvidenceRegistry where
  /-- `hashlib.sha256(text.encode("utf-8")).hexdigest()`. -/
  sha256 : String → String
  /-- `text.casefold()`, by the tables of Unicode. -/
  casefold : String → String

/-- `_versions` and `_classifications`, and the evidence of the registry that is
shared. -/
structure State where
  versions : Table SourceVersionRecord.key
  classifications : Table (Prod.fst : SourceKey × DataClassification → SourceKey)
  evidence : EvidenceTable

/-- What a call waits for: the sink. -/
inductive Question where
  | append (event : AuditEvent)

/-- The sink returns or raises. -/
@[reducible] def Answer : Question → Type
  | .append _ => Appended

/-- One coroutine of the registry. -/
abbrev Op (α : Type) := Proc State Question Answer SourceError α

/-- `_require_scope`. -/
def requireScope (access : KnowledgeAccessContext) (scope : String) : Except SourceError Unit :=
  if scope ∈ access.scopeRefs.val then .ok ()
  else .error (.source s!"required scope is missing: {scope}")

/-- The audit event of one call. -/
def auditEvent (access : KnowledgeAccessContext) (entityId eventType outcome : String) :
    AuditEvent where
  eventType := eventType
  entityType := "source"
  entityId := entityId
  tenantId := access.tenantId.val
  organizationId := access.organizationId.val
  workspaceId := access.workspaceId.val
  actorId := access.actorId.val
  correlationId := access.correlationId.val
  outcome := outcome
  reason := "Governed source authority operation"

/-- An append that raises ends the call; what was stored stays. -/
def settleAppend : Appended → Op Unit
  | .returned => pure ()
  | .raised => .raise .audit

/-- `_record`. -/
def record (access : KnowledgeAccessContext) (entityId eventType outcome : String) : Op Unit := do
  settleAppend (← .ask (.append (auditEvent access entityId eventType outcome)))

section Operations

variable (registry : SourceRegistry)

/-- The hash a content is stored with. -/
def contentHash (content : String) : String := s!"sha256:{registry.sha256 content}"

/-- The record of a source that is received. -/
def received (command : SourceRegistration) (access : KnowledgeAccessContext) (now : Datetime) :
    SourceVersionRecord where
  tenantId := access.tenantId.val
  organizationId := access.organizationId.val
  workspaceId := access.workspaceId.val
  sourceId := command.sourceId
  sourceVersion := command.sourceVersion
  title := command.title
  sourceType := command.sourceType
  dataClassification := command.dataClassification
  storageUri := command.storageUri
  contentHash := contentHash registry command.content
  content := command.content
  documentId := command.documentId
  status := .received
  createdBy := access.actorId.val
  createdAt := now

/-- `register`: a new version, the same version again, or a refusal. -/
def register (command : SourceRegistration) (access : KnowledgeAccessContext) (now : Datetime) :
    Op SourceVersionRecord := do
  .ofExcept (requireScope access "scope.sources.write")
  .raiseIf (Blank command.content) (.source "source content must not be blank")
  let received := received registry command access now
  let s ← .get
  match s.classifications.get? received.key.source with
  | some (_, classification) =>
      .raiseIf (classification ≠ command.dataClassification)
        (.source "source classification is immutable")
  | none => pure ()
  match s.versions.get? received.key with
  | some existing =>
      -- the same content again is no error
      if existing.contentHash = received.contentHash then pure existing
      else .raise (.source "immutable source version already exists")
  | none => do
      .modify fun s => { s with
        classifications := s.classifications.put (received.key.source, command.dataClassification)
        versions := s.versions.put received }
      record access command.sourceId "source.version.registered" "RECEIVED"
      pure received

/-- `verify`: a version that is found in the place of the caller, unless it is retired. -/
def verify (sourceId sourceVersion : String) (access : KnowledgeAccessContext) (now : Datetime) :
    Op SourceVersionRecord := do
  .ofExcept (requireScope access "scope.sources.verify")
  let s ← .get
  match s.versions.get? ⟨⟨access.tenantId.val, access.workspaceId.val, sourceId⟩, sourceVersion⟩ with
  | none => .raise (.source "source version was not found in workspace")
  | some current =>
      .raiseIf (current.organizationId ≠ access.organizationId.val)
        (.source "source version was not found in workspace")
      .raiseIf (current.status = .retired) (.source "retired source cannot be verified")
      let updated := { current with
        status := .verified
        verifiedBy := some access.actorId.val
        verifiedAt := some now }
      .modify fun s => { s with versions := s.versions.put updated }
      record access sourceId "source.version.verified" "VERIFIED"
      pure updated

/-! ## The search -/

/-- The record may be shown in the context. -/
def Visible (access : KnowledgeAccessContext) (record : SourceVersionRecord) : Prop :=
  record.tenantId = access.tenantId.val ∧ record.organizationId = access.organizationId.val ∧
    record.workspaceId = access.workspaceId.val ∧ record.status = .verified ∧
    rank record.dataClassification ≤ rank access.dataClassification

instance (access : KnowledgeAccessContext) (record : SourceVersionRecord) :
    Decidable (Visible access record) :=
  inferInstanceAs (Decidable (_ ∧ _ ∧ _ ∧ _ ∧ _))

/-- `[a-z0-9_]`. -/
def isTermChar (c : Char) : Bool := c.isLower || c.isDigit || c = '_'

/-- `set(re.findall(r"[a-z0-9_]+", query.casefold()))`. -/
def terms (query : String) : List (List Char) :=
  (((registry.casefold query).toList.splitOnP fun c => ! isTermChar c).filter (· ≠ [])).dedup

/-- A chunk that a term occurs in. -/
structure Candidate where
  score : ℕ
  source : SourceVersionRecord
  chunk : Chunk

/-- How many terms of the query a chunk mentions, once each. -/
def score (terms : List (List Char)) (chunk : Chunk) : ℕ :=
  (terms.filter fun term => term <:+: (registry.casefold (String.ofList chunk.text)).toList).length

/-- The candidates in the records, which are read in their order. -/
def candidatesOf (terms : List (List Char)) (records : List SourceVersionRecord) :
    List Candidate :=
  records.flatMap fun source =>
    ((chunkContent source.sourceId source.sourceVersion source.content).map fun chunk =>
      Candidate.mk (score registry terms chunk) source chunk).filter fun candidate =>
        candidate.score ≠ 0

/-- `(-score, -created_at, chunk_index)` is not behind. -/
def Candidate.Before (a b : Candidate) : Prop :=
  b.score < a.score ∨ a.score = b.score ∧ (b.source.createdAt < a.source.createdAt ∨
    a.source.createdAt = b.source.createdAt ∧ a.chunk.index ≤ b.chunk.index)

instance (a b : Candidate) : Decidable (a.Before b) :=
  inferInstanceAs (Decidable (_ ∨ _ ∧ (_ ∨ _ ∧ _)))

/-- `_canonical_id`: a label and the start of a hash. -/
def canonicalId (label seed : String) : String :=
  s!"{label}_{String.ofList ((registry.sha256 seed).toList.take 24)}"

/-- An excerpt of a source, about to be registered as evidence. -/
structure Passage where
  source : SourceVersionRecord
  chunk : Chunk
  excerpt : String

namespace Passage

variable (passage : Passage)

/-- The id of a passage, by its citation and its text. -/
def evidenceId : String :=
  canonicalId registry "evidence" s!"{passage.chunk.citation}:{registry.sha256 passage.excerpt}"

/-- The payload of the evidence. -/
def payload (access : KnowledgeAccessContext) : Json.Fields :=
  [("tenant_id", .str access.tenantId.val),
    ("organization_id", .str access.organizationId.val),
    ("workspace_id", .str access.workspaceId.val),
    ("evidence_id", .str (passage.evidenceId registry)),
    ("source_id", .str passage.source.sourceId),
    ("uri", .str passage.source.storageUri),
    ("captured_at", .str (isoformat passage.source.createdAt)),
    ("content_hash", .str passage.source.contentHash),
    ("source_version", .str passage.source.sourceVersion),
    ("anchor", .str passage.chunk.anchor),
    ("excerpt", .str passage.excerpt),
    ("data_classification", .str (text passage.source.dataClassification)),
    ("validation_status", .str "VALID"),
    ("metadata", .obj [
      ("citation_key", .str passage.chunk.citation),
      ("chunk_index", .int passage.chunk.index)])]

/-- A passage as an item of the context bundle. -/
def item : Json :=
  .obj [("key", .str passage.chunk.citation),
    ("value", .str passage.excerpt),
    ("source_id", .str passage.source.sourceId),
    ("evidence_id", .str (passage.evidenceId registry)),
    ("source_version", .str passage.source.sourceVersion),
    ("content_hash", .str passage.source.contentHash),
    ("anchor", .str passage.chunk.anchor),
    ("data_classification", .str (text passage.source.dataClassification))]

end Passage

/-- `items` and `evidence_refs`. -/
structure Collected where
  items : List Json := []
  evidenceRefs : List Json := []

/-- The loop over the candidates. Evidence that is registered stays when a later
passage is refused. -/
def collect (access : KnowledgeAccessContext) (limit : Int) :
    List Candidate → Int → Collected → EvidenceTable → Except SourceError Collected × EvidenceTable
  | [], _, collected, evidence => (.ok collected, evidence)
  | candidate :: rest, remaining, collected, evidence =>
      if limit ≤ collected.items.length ∨ remaining ≤ 0 then (.ok collected, evidence)
      else
        let excerpt := rstrip (candidate.chunk.text.take remaining.toNat)
        -- `break`: no later candidate is tried
        if excerpt = [] then (.ok collected, evidence)
        else
          let passage : Passage := ⟨candidate.source, candidate.chunk, String.ofList excerpt⟩
          match registry.toEvidenceRegistry.register evidence (passage.payload registry access) with
          | .error e => (.error (.evidence e), evidence)
          | .ok (ref, evidence') =>
              collect access limit rest (remaining - excerpt.length)
                ⟨collected.items ++ [passage.item registry], collected.evidenceRefs ++ [.obj ref]⟩
                evidence'

/-- `timedelta(minutes=30)`. -/
def contextLifetime : Int := 30 * 60 * 1000000

/-- The context bundle of what was collected. -/
def bundle (query : String) (access : KnowledgeAccessContext) (collected : Collected)
    (now : Datetime) : Json.Fields :=
  [("context_id", .str (canonicalId registry "context"
      s!"{access.correlationId.val}:{query}:{collected.items.length}")),
    ("tenant_id", .str access.tenantId.val),
    ("organization_id", .str access.organizationId.val),
    ("workspace_id", .str access.workspaceId.val),
    ("actor_id", .str access.actorId.val),
    ("correlation_id", .str access.correlationId.val),
    ("scope_refs", .arr (access.scopeRefs.val.sort.map .str)),
    ("created_at", .str (isoformat now)),
    ("expires_at", .str (isoformat (now + contextLifetime))),
    ("items", .arr collected.items),
    ("evidence_refs", .arr collected.evidenceRefs)]

/-- The contract of the bundle. -/
def contextBundleSchema : String :=
  "https://schemas.alos.dev/v1/context/context-bundle.schema.json"

/-- What is checked of a search. -/
def checkSearch (query : String) (access : KnowledgeAccessContext) (limit maxCharacters : Int) :
    Except SourceError Unit := do
  requireScope access "scope.sources.read"
  if Blank query then
    throw (.source "source query must not be blank")
  if ¬ (1 ≤ limit ∧ limit ≤ 50) then
    throw (.source "source result limit must be between 1 and 50")
  if ¬ (1 ≤ maxCharacters ∧ maxCharacters ≤ 60000) then
    throw (.source "source character budget must be between 1 and 60000")

/-- The candidates of a query among the records, the best first. -/
def candidates (query : String) (access : KnowledgeAccessContext)
    (records : List SourceVersionRecord) : List Candidate :=
  (candidatesOf registry (terms registry query)
    (records.filter fun record => Visible access record)).insertionSort Candidate.Before

/-- `search_context` up to the append. -/
def search (query : String) (access : KnowledgeAccessContext) (limit maxCharacters : Int)
    (now : Datetime) (s : State) : Except SourceError Json.Fields × EvidenceTable :=
  match checkSearch query access limit maxCharacters with
  | .error e => (.error e, s.evidence)
  | .ok () =>
      match collect registry access limit (candidates registry query access s.versions.values)
          maxCharacters {} s.evidence with
      | (.error e, evidence) => (.error e, evidence)
      | (.ok collected, evidence) =>
          ((registry.contracts.validate contextBundleSchema
            (bundle registry query access collected now)).mapError .contract, evidence)

/-- `search_context`: selects, registers the evidence, validates the bundle, then records the
event. -/
def searchContext (query : String) (access : KnowledgeAccessContext) (now : Datetime)
    (limit : Int := 12) (maxCharacters : Int := 12000) : Op Json.Fields := do
  let s ← .get
  let (result, evidence) := search registry query access limit maxCharacters now s
  -- evidence that is registered stays, also when the search raises
  .modify fun s => { s with evidence := evidence }
  let validated ← .ofExcept result
  record access (Py.str registry.repr ((validated.get? "context_id").getD .null))
    "source.context.retrieved" "SUCCESS"
  pure validated

end Operations

end Alos.Sources
