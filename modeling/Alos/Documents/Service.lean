import Alos.Audit
import Alos.Coop.Lock
import Alos.Sources.Models

/-! # The document registry

`DocumentRegistry` of `alos.documents.service`. A call changes the dicts in one step,
under the lock, and only then awaits the append of its event.

* `register` and `addVersion` compare what is stored already with what they are given;
* `get` reads a document and its versions.
-/

namespace Alos.Documents

open Coop Py Sources Tools

/-- `Field(min_length=1, max_length=limit)`. -/
abbrev Text (limit : ℕ) := {text : String // 1 ≤ text.length ∧ text.length ≤ limit}

def Text.parse (limit : ℕ) (text : String) : Option (Text limit) :=
  if h : 1 ≤ text.length ∧ text.length ≤ limit then some ⟨text, h⟩ else none

inductive DocumentStatus where
  | draft
  | inReview
  | approved
  | rejected
  | retired
deriving DecidableEq, Repr

/-- `(tenant_id, workspace_id, document_id)`. -/
structure DocumentKey where
  tenantId : String
  workspaceId : String
  documentId : String
deriving DecidableEq, Repr

structure DocumentMetadata where
  documentId : Identifier
  tenantId : Identifier
  organizationId : Identifier
  workspaceId : Identifier
  title : Text 500
  category : Text 128
  dataClassification : DataClassification
  status : DocumentStatus := .draft
  ownerActorId : Identifier
  createdAt : Datetime

def DocumentMetadata.key (document : DocumentMetadata) : DocumentKey :=
  ⟨document.tenantId.val, document.workspaceId.val, document.documentId.val⟩

structure DocumentVersion where
  documentId : String
  version : String
  sourceId : String
  sourceVersion : String
  storageUri : String
  contentHash : String
  createdBy : String
  createdAt : Datetime
deriving DecidableEq

/-- A version, and the place that it is filed in. -/
structure Filed where
  tenantId : String
  workspaceId : String
  version : DocumentVersion

/-- `(tenant_id, workspace_id, document_id, version)`. -/
structure VersionKey where
  document : DocumentKey
  version : String
deriving DecidableEq, Repr

def Filed.key (filed : Filed) : VersionKey :=
  ⟨⟨filed.tenantId, filed.workspaceId, filed.version.documentId⟩, filed.version.version⟩

/-- What a method raises: `invalid` is a `ValidationError`, `audit` is whatever the
audit sink raised. -/
inductive DocumentError where
  | registry (message : String)
  | invalid
  | audit
deriving DecidableEq, Repr

/-- `_documents` and `_versions`. -/
structure State where
  documents : Table DocumentMetadata.key
  versions : Table Filed.key

def State.empty : State := ⟨.empty, .empty⟩

abbrev Op (α : Type) := Proc State AuditEvent (fun _ => Appended) DocumentError α

def requireScope (access : KnowledgeAccessContext) (scope : String) : Except DocumentError Unit :=
  if scope ∈ access.scopeRefs.val then .ok ()
  else .error (.registry s!"required scope is missing: {scope}")

def auditEvent (access : KnowledgeAccessContext) (entityId eventType outcome : String) :
    AuditEvent where
  eventType := eventType
  entityType := "document"
  entityId := entityId
  tenantId := access.tenantId.val
  organizationId := access.organizationId.val
  workspaceId := access.workspaceId.val
  actorId := access.actorId.val
  correlationId := access.correlationId.val
  outcome := outcome
  reason := "Authoritative document metadata operation"

def settleAppend : Appended → Op Unit
  | .returned => pure ()
  | .raised => .raise .audit

/-- `_record`. -/
def record (access : KnowledgeAccessContext) (entityId eventType outcome : String) : Op Unit := do
  settleAppend (← .ask (auditEvent access entityId eventType outcome))

/-- `DocumentMetadata(...)`, which checks the texts that it is given. -/
def documentMetadata (documentId title category : String) (dataClassification : DataClassification)
    (access : KnowledgeAccessContext) (now : Datetime) : Option DocumentMetadata := do
  let documentId ← Identifier.parse documentId
  let title ← Text.parse 500 title
  let category ← Text.parse 128 category
  return {
    documentId := documentId
    tenantId := access.tenantId
    organizationId := access.organizationId
    workspaceId := access.workspaceId
    title := title
    category := category
    dataClassification := dataClassification
    ownerActorId := access.actorId
    createdAt := now }

/-- The document that is stored is the one that is registered. -/
def SameDocument (existing document : DocumentMetadata) : Prop :=
  existing.organizationId = document.organizationId ∧ existing.title = document.title ∧
    existing.category = document.category ∧
    existing.dataClassification = document.dataClassification ∧
    existing.ownerActorId = document.ownerActorId

instance (existing document : DocumentMetadata) : Decidable (SameDocument existing document) :=
  inferInstanceAs (Decidable (_ ∧ _ ∧ _ ∧ _ ∧ _))

def register (documentId title category : String) (dataClassification : DataClassification)
    (access : KnowledgeAccessContext) (now : Datetime) : Op DocumentMetadata := do
  .ofExcept (requireScope access "scope.documents.write")
  match documentMetadata documentId title category dataClassification access now with
  | none => .raise .invalid
  | some document => do
      let s ← .get
      match s.documents.get? document.key with
      | some existing =>
          if SameDocument existing document then pure existing
          else .raise (.registry "document_id already exists")
      | none => do
          .modify fun s => { s with documents := s.documents.put document }
          record access documentId "document.registered" "DRAFT"
          pure document

/-- The place of a document, for the context. -/
def documentKey (access : KnowledgeAccessContext) (documentId : String) : DocumentKey :=
  ⟨access.tenantId.val, access.workspaceId.val, documentId⟩

def addVersion (version : DocumentVersion) (access : KnowledgeAccessContext) :
    Op DocumentVersion := do
  .ofExcept (requireScope access "scope.documents.write")
  let filed : Filed := ⟨access.tenantId.val, access.workspaceId.val, version⟩
  let s ← .get
  -- the organization of the document is not compared
  match s.documents.get? (documentKey access version.documentId) with
  | none => .raise (.registry "document was not found in workspace")
  | some _ =>
      match s.versions.get? filed.key with
      | some existing =>
          if existing.version = version then pure existing.version
          else .raise (.registry "immutable document version already exists")
      | none => do
          .modify fun s => { s with versions := s.versions.put filed }
          record access version.documentId "document.version.registered" version.version
          pure version

/-- The versions that are filed under the document, in the order of the dict. -/
def State.versionsOf (s : State) (key : DocumentKey) : List DocumentVersion :=
  (s.versions.values.filter fun filed => filed.key.document = key).map Filed.version

def get (documentId : String) (access : KnowledgeAccessContext) :
    Op (DocumentMetadata × List DocumentVersion) := do
  .ofExcept (requireScope access "scope.documents.read")
  let s ← .get
  match s.documents.get? (documentKey access documentId) with
  | none => .raise (.registry "document was not found in workspace")
  | some document => do
      .raiseIf (document.organizationId ≠ access.organizationId)
        (.registry "document was not found in workspace")
      pure (document, s.versionsOf (documentKey access documentId))

end Alos.Documents
