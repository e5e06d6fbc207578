import Alos.Table
import Alos.Tools.SourceContext

/-! # Sources

The records of `alos.sources.models`.
-/

namespace Alos.Sources

open Py Tools

/-- The place of a classification in `_CLASSIFICATION_RANK`. -/
def rank : DataClassification → ℕ
  | .«public» => 0
  | .internal => 1
  | .confidential => 2
  | .restricted => 3

/-- The text of a classification, as it is stored and compared. -/
def text : DataClassification → String
  | .«public» => "PUBLIC"
  | .internal => "INTERNAL"
  | .confidential => "CONFIDENTIAL"
  | .restricted => "RESTRICTED"

/-- A version is received, then verified, and later retired. -/
inductive SourceStatus where
  | received
  | verified
  | retired
deriving DecidableEq, Repr

/-- What a source was made from. -/
inductive SourceType where
  | docx
  | pdf
  | text
  | url
deriving DecidableEq, Repr

/-- What a caller hands in to register a version of a source. -/
structure SourceRegistration where
  sourceId : String
  sourceVersion : String
  title : String
  sourceType : SourceType := .text
  dataClassification : DataClassification := .internal
  storageUri : String
  content : String
  documentId : Option String := none

/-- `(tenant_id, workspace_id, source_id)`. -/
structure SourceKey where
  tenantId : String
  workspaceId : String
  sourceId : String
deriving DecidableEq, Repr

/-- `(tenant_id, workspace_id, source_id, source_version)`. -/
structure VersionKey where
  source : SourceKey
  sourceVersion : String
deriving DecidableEq, Repr

/-- A version of a source as it is stored, with who registered it and who verified it. -/
structure SourceVersionRecord where
  tenantId : String
  organizationId : String
  workspaceId : String
  sourceId : String
  sourceVersion : String
  title : String
  sourceType : SourceType
  dataClassification : DataClassification
  storageUri : String
  contentHash : String
  content : String
  documentId : Option String
  status : SourceStatus
  createdBy : String
  createdAt : Datetime
  verifiedBy : Option String := none
  verifiedAt : Option Datetime := none

/-- Versions are stored under tenant, workspace, source and version. The organization is no part of
it. -/
def SourceVersionRecord.key (record : SourceVersionRecord) : VersionKey :=
  ⟨⟨record.tenantId, record.workspaceId, record.sourceId⟩, record.sourceVersion⟩

end Alos.Sources
