import Alos.Contracts
import Alos.Registry.Reads

/-! # The capability registry

`CapabilityRegistry` of `alos.capabilities.registry`: the catalog that it shows a
principal, and the detail of one capability.
-/

namespace Alos.Registry

open Py

def capabilityDefinitionSchemaId : String :=
  "https://schemas.alos.dev/v1/capability/capability-definition.schema.json"

/-- `CapabilityRegistry(contracts, audit)`, over a store of its own. -/
def capabilityRegistry {κ : Type} (store : κ) : VersionedContractRegistry κ where
  subjectType := "capability"
  schemaId := capabilityDefinitionSchemaId
  idField := "capability_id"
  versionField := "version"
  store := store

/-- What a snapshot raises: `missing` is a `KeyError`. -/
inductive CatalogError where
  | read (e : ReadError)
  | missing (key : String)
deriving DecidableEq, Repr

/-- The keywords of an item, if its metadata has a list of them. -/
def keywords (payload : Json.Fields) : Json.Fields :=
  match payload.get? "metadata" with
  | some (.obj metadata) =>
      match Json.Fields.get? metadata "keywords" with
      | some (.arr keywords) => [("keywords", .arr keywords)]
      | _ => []
  | _ => []

def catalogItem (entry : RegistryEntry) : Except String Json := do
  let payload := entry.payload
  let name ← item payload "name"
  let purpose ← item payload "purpose"
  let capabilityType ← item payload "capability_type"
  return .obj ([
    ("capability_id", .str entry.subjectId),
    ("version", .str entry.version),
    ("name", name),
    ("purpose", purpose),
    ("capability_type", capabilityType),
    ("risk_level", (payload.get? "risk_level").getD (.str "MEDIUM")),
    ("availability", (payload.get? "availability").getD (.str "AVAILABLE")),
    ("configuration_status", (payload.get? "configuration_status").getD (.str "CONFIGURED")),
    ("backing_tool_ids", (payload.get? "backing_tool_ids").getD (.arr [])),
    ("permission_refs", (payload.get? "permission_refs").getD (.arr [])),
    ("scope_refs", (payload.get? "scope_refs").getD (.arr []))] ++ keywords payload)

def catalogSnapshot (entries : Table RegistryEntry.key) (principal : Principal) :
    Except CatalogError (List Json) := do
  let authorized ← (listAuthorizedEntries entries (some principal)).mapError .read
  (authorized.mapM catalogItem).mapError .missing

/-! ## Details -/

def capabilityDetailSchemaId : String :=
  "https://schemas.alos.dev/v1/capability/capability-detail.schema.json"

/-- What a detail raises: `lookup` is a `LookupError`, `missing` a `KeyError` and
`invalid` a `ValueError`. -/
inductive DetailError where
  | read (e : ReadError)
  | lookup (message : String)
  | missing (key : String)
  | invalid (message : String)
deriving DecidableEq, Repr

/-- `list(value)`. -/
def listOf (value : Json) : Except DetailError Json :=
  match iter value with
  | none => .error (.read .typeError)
  | some values => .ok (.arr values)

/-- `payload[key]`. -/
def required (payload : Json.Fields) (key : String) : Except DetailError Json :=
  (item payload key).mapError .missing

/-- What the payload declares under `key`, or else the metadata. -/
def declared (payload metadata : Json.Fields) (key : String) : Json :=
  Py.or (Py.or (RegistryAuthorityView.field payload key) (RegistryAuthorityView.field metadata key))
    (.arr [])

/-- `if value: detail[key] = list(value)`. -/
def listed (key : String) (value : Json) : Except DetailError Json.Fields := do
  if truthy value then return [(key, ← listOf value)] else return []

/-- `if id: detail[key] = id`. -/
def identified (key : String) : Option String → Json.Fields
  | none => []
  | some id => if id = "" then [] else [(key, .str id)]

/-- `_detail_projection`. -/
def detailProjection (entry : RegistryEntry) : Except DetailError Json.Fields := do
  let payload := entry.payload
  let field := RegistryAuthorityView.field payload
  let metadata : Json.Fields := match payload.get? "metadata" with
    | some (.obj metadata) => metadata
    | _ => []
  let isDraft := entry.state = .draft
  let name ← required payload "name"
  let purpose ← required payload "purpose"
  let owner ← required payload "owner"
  let capabilityType ← required payload "capability_type"
  let scopeRefs ← listOf (Py.or (field "scope_refs") (.arr []))
  let permissionRefs ← listOf (Py.or (field "permission_refs") (.arr []))
  let tools ← listOf (Py.or (Py.or (field "backing_tool_ids") (field "tool_ids")) (.arr []))
  let prohibited ← listOf (declared payload metadata "prohibited_actions")
  let evidence ← listOf (declared payload metadata "evidence_requirements")
  let tests ← listOf (declared payload metadata "test_requirements")
  let dependencies ← listed "dependency_refs" (declared payload metadata "dependency_refs")
  let constraints ← listed "constraints" (Py.or (field "constraints") (.arr []))
  return [
    ("capability_id", .str entry.subjectId),
    ("version", .str entry.version),
    ("name", name),
    ("purpose", purpose),
    ("owner", owner),
    ("capability_type", capabilityType),
    ("lifecycle_state", .str entry.state.value),
    ("risk_level", (payload.get? "risk_level").getD (.str "MEDIUM")),
    ("availability", Py.or (field "availability")
      (.str (if isDraft then "UNAVAILABLE" else "AVAILABLE"))),
    ("configuration_status", Py.or (field "configuration_status") (.str "NEEDS_CONFIGURATION")),
    ("scope_refs", scopeRefs),
    ("permission_refs", permissionRefs),
    ("backing_tool_ids", tools),
    ("prohibited_actions", prohibited),
    ("evidence_requirements", evidence),
    ("test_requirements", tests),
    ("human_gate_required",
      .bool (truthy ((Json.Fields.get? metadata "human_gate_required").getD (.bool true)))),
    ("created_by", .str entry.createdBy),
    ("correlation_id", .str entry.correlationId),
    ("created_at", .str (isoformatOffset entry.createdAt))] ++
    dependencies ++ constraints ++ identified "decision_id" entry.decisionId ++
    identified "release_id" entry.releaseId

/-- The projection of an entry, validated. -/
def project (contracts : CanonicalContractCatalog) (entry : RegistryEntry) :
    Except DetailError Json.Fields := do
  let projection ← detailProjection entry
  match contracts.validate capabilityDetailSchemaId projection with
  | .ok detail => return detail
  | .error (.invalid ..) =>
      throw (.invalid "capability detail projection failed contract validation")
  | .error (.unavailable schemaId) => throw (.invalid (ContractError.unavailable schemaId).text)

def notFoundMessage : String := "capability version was not found in tenant workspace"

/-- Only an own draft and an active version are read. -/
def requireReadable (principal : Principal) (entry : RegistryEntry) : Except DetailError Unit :=
  let authorize : Except ReadError Unit := do
    (← RegistryAuthorityView.fromEntry entry).authorize principal
  match entry.state with
  | .draft => do
      .require (entry.createdBy = principal.actorId) (.lookup notFoundMessage)
      authorize.mapError .read
  | .active => authorize.mapError .read
  | .approved | .suspended | .retired => .error (.lookup notFoundMessage)

def detail (contracts : CanonicalContractCatalog) (entries : Table RegistryEntry.key)
    (tenantId workspaceId capabilityId : String) (principal : Option Principal)
    (version : Option String := none) : Except DetailError Json.Fields :=
  match principal with
  | none => .error (.read (.unauthorized "principal is required"))
  | some principal => do
      let registered ← (listEntries entries tenantId principal.organizationId workspaceId
        (some capabilityId)).mapError DetailError.read
      let selected := match version with
        | none => registered.getLast?
        | some version => (registered.filter (·.version = version)).head?
      match selected with
      | none => throw (DetailError.lookup notFoundMessage)
      | some entry => do
          requireReadable principal entry
          project contracts entry

end Alos.Registry
