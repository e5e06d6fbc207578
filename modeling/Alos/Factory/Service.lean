import Mathlib.Data.Finset.Sort
import Alos.Coop.Embed
import Alos.Errors
import Alos.Registry.Capabilities

/-! # The Factory

`FactoryOrchestrator.analyze` of `alos.factory.service`, in its order: the
request (`request`), the answer of GENESIS (`consult`), the checks of what it
proposes (`resolve`), and the registrations (`create`).
-/

namespace Alos.Factory

open Coop Py Registry

/-- What `analyze` raises. `contract`, `catalog` and `registry` are the errors
of these components that are not turned into a `PlatformError`; `genesis` is
whatever else the client raised. -/
inductive FactoryError where
  | platform (e : PlatformError)
  | contract (e : ContractError)
  | catalog (e : CatalogError)
  | registry (e : RegistryError)
  | missing (key : String)
  | typeError
  | genesis

/-- The fields of a `GenesisClientError` that are read. -/
structure GenesisClientError where
  code : String
  message : String
  retryable : Bool

/-- How `analyze_factory` ends. -/
inductive GenesisAnswer where
  | returned (result : Json.Fields)
  | failed (e : GenesisClientError)
  | raised

/-- What an analysis waits for: GENESIS, or what a registration waits for. -/
inductive Question (ι : Type) where
  | genesis (request : Json.Fields)
  | registry (question : Registry.Question ι)

/-- The answers of either. -/
@[reducible] def Answer {ι : Type} : Question ι → Type
  | .genesis _ => GenesisAnswer
  | .registry question => Registry.Answer question

/-- One coroutine of the factory. -/
abbrev Op (ι κ α : Type) := Proc (Memory ι κ) (Question ι) Answer FactoryError α

/-- The contract of what the client sends. -/
def publicRequestSchema : String :=
  "https://schemas.alos.dev/v1/factory/factory-analyze-request.schema.json"

/-- The contract of what is sent to GENESIS. -/
def internalRequestSchema : String :=
  "https://schemas.alos.dev/v1/factory/factory-analysis-request.schema.json"

/-- The contract of what GENESIS answers. -/
def internalResultSchema : String :=
  "https://schemas.alos.dev/v1/factory/factory-analysis-result.schema.json"

/-- The contract of what the client gets. -/
def publicResponseSchema : String :=
  "https://schemas.alos.dev/v1/factory/factory-analyze-response.schema.json"

/-- The registries that a Factory works on, which share its contracts. -/
structure FactoryOrchestrator (ι κ : Type) extends Registries ι κ where
  capabilities : ι
  agents : ι
  capabilities_registry : ∃ k, registry capabilities = capabilityRegistry k
  agents_registry : ∃ k, registry agents = agentRegistry k

/-- A refusal of what GENESIS answered. -/
def refusal (code message : String) (correlationId : String) (statusCode : ℕ := 502)
    (details : Option Json.Fields := none) : FactoryError :=
  .platform {
    code := code
    message := message
    statusCode := statusCode
    details := details
    correlationId := some correlationId }

/-- A list of texts. -/
def texts (values : List String) : Json := .arr (values.map .str)

/-- `d[key]`. -/
def required (fields : Json.Fields) (key : String) : Except FactoryError Json :=
  (item fields key).mapError .missing

section Checks

variable {ι κ : Type} (F : FactoryOrchestrator ι κ)

/-- `_validate_client_request`: a request that breaks its contract is refused with 422. -/
def validateClientRequest (payload : Json.Fields) (correlationId : String) :
    Except FactoryError Json.Fields :=
  match F.contracts.validate publicRequestSchema payload with
  | .ok validated => .ok validated
  | .error (.invalid _ path reason) =>
      .error (refusal "FACTORY_REQUEST_INVALID"
        "Factory request does not satisfy the canonical contract." correlationId 422
        (some [("path", .str path), ("reason", .str reason)]))
  | .error e => .error (.contract e)

/-- `_execution_context`: built from the principal and from nothing else. -/
def executionContext (principal : Principal) (correlationId : String) : Json.Fields :=
  let roles := principal.roles.sort
  [("tenant_id", .str principal.tenantId),
    ("organization_id", .str principal.organizationId),
    ("workspace_id", .str principal.workspaceId),
    ("actor_id", .str principal.actorId),
    ("authority_context", .obj [
      ("role", .str (roles.headD "AUTHENTICATED_USER")),
      ("role_refs", texts roles),
      ("authority_level", .str "REQUESTER")]),
    ("permission_refs", texts principal.permissions.sort),
    ("scope_refs", texts principal.scopes.sort),
    ("data_classification", .str "INTERNAL"),
    ("correlation_id", .str correlationId)]

/-- The type that the client prefers, unless it is `None`. -/
def preference (publicRequest : Json.Fields) : Json.Fields :=
  match publicRequest.get? "preferred_capability_type" with
  | none | some .null => []
  | some preferred => [("preferred_capability_type", preferred)]

/-- The request to GENESIS. -/
def request (entries : Table RegistryEntry.key) (payload : Json.Fields) (principal : Principal)
    (correlationId : String) : Except FactoryError Json.Fields := do
  let publicRequest ← validateClientRequest F payload correlationId
  if ¬ principal.active then
    throw (refusal "INACTIVE_PRINCIPAL" "The authenticated principal is inactive." correlationId 403)
  if principal.scopes = ∅ then
    throw (refusal "FACTORY_SCOPE_REQUIRED"
      "At least one Backend-authorized scope is required." correlationId 403)
  let statement ← required publicRequest "requirement"
  let catalog ← (catalogSnapshot entries principal).mapError .catalog
  let internalRequest : Json.Fields := [
    ("requirement", .obj ([
      ("execution_context", .obj (executionContext principal correlationId)),
      ("requirement_id", .str s!"req_{correlationId}"),
      ("statement", statement)] ++ preference publicRequest)),
    ("capability_catalog", .arr catalog)]
  let _ ← (F.contracts.validate internalRequestSchema internalRequest).mapError .contract
  return internalRequest

/-- What the client raises, for the caller. -/
def clientRefusal (e : GenesisClientError) (correlationId : String) : FactoryError :=
  .platform {
    code := e.code
    message := e.message
    statusCode := if e.code = "GENESIS_TIMEOUT" ∨ e.code = "GENESIS_UNAVAILABLE" then 503 else 502
    retryable := e.retryable
    correlationId := some correlationId }

/-- `understanding.get(key)` of a resolution, if there is an understanding; `None`
is nothing. -/
def understood (resolution : Json.Fields) (key : String) : Option Json :=
  match resolution.get? "understanding" with
  | some (.obj understanding) =>
      match Json.Fields.get? understanding key with
      | none | some .null => none
      | some value => some value
  | _ => none

/-- `_require_requirement_linkage`: a requirement that the answer names is that of the request. -/
def requireRequirementLinkage (resolution : Json.Fields) (correlationId : String) :
    Except FactoryError Unit :=
  match understood resolution "requirement_id" with
  | none => .ok ()
  | some supplied =>
      if EqText supplied s!"req_{correlationId}" then .ok ()
      else .error (refusal "GENESIS_FACTORY_RESPONSE_INVALID"
        "GENESIS altered the Backend-owned requirement linkage." correlationId)

/-- `_fail_closed_on_ambiguity`: an ambiguous requirement creates nothing. -/
def failClosedOnAmbiguity (resolution : Json.Fields) (correlationId : String) :
    Except FactoryError Unit :=
  match understood resolution "ambiguity" with
  | none => .ok ()
  | some ambiguity =>
      if EqText ambiguity "NEEDS_CLARIFICATION" then
        .error (refusal "REQUIREMENT_AMBIGUOUS"
          ("The requirement needs more information before a capability proposal " ++
            "can be governed.") correlationId 422 (some [("ambiguity", ambiguity)]))
      else .ok ()

/-- Only the value `False` is refused. -/
def requireHumanGate (draft : Json.Fields) (correlationId : String) : Except FactoryError Unit :=
  match draft.get? "human_gate_required" with
  | some (.bool false) =>
      .error (refusal "GENESIS_HUMAN_GATE_REQUIRED"
        "Backend governance requires a human gate; the proposal cannot remove it." correlationId)
  | _ => .ok ()

/-- `draft.get(name) == value`. -/
def Carries (draft : Json.Fields) (name value : String) : Prop :=
  ∃ supplied ∈ draft.get? name, EqText supplied value

instance (draft : Json.Fields) (name value : String) : Decidable (Carries draft name value) := by
  unfold Carries
  infer_instance

/-- `_require_authority_context`: a draft names the principal's place and the request's id. -/
def requireAuthorityContext (draft : Json.Fields) (principal : Principal) (correlationId : String) :
    Except FactoryError Unit :=
  let expected := [("tenant_id", principal.tenantId), ("organization_id", principal.organizationId),
    ("workspace_id", principal.workspaceId), ("correlation_id", correlationId)]
  let mismatches := (expected.filter fun (name, value) => ¬ Carries draft name value).map Prod.fst
  if mismatches = [] then .ok ()
  else .error (refusal "GENESIS_AUTHORITY_CONTEXT_MISMATCH"
    "GENESIS draft changed Backend-owned authority context." correlationId 502
    (some [("fields", texts mismatches)]))

/-- `{str(item) for item in draft.get(name, [])}`. -/
def references (draft : Json.Fields) (name : String) : Except FactoryError (List String) :=
  match iter ((draft.get? name).getD (.arr [])) with
  | none => .error .typeError
  | some items => .ok (items.map (Py.str F.repr)).dedup

/-- The references that are not held, sorted. -/
def lacking (refs : List String) (held : Finset String) : List String :=
  (refs.filter (· ∉ held)).insertionSort (· ≤ ·)

/-- `_authorize_draft`: a draft asks for no permission and no scope that the principal lacks. -/
def authorizeDraft (draft : Json.Fields) (principal : Principal) (correlationId : String) :
    Except FactoryError Unit := do
  let permissions ← references F draft "permission_refs"
  let scopes ← references F draft "scope_refs"
  let missingPermissions := lacking permissions principal.permissions
  let unauthorizedScopes := lacking scopes principal.scopes
  if missingPermissions ≠ [] ∨ unauthorizedScopes ≠ [] then
    throw (refusal "FACTORY_PROPOSAL_NOT_AUTHORIZED"
      "The actor lacks permission or scope required by the proposed capability." correlationId 403
      (some [("missing_permission_refs", texts missingPermissions),
        ("unauthorized_scope_refs", texts unauthorizedScopes)]))

/-- The checks of a capability draft. -/
def checkCapabilityDraft (draft : Json.Fields) (principal : Principal) (correlationId : String) :
    Except FactoryError Unit := do
  requireHumanGate draft correlationId
  requireAuthorityContext draft principal correlationId
  authorizeDraft F draft principal correlationId
  if ¬ Carries draft "owner" principal.actorId then
    throw (refusal "GENESIS_OWNER_MISMATCH"
      "GENESIS cannot assign capability ownership outside Backend authority." correlationId)

/-- `draft.get("agent_definition")`, if it is a dict. -/
def agentDefinition? (draft : Json.Fields) : Option Json.Fields :=
  match draft.get? "agent_definition" with
  | some (.obj definition) => some definition
  | _ => none

/-- The checks of an agent draft and of its definition. -/
def checkAgentDraft (draft : Json.Fields) (principal : Principal) (correlationId : String) :
    Except FactoryError Unit := do
  requireAuthorityContext draft principal correlationId
  authorizeDraft F draft principal correlationId
  match (agentDefinition? draft).filter (Carries · "owner_actor_id" principal.actorId) with
  | none =>
      throw (refusal "GENESIS_OWNER_MISMATCH"
        "GENESIS cannot assign agent ownership outside Backend authority." correlationId)
  | some definition => authorizeDraft F definition principal correlationId

/-- What is left of a result that asks for a creation. -/
structure Proposal where
  resolution : Json.Fields
  capabilityDraft : Json.Fields
  agentDraft : Json

/-- What an answer comes to: what is there already, or something to create. -/
inductive Resolved where
  | reuse (response : Json.Fields)
  | create (proposal : Proposal)

/-- `validated_result["resolution"]`, which is read as a dict. -/
def resolutionOf (result : Json.Fields) : Except FactoryError Json.Fields := do
  match ← required result "resolution" with
  | .obj resolution => return resolution
  | _ => throw .typeError

/-- The response that points at capabilities which exist. -/
def reuseResponse (result resolution : Json.Fields) (correlationId : String) :
    Except FactoryError Json.Fields := do
  let reason ← required resolution "reason"
  let refs ← required result "existing_capability_refs"
  (F.contracts.validate publicResponseSchema [
    ("correlation_id", .str correlationId),
    ("decision", .str "REUSE"),
    ("reason", reason),
    ("existing_capability_refs", refs),
    ("capability_draft", .null),
    ("agent_draft", .null),
    ("registry_result", .null)]).mapError .contract

/-- What follows the answer of GENESIS, up to the registrations. -/
def resolve (result : Json.Fields) (principal : Principal) (correlationId : String) :
    Except FactoryError Resolved := do
  let result ← (F.contracts.validate internalResultSchema result).mapError fun e =>
    refusal "GENESIS_FACTORY_RESPONSE_INVALID"
      "GENESIS Factory response does not satisfy the canonical contract." correlationId 502
      (some [("reason", .str e.text)])
  if ¬ EqText (← required result "correlation_id") correlationId then
    throw (refusal "GENESIS_CORRELATION_MISMATCH"
      "GENESIS must preserve the Backend correlation_id." correlationId)
  let resolution ← resolutionOf result
  let decision ← required resolution "decision"
  requireRequirementLinkage resolution correlationId
  failClosedOnAmbiguity resolution correlationId
  if EqText decision "REUSE" then
    return .reuse (← reuseResponse F result resolution correlationId)
  let capabilityDraft ← required result "capability_draft"
  match capabilityDraft with
  | .obj capabilityDraft =>
      checkCapabilityDraft F capabilityDraft principal correlationId
      let agentDraft ← required result "agent_draft"
      -- a creation needs no agent
      if let .obj agentDraft := agentDraft then
        checkAgentDraft F agentDraft principal correlationId
      return .create ⟨resolution, capabilityDraft, agentDraft⟩
  | _ =>
      throw (refusal "GENESIS_FACTORY_RESPONSE_INVALID"
        "CREATE requires a canonical CapabilityDraft." correlationId)

/-- `_capability_definition`. -/
def capabilityDefinition (draft : Json.Fields) : Except FactoryError Json.Fields := do
  let definition := [
    ("tenant_id", ← required draft "tenant_id"),
    ("organization_id", ← required draft "organization_id"),
    ("workspace_id", ← required draft "workspace_id"),
    ("correlation_id", ← required draft "correlation_id"),
    ("capability_id", ← required draft "capability_id"),
    ("version", ← required draft "version"),
    ("name", ← required draft "name"),
    ("purpose", ← required draft "purpose"),
    ("owner", ← required draft "owner"),
    ("capability_type", ← required draft "capability_type"),
    ("lifecycle_state", .str "DEFINED"),
    ("risk_level", ← required draft "risk_level"),
    ("access_mode", .str "CREATE_DRAFT"),
    ("availability", .str "UNAVAILABLE"),
    ("configuration_status", .str "NEEDS_CONFIGURATION"),
    ("scope_refs", ← required draft "scope_refs"),
    ("permission_refs", ← required draft "permission_refs"),
    ("backing_tool_ids", ← required draft "tool_ids"),
    ("constraints", (draft.get? "constraints").getD (.arr []))]
  let metadata := [
    ("proposal_lifecycle_state", ← required draft "lifecycle_state"),
    ("prohibited_actions", ← required draft "prohibited_actions"),
    ("evidence_requirements", ← required draft "evidence_requirements"),
    ("test_requirements", ← required draft "test_requirements"),
    ("human_gate_required", .bool true)]
  match iter ((draft.get? "dependency_refs").getD (.arr [])) with
  | none => throw .typeError
  | some dependencies =>
      return definition ++ [("metadata", .obj (metadata ++ [("dependency_refs", .arr dependencies)]))]

/-- `_registry_reference`: how an entry is named in a response. -/
def registryReference (entry : RegistryEntry) : Json :=
  .obj [("subject_type", .str entry.subjectType.toUpper), ("identifier", .str entry.subjectId),
    ("version", .str entry.version), ("state", .str entry.state.value)]

/-- The response that points at the drafts. -/
def createResponse (proposal : Proposal) (registered : List RegistryEntry) (correlationId : String) :
    Except FactoryError Json.Fields := do
  let reason ← required proposal.resolution "reason"
  (F.contracts.validate publicResponseSchema [
    ("correlation_id", .str correlationId),
    ("decision", .str "CREATE"),
    ("reason", reason),
    ("existing_capability_refs", .arr []),
    ("capability_draft", .obj proposal.capabilityDraft),
    ("agent_draft", proposal.agentDraft),
    ("registry_result", .obj [
      ("state", .str "DRAFT"),
      ("registered_refs", .arr (registered.map registryReference))])]).mapError .contract

/-- The errors of a registration, for the caller. -/
def registryRefusal (correlationId : String) : RegistryError → FactoryError
  | .conflict message =>
      refusal "FACTORY_REGISTRY_CONFLICT"
        "The proposed immutable registry version conflicts with an existing version."
        correlationId 409 (some [("reason", .str message)])
  | .contract (.invalid schemaId path reason) =>
      refusal "FACTORY_REGISTRY_CONTRACT_INVALID" "The proposed registry definition is invalid."
        correlationId 502 (some [("reason", .str (ContractError.invalid schemaId path reason).text)])
  | e => .registry e

end Checks

/-! ## The call -/

section Calls

variable {ι κ : Type} [DecidableEq ι] [DecidableEq κ] (F : FactoryOrchestrator ι κ)

/-- Asks GENESIS; an error of the client becomes a refusal with 502 or 503. -/
def consult (internalRequest : Json.Fields) (correlationId : String) : Op ι κ Json.Fields := do
  let answer : GenesisAnswer ← .ask (Question.genesis internalRequest)
  match answer with
  | .returned result => pure result
  | .failed e => .raise (clientRefusal e correlationId)
  | .raised => .raise .genesis

/-- `register`, in the authority context of the principal; `now i` is what the
clock says when an entry of the registry `i` is built. -/
def enroll (i : ι) (definition : Json.Fields) (principal : Principal) (correlationId : String)
    (now : ι → Datetime) : Op ι κ RegistryEntry :=
  (Registry.register F.toRegistries i definition principal.tenantId principal.organizationId
    principal.workspaceId principal.actorId correlationId (now i)).embed Question.registry
      (fun _ answer => answer) (registryRefusal correlationId)

/-- Registers the drafts of a proposal, the capability first. -/
def create (proposal : Proposal) (principal : Principal) (correlationId : String)
    (now : ι → Datetime) : Op ι κ Json.Fields := do
  let definition ← .ofExcept (capabilityDefinition proposal.capabilityDraft)
  -- it stays registered when the agent is refused
  let capability ← enroll F F.capabilities definition principal correlationId now
  let registered ← match proposal.agentDraft with
    | .obj agentDraft =>
        match agentDefinition? agentDraft with
        | some definition => do
            let agent ← enroll F F.agents definition principal correlationId now
            pure [capability, agent]
        | none =>
            .raise (refusal "GENESIS_FACTORY_RESPONSE_INVALID"
              "AgentDraft must contain a canonical agent_definition." correlationId)
    | _ => pure [capability]
  .ofExcept (createResponse F proposal registered correlationId)

/-- `analyze`: the request, the answer of GENESIS with every check on it, then the registrations. -/
def analyze (payload : Json.Fields) (principal : Principal) (correlationId : String)
    (now : ι → Datetime) : Op ι κ Json.Fields := do
  let s ← .get
  let internalRequest ← .ofExcept
    (request F (s.entries F.capabilities) payload principal correlationId)
  let result ← consult internalRequest correlationId
  match ← .ofExcept (resolve F result principal correlationId) with
  | .reuse response => pure response
  | .create proposal => create F proposal principal correlationId now

end Calls

end Alos.Factory
