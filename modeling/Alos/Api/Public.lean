import Alos.Authentication.Session
import Alos.Factory.Service
import Alos.Registry.Capabilities
import Alos.Skills.Assigned
import Alos.Skills.Service

/-! # The public routes

The routes of `alos.api.public.routes` that have to do with the registries, over
the application that `create_app` puts together.

* `Application` has one agent registry, which the Factory and the skills share, a
  skill registry over the same store, and a capability registry over a store of its
  own;
* `serve` is what a route does for a principal, and `Application.prog` a request
  from its header on.
-/

namespace Alos.Api

open Coop Py Registry Authentication

inductive Subject where
  | agent
  | skill
  | capability
deriving DecidableEq

/-- The store of `app.state.registry_store`, and that of the capabilities. -/
inductive StoreName where
  | registry
  | capabilities
deriving DecidableEq

/-- The settings of an application, and what it takes from its libraries. -/
structure Application where
  contracts : CanonicalContractCatalog
  library : Authentication.Library
  registryStore : StoreKind
  whole : FloatText → Option Int
  isDigit : Char → Bool
  decimal : Char → Option ℕ

namespace Application

variable (b : Application)

def registries : Registries Subject StoreName where
  contracts := b.contracts
  sha256 := b.library.sha256
  repr := b.library.repr
  registry
    | .agent => agentRegistry .registry
    | .skill => skillRegistry .registry
    | .capability => capabilityRegistry .capabilities
  store
    | .registry => b.registryStore
    | .capabilities => .inMemory

def factory : Factory.FactoryOrchestrator Subject StoreName where
  toRegistries := b.registries
  capabilities := .capability
  agents := .agent
  capabilities_registry := ⟨.capabilities, rfl⟩
  agents_registry := ⟨.registry, rfl⟩

/-- `SkillService`, with the audit of the registries. -/
def skills : Skills.SkillAssignmentService StoreName where
  registries := Skills.application b.contracts b.library.sha256 b.library.repr (fun _ => .registry)
    b.registries.store
  audited := true
  whole := b.whole
  isDigit := b.isDigit
  decimal := b.decimal

end Application

/-! ## The routes -/

/-- A text that the request model accepts: `Field(min_length=1, max_length=max)`. -/
def Sized (max : ℕ) : Type := { text : String // 1 ≤ text.length ∧ text.length ≤ max }

structure SkillAssignmentRequest where
  agentId : Sized 200
  agentVersion : Sized 50
  skillId : Sized 200
  skillVersion : Sized 50
  proposedAgentVersion : Option (Sized 50) := none

inductive Route where
  | listSkills
  | getSkillDetail (skillId : String)
  | getSkillVersions (skillId : String)
  | listAgentSkills (agentId : String)
  | assignSkill (agentId : String) (payload : SkillAssignmentRequest)
  | getCapabilityDetail (capabilityId : String)
  | analyzeFactoryRequirement (payload : Json.Fields)

/-- A request: its header, how many accounts have been registered when it comes,
the id it is given, and what the clock says when an entry is built. -/
structure PublicRequest where
  authorization : Option String
  registered : ℕ
  correlationId : String
  now : Subject → Datetime
  route : Route

/-- What a request raises; all but `platform` is left to the last handler. -/
inductive PublicError where
  | platform (e : PlatformError)
  | session (e : SessionError)
  | factory (e : Factory.FactoryError)
  | assignment (e : Skills.AssignmentError)
  | read (e : ReadError)
  | detail (e : DetailError)
  | contract (e : ContractError)

abbrev PublicOp (α : Type) :=
  Proc (Memory Subject StoreName) (Factory.Question Subject) Factory.Answer PublicError α

def skillListSchema : String :=
  "https://schemas.alos.dev/v1/skill/skill-list-response.schema.json"

def skillDetailSchema : String := "https://schemas.alos.dev/v1/skill/skill-detail.schema.json"

/-- A `PlatformError` for the caller. -/
def refused (code message : String) (statusCode : ℕ) (correlationId : String) : PublicError :=
  .platform {
    code := code
    message := message
    statusCode := statusCode
    correlationId := some correlationId }

def assignmentRefusal (correlationId : String) : Skills.AssignmentError → PublicError
  | .assignment code message =>
      let statusCode :=
        if code ∈ ["AGENT_VERSION_NOT_FOUND", "SKILL_VERSION_NOT_FOUND"] then 404
        else if code ∈ ["AGENT_SKILL_DUPLICATE", "AGENT_VERSION_CONFLICT"] then 409
        else 403
      refused code message statusCode correlationId
  | e => .assignment e

/-- A missing agent, or one that is not authorized. -/
def agentRefusal (correlationId : String) : ReadError → PublicError
  | .notFound _ | .unauthorized _ =>
      refused "AGENT_NOT_FOUND" "The requested AgentDefinition is not available." 404 correlationId
  | e => .read e

/-- A `KeyError` is a `LookupError`. -/
def capabilityRefusal (correlationId : String) : DetailError → PublicError
  | .read (.notFound _) | .lookup _ | .missing _ =>
      refused "CAPABILITY_NOT_FOUND"
        "The requested capability version is not available to this principal." 404 correlationId
  | .read (.unauthorized _) =>
      refused "CAPABILITY_NOT_AUTHORIZED"
        "The principal lacks the authority required by this capability version." 403 correlationId
  | .read (.conflict _) | .invalid _ =>
      refused "CAPABILITY_DETAIL_INVALID"
        "Capability detail projection failed contract validation." 500 correlationId
  | .read .typeError => .detail (.read .typeError)

/-- `response.model_dump()`. -/
def dump (response : Skills.SkillAssignmentResponse) : Json.Fields :=
  [("agent_id", .str response.agentId),
    ("base_agent_version", .str response.baseAgentVersion),
    ("draft_agent_version", .str response.draftAgentVersion),
    ("skill_ref", response.skillRef.toJson),
    ("lifecycle_state", .str "DRAFT"),
    ("correlation_id", .str response.correlationId)]

section Serve

variable (b : Application) (principal : Principal) (correlationId : String)

/-- The arguments of `assign` for a request. -/
def assignmentOf (payload : SkillAssignmentRequest) : Skills.Assignment where
  agentId := payload.agentId.val
  agentVersion := payload.agentVersion.val
  skillId := payload.skillId.val
  skillVersion := payload.skillVersion.val
  proposedAgentVersion := payload.proposedAgentVersion.map Subtype.val
  principal := principal
  correlationId := correlationId

/-- What a route that only reads answers. -/
def answer (s : Memory Subject StoreName) : Route → Except PublicError Json.Fields
  | .listSkills => do
      let skills ← (Skills.listSkills (s.entries .skill) principal).mapError .read
      (b.contracts.validate skillListSchema
        [("skills", .arr skills), ("correlation_id", .str correlationId)]).mapError .contract
  | .getSkillDetail skillId => do
      match ← (Skills.getSkill (s.entries .skill) principal skillId).mapError .read with
      | .obj detail => (b.contracts.validate skillDetailSchema detail).mapError .contract
      | _ => throw (.read .typeError)
  | .getSkillVersions skillId => do
      let versions ← (Skills.getVersions (s.entries .skill) principal skillId).mapError .read
      return [("skill_id", .str skillId), ("versions", .arr (versions.map .str)),
        ("correlation_id", .str correlationId)]
  | .listAgentSkills agentId => do
      match ← (Skills.listAgentSkills (s.entries .agent) principal agentId correlationId).mapError
        (agentRefusal correlationId) with
      | .obj skills => return skills
      | _ => throw (.read .typeError)
  | .getCapabilityDetail capabilityId =>
      (Registry.detail b.contracts (s.entries .capability) principal.tenantId principal.workspaceId
        capabilityId (some principal)).mapError (capabilityRefusal correlationId)
  | .assignSkill .. | .analyzeFactoryRequirement _ => throw (.read .typeError)

def serve (now : Subject → Datetime) : Route → PublicOp Json.Fields
  | .assignSkill agentId payload =>
      if payload.agentId.val ≠ agentId then
        .raise (.platform {
          code := "AGENT_ID_MISMATCH"
          message := "Path and payload agent_id must match."
          statusCode := 400 })
      else do
        let response ← (Skills.assignOn b.skills (assignmentOf principal correlationId payload)
          b.registries .agent .skill (now .agent)).embed
            Factory.Question.registry (fun _ answer => answer) (assignmentRefusal correlationId)
        return dump response
  | .analyzeFactoryRequirement payload =>
      (Factory.analyze b.factory payload principal correlationId now).embed id
        (fun _ answer => answer) .factory
  | route => do
      let s ← .get
      .ofExcept (answer b principal correlationId s route)

end Serve

section Requests

variable (b : Application) (accounts : List Authentication.Call)

/-- Who has sent the request, when the accounts are registered in their order. -/
def Application.sender (r : PublicRequest) : Except SessionError Principal :=
  getCurrentPrincipal b.library
    (Authentication.after b.library .empty (accounts.take r.registered)) r.authorization

def Application.prog (r : PublicRequest) : PublicOp Json.Fields :=
  match b.sender accounts r with
  | .error (.platform e) => .raise (.platform e)
  | .error e => .raise (.session e)
  | .ok principal => serve b principal r.correlationId r.now r.route

/-- The registries after the hydration at the start, over the rows of the store. -/
def Application.started (rows : Table RegistryEntry.storeKey) : Memory Subject StoreName :=
  hydrated b.registries fun
    | .registry => rows
    | .capabilities => .empty

abbrev PublicStep := Step PublicRequest (Factory.Question Subject) Factory.Answer

/-- The locks of the registries, as a request waits for them. -/
def publicLocks : Locks (Memory Subject StoreName) (Factory.Question Subject) Subject where
  isLocked := Memory.locked
  set := Memory.setLocked
  acquire i := .registry (.acquire i)

/-- Requests that overlap in any order. -/
def Application.served (rows : Table RegistryEntry.storeKey) (xs : List PublicStep) :
    Sys PublicRequest (Memory Subject StoreName) (Factory.Question Subject) Factory.Answer
      PublicError Json.Fields :=
  run (b.prog accounts) (init (b.started rows)) xs

end Requests

end Alos.Api
