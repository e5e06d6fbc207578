import Alos.Audit
import Alos.Containers
import Alos.Contracts
import Alos.Coop.Guards
import Alos.Coop.Lock
import Alos.Registry.Entry

/-! # The authority over agent runs

`AgentRunAuthority` of `alos.agents.lifecycle.runs`. A run is begun from a
request and the registered agent, and completed by a result.

* `prepare` is all that `begin` does before it stores the record, the checks in
  their order;
* `AgentRunStore` is the protocol of the stores, `begin`, `complete`, `get` and
  `runtimeAuthorization` work over any of them.

The clock is read once by a call; the call carries what it says. Copies of a
record are the record itself, nothing in the modelled code writes to one.
-/

namespace Alos.Agents

open Coop Py Registry

/-- What a call of the authority can raise. -/
inductive RunError where
  | contract (e : ContractError)
  /-- `RunAuthorityError`. -/
  | authority (message code : String)
  | access (e : AccessError)
  /-- What the database and the audit sink raise. -/
  | store
  | audit
deriving DecidableEq, Repr

/-- `RunAuthorityError(message)`. -/
def denied (message : String) (code : String := "RUN_NOT_AUTHORIZED") : RunError :=
  .authority message code

/-- The statuses of a run. -/
inductive AuthoritativeRunStatus where
  | running
  | completed
  | failed
  | cancelled
  | timedOut
deriving DecidableEq, Repr

namespace AuthoritativeRunStatus

/-- The text of a status, in the contract and in the row. -/
def value : AuthoritativeRunStatus → String
  | .running => "RUNNING"
  | .completed => "COMPLETED"
  | .failed => "FAILED"
  | .cancelled => "CANCELLED"
  | .timedOut => "TIMED_OUT"

/-- `AuthoritativeRunStatus(text)`; any other text is a `ValueError`. -/
def ofString (text : String) : Option AuthoritativeRunStatus :=
  if text = "RUNNING" then some .running
  else if text = "COMPLETED" then some .completed
  else if text = "FAILED" then some .failed
  else if text = "CANCELLED" then some .cancelled
  else if text = "TIMED_OUT" then some .timedOut
  else none

/-- A status that is read from a text is written as that text. -/
theorem value_of_ofString {text : String} {status : AuthoritativeRunStatus}
    (h : ofString text = some status) : text = status.value := by
  unfold ofString at h
  repeat' split at h
  all_goals
    cases h
    try assumption

/-- Every status is read back from its text. -/
theorem ofString_value (status : AuthoritativeRunStatus) : ofString status.value = some status := by
  cases status <;> rfl

end AuthoritativeRunStatus

/-- `(skill_id, skill_version)`. -/
structure SkillRef where
  skillId : String
  skillVersion : String
deriving DecidableEq, Repr

namespace SkillRef

/-- `{"skill_id": skill_id, "skill_version": version}`. -/
def toJson (ref : SkillRef) : Json :=
  .obj [("skill_id", .str ref.skillId), ("skill_version", .str ref.skillVersion)]

/-- `(str(item["skill_id"]), str(item["skill_version"]))`. -/
def ofJson (repr : Json → String) (value : Json) : Except AccessError SkillRef := do
  let skillId ← getItem value "skill_id"
  let skillVersion ← getItem value "skill_version"
  return ⟨str repr skillId, str repr skillVersion⟩

/-- A reference to a skill is read back from its JSON. -/
theorem ofJson_toJson (repr : Json → String) (ref : SkillRef) :
    ofJson repr ref.toJson = .ok ref := rfl

/-- The order of pairs of strings. -/
def Before (a b : SkillRef) : Prop :=
  a.skillId < b.skillId ∨ a.skillId = b.skillId ∧ a.skillVersion ≤ b.skillVersion

instance (a b : SkillRef) : Decidable (a.Before b) := inferInstanceAs (Decidable (_ ∨ _ ∧ _))

end SkillRef

/-- The record of a run: its identity, its agent and what it may do. -/
structure AuthoritativeRunRecord where
  runId : String
  rootRunId : String
  tenantId : String
  organizationId : String
  workspaceId : String
  actorId : String
  correlationId : String
  agentId : String
  agentVersion : String
  capabilityId : String
  status : AuthoritativeRunStatus
  registryDigest : String
  lifecycleAuthorization : String
  authorizedToolIds : List Json
  authorizedSkillRefs : List SkillRef
  request : Json.Fields
  createdAt : Datetime
  completedAt : Option Datetime := none
  result : Option Json.Fields := none

/-- What a call awaits: a step of the database, or `AuditSink.append`. -/
inductive Question where
  | select (runId : String)
  | insert (runId : String)
  | update (runId : String)
  | append (event : AuditEvent)

/-- How a step of the database ends. -/
inductive Stored where
  | returned
  | raised
deriving DecidableEq, Repr

/-- The sink and the store return or raise. -/
@[reducible] def Answer : Question → Type
  | .append _ => Appended
  | _ => Stored

/-- One coroutine of the authority, over the state of its store. -/
abbrev Op (σ α : Type) := Proc σ Question Answer RunError α

/-- The persistence port. -/
structure AgentRunStore (σ : Type) where
  create : AuthoritativeRunRecord → Op σ Unit
  update : AuthoritativeRunRecord → Op σ Unit
  get : String → Op σ AuthoritativeRunRecord

/-- The arguments of `__init__`, less the stores. -/
structure AgentRunAuthority where
  contracts : CanonicalContractCatalog
  allowTestDrafts : Bool := false
  /-- `repr` of a list or a dict. -/
  repr : Json → String
  /-- The integer that a float is equal to, if any. -/
  whole : FloatText → Option Int

/-- The contract of a run request. -/
def agentRunRequestSchema : String :=
  "https://schemas.alos.dev/v1/agent/agent-run-request.schema.json"

/-- The contract of a run result. -/
def agentRunResultSchema : String :=
  "https://schemas.alos.dev/v1/agent/agent-run-result.schema.json"

section Begin

variable (x : AgentRunAuthority)

/-- `str(fields[key])`. -/
def text (fields : Json.Fields) (key : String) : Except RunError String :=
  match item fields key with
  | .error key => .error (.access (.missing key))
  | .ok value => .ok (str x.repr value)

/-- `fields[key] != value` raises. -/
def requireEqual (fields : Json.Fields) (key value message : String) : Except RunError Unit :=
  match item fields key with
  | .error key => .error (.access (.missing key))
  | .ok found => .require (EqText found value) (denied message)

/-- `_require_context`: request, context and agent name the same place and the same run. -/
def requireContext (request context : Json.Fields) (agent : RegistryEntry) :
    Except RunError Unit := do
  let message := "run context does not match authoritative registry context"
  requireEqual context "tenant_id" agent.tenantId message
  requireEqual context "organization_id" agent.organizationId message
  requireEqual context "workspace_id" agent.workspaceId message
  let message := "run Agent identity/version does not match registry entry"
  requireEqual request "agent_id" agent.subjectId message
  requireEqual request "agent_version" agent.version message

/-- An agent that is active, or one that is not active yet in a test. -/
def LifecycleAllows (request : Json.Fields) (agent : RegistryEntry) : Prop :=
  agent.state = .active ∨
    EqText ((request.get? "execution_mode").getD .null) "TEST" ∧ x.allowTestDrafts = true ∧
      (agent.state = .draft ∨ agent.state = .approved)

instance (request : Json.Fields) (agent : RegistryEntry) :
    Decidable (LifecycleAllows x request agent) :=
  inferInstanceAs (Decidable (_ ∨ _ ∧ _ ∧ (_ ∨ _)))

/-- `_require_lifecycle`: an active agent, or in a test one that is not active yet. -/
def requireLifecycle (request : Json.Fields) (agent : RegistryEntry) : Except RunError Unit :=
  .require (LifecycleAllows x request agent) (denied "Agent lifecycle is not authorized for execution")

/-- `frozenset(str(item) for item in fields.get(key, []))`. -/
def strings (fields : Json.Fields) (key : String) : Except RunError (List String) :=
  ((items fields key).map fun values => values.map (str x.repr)).mapError .access

/-- What is required is among what is granted. -/
def requireSubset (required granted : Except RunError (List String)) (message : String) :
    Except RunError Unit := do
  let required ← required
  let granted ← granted
  .require (∀ ref ∈ required, ref ∈ granted) (denied message)

/-- `_require_permissions`: the context has every permission of the agent. -/
def requirePermissions (context : Json.Fields) (agent : RegistryEntry) : Except RunError Unit :=
  requireSubset (strings x agent.payload "permission_refs") (strings x context "permission_refs")
    "execution context lacks Agent permissions"

/-- `_require_scope`: the context has every scope of the agent. -/
def requireScope (context : Json.Fields) (agent : RegistryEntry) : Except RunError Unit :=
  requireSubset (strings x agent.payload "scope_refs") (strings x context "scope_refs")
    "execution context lacks Agent scope"

/-- `_require_tools`: the agent has every tool that is requested. -/
def requireTools (request : Json.Fields) (agent : RegistryEntry) : Except RunError Unit :=
  requireSubset (strings x request "requested_tool_ids") (strings x agent.payload "tool_ids")
    "AgentRunRequest contains a tool outside Agent definition"

/-! ## Skills -/

/-- `frozenset(fields.get(key, []))`. -/
def refSet (fields : Json.Fields) (key : String) : Except RunError (List Json) := do
  (frozenset (← (items fields key).mapError .access)).mapError .access

/-- What both the context and the agent have. -/
def effective (context : Json.Fields) (contextKey : String) (agent : RegistryEntry)
    (agentKey : String) : Except RunError (List Json) := do
  let granted ← refSet context contextKey
  let held ← refSet agent.payload agentKey
  return inter x.whole granted held

/-- `effective_permissions`, `effective_scopes` and `effective_tools`. -/
structure Effective where
  permissions : List Json
  scopes : List Json
  tools : List Json

/-- What both the context and the agent allow: permissions, scopes and tools. -/
def effectiveAuthority (context : Json.Fields) (agent : RegistryEntry) :
    Except RunError Effective := do
  let permissions ← effective x context "permission_refs" agent "permission_refs"
  let scopes ← effective x context "scope_refs" agent "scope_refs"
  let tools ← effective x context "allowed_tool_ids" agent "tool_ids"
  return ⟨permissions, scopes, tools⟩

/-- A prerequisite of a skill. -/
def requirePrerequisite (skill : RegistryEntry) (key : String) (held : List Json)
    (message code : String) : Except RunError Unit := do
  let required ← refSet skill.payload key
  .require (SubsetOf x.whole required held) (denied message code)

/-- What is checked of one skill that is asked for. -/
def authorizeSkill (skills : Option (Table RegistryEntry.key)) (agent : RegistryEntry)
    (agentRefs : List SkillRef) (held : Effective) (ref : SkillRef) : Except RunError Unit := do
  .require (ref ∈ agentRefs)
    (denied "authorized_skill_refs contains a ref outside AgentDefinition.skill_refs"
      "SKILL_REF_NOT_ASSIGNED")
  match skills with
  | none =>
      .error (denied "Backend SkillRegistry is required to authorize Agent skills"
        "SKILL_REGISTRY_UNAVAILABLE")
  | some skills =>
      match skills.get? ⟨agent.tenantId, agent.workspaceId, ref.skillId, ref.skillVersion⟩ with
      | none =>
          .error (denied "exact SkillDefinition version was not found" "SKILL_VERSION_NOT_FOUND")
      | some skill => do
          .require (skill.organizationId = agent.organizationId)
            (denied "SkillDefinition organization does not match AgentDefinition"
              "SKILL_CONTEXT_MISMATCH")
          .require (skill.state = .active)
            (denied "SkillDefinition exact version is not ACTIVE" "SKILL_NOT_ACTIVE")
          requirePrerequisite x skill "permission_refs" held.permissions
            "effective run authority lacks Skill permission prerequisites"
            "SKILL_PERMISSION_MISMATCH"
          requirePrerequisite x skill "scope_refs" held.scopes
            "effective run authority lacks Skill scope prerequisites" "SKILL_SCOPE_MISMATCH"
          requirePrerequisite x skill "required_tool_ids" held.tools
            "effective run authority lacks Skill tool prerequisites" "SKILL_TOOL_MISMATCH"

/-- `requested`, or the skills of the agent when none are requested. -/
def rawRefs (request : Json.Fields) (agent : RegistryEntry) : Json :=
  match request.get? "authorized_skill_refs" with
  | none | some .null => (agent.payload.get? "skill_refs").getD (.arr [])
  | some requested => requested

/-- Iterating over a value that is no list raises `TypeError`. -/
def iterate (value : Json) : Except RunError (List Json) :=
  match iter value with
  | none => .error (.access .typeError)
  | some values => .ok values

/-- A reference as it stands in a request or a definition. -/
def skillRef (value : Json) : Except RunError SkillRef :=
  (SkillRef.ofJson x.repr value).mapError .access

/-- `_authorize_skills`. -/
def authorizeSkills (skills : Option (Table RegistryEntry.key)) (request context : Json.Fields)
    (agent : RegistryEntry) : Except RunError (List SkillRef) := do
  let agentRefs ← (← (items agent.payload "skill_refs").mapError .access).mapM (skillRef x)
  let held ← effectiveAuthority x context agent
  let authorized ← (← iterate (rawRefs request agent)).mapM fun value => do
    let ref ← skillRef x value
    authorizeSkill x skills agent agentRefs held ref
    return ref
  return authorized.dedup.insertionSort SkillRef.Before

/-! ## The record -/

/-- `tuple(tool_id for tool_id in requested if tool_id in agent.payload.get("tool_ids", []))`. -/
def authorizedTools (request : Json.Fields) (agent : RegistryEntry) :
    Except RunError (List Json) := do
  let requested ← (items request "requested_tool_ids").mapError .access
  requested.filterM fun tool =>
    (contains x.whole ((agent.payload.get? "tool_ids").getD (.arr [])) tool).mapError .access

/-- `request["execution_context"]`, which has to be a dict. -/
def executionContext (request : Json.Fields) : Except RunError Json.Fields :=
  match item request "execution_context" with
  | .error key => .error (.access (.missing key))
  | .ok (.obj context) => .ok context
  | .ok _ => .error (denied "execution_context must be an object")

/-- What a valid request asks for, checked against the agent and its skills. -/
def checked (skills : Option (Table RegistryEntry.key)) (request context : Json.Fields)
    (agent : RegistryEntry) : Except RunError (List SkillRef) := do
  requireContext request context agent
  requireLifecycle x request agent
  requirePermissions x context agent
  requireScope x context agent
  requireTools x request agent
  authorizeSkills x skills request context agent

/-- The record of a run that is authorized. -/
def runRecord (request context : Json.Fields) (agent : RegistryEntry) (refs : List SkillRef)
    (now : Datetime) : Except RunError AuthoritativeRunRecord := do
  let runId ← text x request "run_id"
  let rootRunId ← text x request "root_run_id"
  let tenantId ← text x context "tenant_id"
  let organizationId ← text x context "organization_id"
  let workspaceId ← text x context "workspace_id"
  let actorId ← text x context "actor_id"
  let correlationId ← text x context "correlation_id"
  let agentId ← text x request "agent_id"
  let agentVersion ← text x request "agent_version"
  let capabilityId ← text x request "capability_id"
  let authorizedToolIds ← authorizedTools x request agent
  return {
    runId := runId
    rootRunId := rootRunId
    tenantId := tenantId
    organizationId := organizationId
    workspaceId := workspaceId
    actorId := actorId
    correlationId := correlationId
    agentId := agentId
    agentVersion := agentVersion
    capabilityId := capabilityId
    status := .running
    registryDigest := agent.digest
    lifecycleAuthorization := if agent.state = .active then "ACTIVE" else "TEST_AUTHORIZED"
    authorizedToolIds := authorizedToolIds
    authorizedSkillRefs := refs
    request := request
    createdAt := now }

/-- The record of a run, from a request and the agent it is for. -/
def prepare (skills : Option (Table RegistryEntry.key)) (payload : Json.Fields)
    (agent : RegistryEntry) (now : Datetime) : Except RunError AuthoritativeRunRecord := do
  let request ← (x.contracts.validate agentRunRequestSchema payload).mapError .contract
  let context ← executionContext request
  let refs ← checked x skills request context agent
  runRecord x (setItem request "authorized_skill_refs" (.arr (refs.map SkillRef.toJson))) context
    agent refs now

end Begin

/-! ## The operations -/

def settle {σ : Type} : Stored → Op σ Unit
  | .returned => pure ()
  | .raised => .raise .store

/-- An append that raises ends the call; a run that was stored stays stored. -/
def settleAppend {σ : Type} : Appended → Op σ Unit
  | .returned => pure ()
  | .raised => .raise .audit

/-- The audit event of a run. -/
def auditEvent (record : AuthoritativeRunRecord) (eventType : String) : AuditEvent where
  eventType := eventType
  entityType := "agent_run"
  entityId := record.runId
  tenantId := record.tenantId
  organizationId := record.organizationId
  workspaceId := record.workspaceId
  actorId := record.actorId
  correlationId := record.correlationId
  outcome := record.status.value
  reason := "Authoritative Agent run lifecycle transition"
  metadata := [("agent_id", .str record.agentId), ("agent_version", .str record.agentVersion),
    ("registry_digest", .str record.registryDigest),
    ("authorized_skill_refs", .arr (record.authorizedSkillRefs.map SkillRef.toJson))]

/-- `_record_event`. -/
def recordEvent {σ : Type} (record : AuthoritativeRunRecord) (eventType : String) : Op σ Unit := do
  settleAppend (← .ask (.append (auditEvent record eventType)))

section Operations

variable {σ : Type} (x : AgentRunAuthority) (store : AgentRunStore σ)

/-- `begin`, a keyword of Lean. -/
def beginRun (skills : Option (Table RegistryEntry.key)) (payload : Json.Fields)
    (agent : RegistryEntry) (now : Datetime) : Op σ AuthoritativeRunRecord := do
  let record ← .ofExcept (prepare x skills payload agent now)
  store.create record
  recordEvent record "run.started"
  pure record

/-- `_require_result_matches`. -/
def requireResultMatches (current : AuthoritativeRunRecord) (result : Json.Fields) :
    Except RunError Unit :=
  let matched (key value : String) : Prop := EqText ((result.get? key).getD .null) value
  .require (matched "root_run_id" current.rootRunId ∧
      matched "correlation_id" current.correlationId ∧ matched "agent_id" current.agentId ∧
      matched "agent_version" current.agentVersion ∧ matched "capability_id" current.capabilityId)
    (denied "AgentRunResult does not match authoritative run identity")

/-- The status that a result reports, which has to be terminal. -/
def target (result : Json.Fields) : Except RunError AuthoritativeRunStatus := do
  match AuthoritativeRunStatus.ofString (← text x result "status") with
  | none | some .running => throw (denied "AgentRunResult is not terminal")
  | some status => return status

/-- The result of a run, and the run that it is for. -/
def reported (payload : Json.Fields) : Except RunError (Json.Fields × String) := do
  let result ← (x.contracts.validate agentRunResultSchema payload).mapError .contract
  return (result, ← text x result "run_id")

/-- What a result makes of the record of its run. -/
def completed (current : AuthoritativeRunRecord) (result : Json.Fields) (now : Datetime) :
    Except RunError AuthoritativeRunRecord := do
  .require (current.status = .running) (denied "authoritative run is already terminal")
  requireResultMatches current result
  let status ← target x result
  return { current with status := status, completedAt := some now, result := some result }

/-- No result brings a run back to RUNNING. -/
theorem target_ne_running {result : Json.Fields} {status : AuthoritativeRunStatus}
    (h : target x result = .ok status) : status ≠ .running := by
  rintro rfl
  simp only [target, Except.bind_eq_ok] at h
  obtain ⟨text, -, h⟩ := h
  split at h
  · cases h
  · cases h
  · rename_i status hne hstatus
    cases h
    exact hne rfl

/-- What has been checked of a result that completes a run. -/
structure Completes (current : AuthoritativeRunRecord) (result : Json.Fields) (now : Datetime)
    (updated : AuthoritativeRunRecord) : Prop where
  running : current.status = .running
  matched : requireResultMatches current result = .ok ()
  reported : target x result = .ok updated.status
  updated : updated =
    { current with status := updated.status, completedAt := some now, result := some result }

/-- What the update of a completed run is, when the result passes every check. -/
theorem completed_ok {current updated : AuthoritativeRunRecord} {result : Json.Fields}
    {now : Datetime} (h : completed x current result now = .ok updated) :
    Completes x current result now updated := by
  simp only [completed, Except.bind_eq_ok, Except.require_eq_ok, Except.pure_eq_ok] at h
  obtain ⟨-, hrunning, u, hmatched, status, htarget, rfl⟩ := h
  exact ⟨hrunning, hmatched, htarget, rfl⟩

/-- The name of the event that tells how a run ended. -/
def completionEvent (record : AuthoritativeRunRecord) : String :=
  if record.status = .completed then "run.completed" else "run.failed"

/-- `complete`: reads the run, then writes the outcome; another call can come in between. -/
def complete (payload : Json.Fields) (now : Datetime) : Op σ AuthoritativeRunRecord := do
  let (result, runId) ← .ofExcept (reported x payload)
  let current ← store.get runId
  -- no lock is held from the read to the update
  let updated ← .ofExcept (completed x current result now)
  store.update updated
  recordEvent updated (completionEvent updated)
  pure updated

/-- `get`: the record as the store has it. -/
def get (runId : String) : Op σ AuthoritativeRunRecord := store.get runId

/-- The snapshot that the runtime of a run is handed. -/
def authorization (record : AuthoritativeRunRecord) : Json.Fields :=
  [("run_id", .str record.runId), ("registry_digest", .str record.registryDigest),
    ("lifecycle_state", .str record.lifecycleAuthorization),
    ("allowed_tool_ids", .arr record.authorizedToolIds),
    ("authorized_skill_refs", .arr (record.authorizedSkillRefs.map SkillRef.toJson))]

/-- `runtime_authorization`: what the run may do, while it is running. -/
def runtimeAuthorization (runId : String) : Op σ Json.Fields := do
  let record ← get store runId
  .raiseIf (record.status ≠ .running) (denied "only a running record can be authorized")
  pure (authorization record)

end Operations

end Alos.Agents
