import Mathlib.Logic.Function.Basic
import Alos.Authorization
import Alos.Coop.Proc
import Alos.Tools.Registry
import Alos.Tools.Request

/-! # The tool executor

`ToolExecutor.execute` of `alos.tools.executor.service` as a cooperative
procedure. It awaits the appends of the audit sink and the adapter; the lock of
the idempotency store is never held across an await, so taking it never
suspends. Validation of the contracts and SHA-256 are parameters.
-/

namespace Alos.Tools

open Coop

/-- What `execute` returns to the boundary. -/
structure ToolExecutionOutcome where
  correlationId : String
  result : ToolResult

/-- The time stamp is left out, nothing reads it. -/
structure ToolAuditRecord where
  toolCallId : String
  runId : String
  toolId : String
  tenantId : String
  organizationId : String
  workspaceId : String
  actorId : String
  correlationId : String
  outcome : String
deriving DecidableEq, Repr

/-- What is kept under an idempotency key. -/
structure IdempotencyRecord where
  requestDigest : String
  output : Json

/-- Tenant, tool and idempotency key. -/
abbrev CacheKey := String × String × String

/-- What the calls share: the registry and the records of the idempotency
store. -/
structure ToolState where
  registry : ToolRegistry
  records : CacheKey → Option IdempotencyRecord

/-- `self._records[key] = record`. -/
def ToolState.setRecord (s : ToolState) (key : CacheKey) (record : IdempotencyRecord) : ToolState :=
  { s with records := Function.update s.records key (some record) }

@[simp] theorem setRecord_registry (s : ToolState) (key : CacheKey) (record : IdempotencyRecord) :
    (s.setRecord key record).registry = s.registry := rfl

@[simp] theorem setRecord_records (s : ToolState) (key : CacheKey) (record : IdempotencyRecord) :
    (s.setRecord key record).records = Function.update s.records key (some record) := rfl

/-- What `execute` awaits. -/
inductive Question where
  | append (record : ToolAuditRecord)
  | execute (toolId : String) (arguments : Json.Fields) (executionContext : ExecutionContext)

/-- How `ToolAuditSink.append` ends. -/
inductive Appended where
  | returned
  | raised
deriving DecidableEq, Repr

/-- How `adapter.execute` under its timeout ends. -/
inductive Executed where
  | returned (output : Json)
  | timedOut
  | raised

/-- The sink returns or raises; the adapter returns, raises or runs out of time. -/
abbrev Answer : Question → Type
  | .append _ => Appended
  | .execute _ _ _ => Executed

/-- What `execute` raises: the two validations, whatever the audit sink raised,
and the `ValueError` of the idempotency store. -/
inductive ExecuteError where
  | requestInvalid
  | resultInvalid
  | audit
  | keyTaken
deriving DecidableEq, Repr

/-- One coroutine of the executor. -/
abbrev ToolOp (α : Type) := Proc ToolState Question Answer ExecuteError α

/-- The collaborators and the settings of the executor. -/
structure ToolExecutor where
  contractValidator : ToolContractValidator
  /-- `hashlib.sha256(text.encode()).hexdigest()`. -/
  sha256 : String → String
  production : Bool

/-! ## Results and audit records -/

/-- The keyword arguments of `_finish_error`. -/
structure Refusal where
  status : ToolStatus
  code : String
  message : String
  retryable : Bool := false
  details : Option Json.Fields := none

/-- `_base_result`: what every result repeats of its request. -/
def baseResult (request : ToolRequest) (status : ToolStatus) : ToolResult where
  toolCallId := request.toolCallId
  runId := request.runId
  toolId := request.toolId
  correlationId := request.executionContext.correlationId
  status := status

/-- The canonical result of a refusal. -/
def errorResult (request : ToolRequest) (refusal : Refusal) : ToolResult :=
  { baseResult request refusal.status with
    error := some {
      code := refusal.code
      message := refusal.message
      correlationId := request.executionContext.correlationId
      retryable := refusal.retryable
      details := refusal.details } }

/-- The canonical result of an output. -/
def successResult (request : ToolRequest) (output : Json) : ToolResult :=
  { baseResult request .success with output := some output }

/-- The audit record of an outcome of a request. -/
def auditRecord (request : ToolRequest) (outcome : String) : ToolAuditRecord where
  toolCallId := request.toolCallId
  runId := request.runId
  toolId := request.toolId
  tenantId := request.executionContext.tenantId
  organizationId := request.executionContext.organizationId
  workspaceId := request.executionContext.workspaceId
  actorId := request.executionContext.actorId
  correlationId := request.executionContext.correlationId
  outcome := outcome

/-- An append that raises ends the call. -/
def settle : Appended → ToolOp Unit
  | .returned => pure ()
  | .raised => .raise .audit

/-- `_audit`: appends the record of an outcome and waits for the sink. -/
def audit (request : ToolRequest) (outcome : String) : ToolOp Unit := do
  let answer ← Proc.ask (Question.append (auditRecord request outcome))
  settle answer

/-- `_finish`: the result is checked by the contract, then audited, then returned. -/
def finish (x : ToolExecutor) (request : ToolRequest) (result : ToolResult) :
    ToolOp ToolExecutionOutcome := do
  Proc.raiseIf (¬ x.contractValidator.validateResult result) .resultInvalid
  audit request result.status.value
  pure ⟨request.executionContext.correlationId, result⟩

/-- `_finish_error`: as `_finish`, for a refusal. -/
def finishError (x : ToolExecutor) (request : ToolRequest) (refusal : Refusal) :
    ToolOp ToolExecutionOutcome :=
  finish x request (errorResult request refusal)

/-! ## The digest of a request -/

/-- The part of a request that its digest is taken of. -/
def immutable (request : ToolRequest) : Json :=
  .obj [("tool_id", .str request.toolId),
    ("execution_context", .obj (request.executionContext.fields.erase "correlation_id")),
    ("arguments", .obj request.arguments)]

/-- `_request_digest`: the hash of the immutable part of the request. -/
def requestDigest (x : ToolExecutor) (request : ToolRequest) : String :=
  x.sha256 (Json.dumps (immutable request))

/-- A key is one tenant's and one tool's. -/
def cacheKey (request : ToolRequest) (key : String) : CacheKey :=
  (request.executionContext.tenantId, request.toolId, key)

/-- Another request has taken the key. -/
def Taken (s : ToolState) (key : CacheKey) (digest : String) : Prop :=
  match s.records key with
  | some existing => existing.requestDigest ≠ digest
  | none => False

instance (s : ToolState) (key : CacheKey) (digest : String) : Decidable (Taken s key digest) := by
  unfold Taken
  split <;> infer_instance

/-- `InMemoryToolIdempotencyStore.put`. -/
def put (key : CacheKey) (record : IdempotencyRecord) : ToolOp Unit := do
  let s ← Proc.get
  Proc.raiseIf (Taken s key record.requestDigest) .keyTaken
  Proc.modify (·.setRecord key record)

/-! ## The gates -/

def denied (code message : String) : Refusal := { status := .denied, code, message }

/-- A refusal with status REJECTED. -/
def rejected (code message : String) : Refusal := { status := .rejected, code, message }

/-- The checks between the first append and the idempotency store, in their
order. -/
def checks (x : ToolExecutor) (s : ToolState) (request : ToolRequest)
    (principal : Option Principal) (transportCorrelationId : Option String) :
    Except Refusal ToolRegistration :=
  let context := request.executionContext
  if transportCorrelationId ≠ none ∧ transportCorrelationId ≠ some context.correlationId then
    .error (denied "CORRELATION_MISMATCH"
      "Transport and ToolRequest correlation identifiers must match.")
  else match s.registry.get request.toolId with
  | none => .error (denied "TOOL_UNKNOWN" "The requested tool is not registered.")
  | some registration =>
    if ¬ registration.allowlisted then
      .error (denied "TOOL_NOT_ALLOWED" "The requested tool is not allowlisted.")
    else if registration.lifecycleState ≠ .active then
      .error (denied "TOOL_NOT_ACTIVE" "The requested tool is not active.")
    else if registration.killSwitchActive then
      .error (denied "TOOL_KILL_SWITCH_ACTIVE"
        "The requested tool is disabled by an authoritative kill switch.")
    else if x.production ∧ ¬ registration.productionEnabled then
      .error (denied "TEST_TOOL_DISABLED" "Non-production tools are disabled in production.")
    else if ¬ registration.requiredScopes ⊆ context.scopeRefs.toFinset then
      .error (denied "SCOPE_DENIED" "ToolRequest does not declare all required scopes.")
    else if registration.requiredPermission ∉ context.permissionRefs.toFinset then
      .error (denied "PERMISSION_DENIED" "ToolRequest does not declare the required permission.")
    else if ¬ AuthorizationPolicy.isAllowed principal context.tenantId context.organizationId
        context.workspaceId registration.requiredPermission registration.requiredScopes then
      .error (denied "AUTHORIZATION_DENIED"
        "Tenant, organization, workspace, actor, or policy denied execution.")
    else match registration.adapter.validateArguments request.arguments with
    | some reason =>
      .error { rejected "TOOL_INPUT_INVALID"
        "Tool input does not satisfy the registered input contract." with
        details := some [("reason", .str reason)] }
    | none =>
      if registration.idempotencyPolicy = .required ∧ request.key = none then
        .error (rejected "IDEMPOTENCY_REQUIRED" "The requested tool requires an idempotency key.")
      else .ok registration

/-- The refusal of a key that is used for another request. -/
def idempotencyConflict : Refusal :=
  rejected "IDEMPOTENCY_CONFLICT" "The idempotency key belongs to a different immutable request."

/-- The one refusal that may be tried again. -/
def timeoutRefusal : Refusal where
  status := .timeout
  code := "TOOL_TIMEOUT"
  message := "The tool exceeded its execution timeout."
  retryable := true

/-- The refusal that hides what an adapter raised. -/
def failedRefusal : Refusal where
  status := .failed
  code := "TOOL_EXECUTION_FAILED"
  message := "The tool adapter failed."

/-- `_execute_adapter`: what the adapter does becomes one of the outcomes. -/
def executeAdapter (x : ToolExecutor) (request : ToolRequest) : ToolOp ToolExecutionOutcome := do
  let answer ← Proc.ask (Question.execute request.toolId request.arguments request.executionContext)
  match answer with
  | .timedOut => finishError x request timeoutRefusal
  | .raised => finishError x request failedRefusal
  | .returned output => finish x request (successResult request output)

/-- What follows the store lookup when it has found nothing. -/
def executeAndStore (x : ToolExecutor) (request : ToolRequest) (key : String) :
    ToolOp ToolExecutionOutcome := do
  let outcome ← executeAdapter x request
  -- a refusal or a failure is not stored
  if outcome.result.status = .success then
    put (cacheKey request key) ⟨requestDigest x request, outcome.result.output.getD .null⟩
    pure outcome
  else pure outcome

/-- What follows the store lookup when it has found the record of this request. -/
def replay (x : ToolExecutor) (request : ToolRequest) (existing : IdempotencyRecord) :
    ToolOp ToolExecutionOutcome := do
  let outcome ← finish x request (successResult request existing.output)
  audit request "IDEMPOTENT_REPLAY"
  pure outcome

/-- `execute`: the request is audited first, then the checks, the stored output, the adapter. -/
def execute (x : ToolExecutor) (request : ToolRequest) (principal : Option Principal)
    (transportCorrelationId : Option String) : ToolOp ToolExecutionOutcome := do
  Proc.raiseIf (¬ x.contractValidator.validateRequest request) .requestInvalid
  audit request "REQUESTED"
  -- the registry and the records are read after the append
  let s ← Proc.get
  match checks x s request principal transportCorrelationId with
  | .error refusal => finishError x request refusal
  | .ok _ =>
    match request.key with
    | none => executeAdapter x request
    | some key =>
      match s.records (cacheKey request key) with
      | some existing =>
        if existing.requestDigest ≠ requestDigest x request then
          finishError x request idempotencyConflict
        else replay x request existing
      | none => executeAndStore x request key

/-- A call of `execute`. -/
structure ToolCall where
  request : ToolRequest
  principal : Option Principal
  transportCorrelationId : Option String := none

namespace ToolCall

/-- The coroutine of a call. -/
def prog (x : ToolExecutor) (c : ToolCall) : ToolOp ToolExecutionOutcome :=
  execute x c.request c.principal c.transportCorrelationId

/-- The gates, as the call meets them. -/
def verdict (x : ToolExecutor) (s : ToolState) (c : ToolCall) : Except Refusal ToolRegistration :=
  checks x s c.request c.principal c.transportCorrelationId

/-- The outcome of a call whose result is `result`. -/
def outcome (c : ToolCall) (result : ToolResult) : ToolExecutionOutcome :=
  ⟨c.request.executionContext.correlationId, result⟩

/-- The outcome of a call that is refused. -/
def refused (c : ToolCall) (refusal : Refusal) : ToolExecutionOutcome :=
  c.outcome (errorResult c.request refusal)

/-- The outcome of a call with an output. -/
def succeeded (c : ToolCall) (output : Json) : ToolExecutionOutcome :=
  c.outcome (successResult c.request output)

end ToolCall

end Alos.Tools
