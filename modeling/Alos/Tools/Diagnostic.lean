import Alos.Tools.Gates

/-! # The diagnostic tool

The only tool that the backend itself registers: `DiagnosticEchoAdapter`, the
registration of `get_tool_registry`, and `DiagnosticPrincipalResolver`, which
gives the route of tool requests its principal.

* `resolve_eq_some_iff`: the documented context, and nothing else, is resolved;
* `diagnostic_gates`: the tool runs outside production only, and only when the
  test tools are enabled.
-/

namespace Alos.Tools

/-! ## The adapter -/

namespace DiagnosticEchoAdapter

def validateArguments (arguments : Json.Fields) : Option String :=
  if (arguments.map Prod.fst).toFinset ≠ {"message"} then
    some "diagnostic.echo accepts only the message field"
  else match arguments.get? "message" with
  | some (.str message) =>
    if 1 ≤ message.length ∧ message.length ≤ 256 then none
    else some "message must be a string between 1 and 256 characters"
  | _ => some "message must be a string between 1 and 256 characters"

def execute (arguments : Json.Fields) : Json :=
  .obj [("echo", .obj arguments), ("label", .str "NON-PRODUCTION TEST TOOL")]

end DiagnosticEchoAdapter

/-- What `get_tool_registry` registers. -/
def diagnosticEcho (enableTestTools : Bool) : ToolRegistration where
  toolId := "diagnostic.echo"
  requiredPermission := "tools.diagnostic.execute"
  requiredScopes := {"scope.diagnostic"}
  adapter := ⟨DiagnosticEchoAdapter.validateArguments⟩
  allowlisted := enableTestTools
  productionEnabled := false

def getToolRegistry (enableTestTools : Bool) : ToolRegistry where
  tools := fun toolId =>
    if toolId = "diagnostic.echo" then some (diagnosticEcho enableTestTools) else none

/-- The diagnostic tool passes the gates only where it is meant to. -/
theorem diagnostic_gates {x : ToolExecutor} {s : ToolState} {c : ToolCall}
    {registration : ToolRegistration} {p : Principal} {enableTestTools : Bool}
    (hregistry : s.registry = getToolRegistry enableTestTools)
    (h : Gates x s c registration p) : enableTestTools = true ∧ x.production = false := by
  have hregistration : registration = diagnosticEcho enableTestTools := by
    have hget := h.registered
    simp only [hregistry, ToolRegistry.get, getToolRegistry] at hget
    split at hget
    · exact (Option.some.inj hget).symm
    · cases hget
  subst hregistration
  constructor
  · exact h.allowlisted
  · by_contra hproduction
    have henabled := h.production (by simpa using hproduction)
    simp [diagnosticEcho] at henabled

/-! ## The principal -/

namespace DiagnosticPrincipalResolver

def tenantId := "tenant_diagnostic_001"
def organizationId := "org_diagnostic_001"
def workspaceId := "workspace_diagnostic_001"
def actorId := "actor_diagnostic_001"

def expected : List (String × String) :=
  [("tenant_id", tenantId), ("organization_id", organizationId), ("workspace_id", workspaceId),
    ("actor_id", actorId)]

def principal : Principal where
  actorId := actorId
  tenantId := tenantId
  organizationId := organizationId
  workspaceId := workspaceId
  permissions := {"tools.diagnostic.execute"}
  scopes := {"scope.diagnostic"}

/-- `context.get(key) == value`. -/
def holds (context : Json.Fields) (item : String × String) : Bool :=
  match context.get? item.1 with
  | some (.str value) => value = item.2
  | _ => false

def resolve (context : Json.Fields) : Option Principal :=
  if expected.any fun item => ¬ holds context item then none else some principal

theorem holds_eq {context : Json.Fields} {key value : String}
    (h : context.get? key = some (.str value)) (expected : String) :
    holds context (key, expected) = decide (value = expected) := by
  simp [holds, h]

/-- Only the documented actor in the documented place is resolved. -/
theorem resolve_eq_some_iff (context : ExecutionContext) (p : Principal) :
    resolve context.fields = some p ↔
      context.tenantId = tenantId ∧ context.organizationId = organizationId ∧
        context.workspaceId = workspaceId ∧ context.actorId = actorId ∧ p = principal := by
  -- each of the four ids is compared with the expected one
  have htenant := holds_eq context.tenantId_eq tenantId
  have horganization := holds_eq context.organizationId_eq organizationId
  have hworkspace := holds_eq context.workspaceId_eq workspaceId
  have hactor := holds_eq context.actorId_eq actorId
  simp only [resolve, expected, List.any_cons, List.any_nil, htenant, horganization, hworkspace,
    hactor]
  constructor
  · intro h
    split at h
    · cases h
    · rename_i hall
      cases h
      simpa using hall
  · rintro ⟨ht, ho, hw, ha, rfl⟩
    simp [ht, ho, hw, ha]

end DiagnosticPrincipalResolver

/-! ## A diagnostic call -/

/-- A context in the documented place. -/
def diagnosticContext (actorId correlationId : String) (permissionRefs scopeRefs : List String) :
    ExecutionContext where
  fields := [("tenant_id", .str DiagnosticPrincipalResolver.tenantId),
    ("organization_id", .str DiagnosticPrincipalResolver.organizationId),
    ("workspace_id", .str DiagnosticPrincipalResolver.workspaceId),
    ("actor_id", .str actorId),
    ("authority_context",
      .obj [("role", .str "diagnostic_runner"), ("authority_level", .str "SYSTEM")]),
    ("permission_refs", .arr (permissionRefs.map .str)),
    ("scope_refs", .arr (scopeRefs.map .str)),
    ("data_classification", .str "INTERNAL"),
    ("correlation_id", .str correlationId)]
  tenantId := DiagnosticPrincipalResolver.tenantId
  organizationId := DiagnosticPrincipalResolver.organizationId
  workspaceId := DiagnosticPrincipalResolver.workspaceId
  actorId := actorId
  correlationId := correlationId
  permissionRefs := permissionRefs
  scopeRefs := scopeRefs
  dataClassification := some "INTERNAL"
  nodup := by simp [Json.Fields.Nodup]
  tenantId_eq := rfl
  organizationId_eq := rfl
  workspaceId_eq := rfl
  actorId_eq := rfl
  correlationId_eq := rfl
  permissionRefs_eq := .inl rfl
  scopeRefs_eq := .inl rfl
  dataClassification_eq := rfl

def diagnosticRequest (correlationId message : String) : ToolRequest where
  toolCallId := "toolcall_diagnostic_001"
  runId := "run_diagnostic_001"
  toolId := "diagnostic.echo"
  executionContext :=
    diagnosticContext DiagnosticPrincipalResolver.actorId correlationId
      ["tools.diagnostic.execute"] ["scope.diagnostic"]
  arguments := [("message", .str message)]
  idempotencyKey := some (.str "idempotency-001")

def diagnosticCall (correlationId message : String) : ToolCall where
  request := diagnosticRequest correlationId message
  principal := some DiagnosticPrincipalResolver.principal
  transportCorrelationId := some correlationId

/-- The correlation id is not part of what the digest is taken of. -/
theorem immutable_diagnosticRequest (correlationId other message : String) :
    immutable (diagnosticRequest correlationId message) =
      immutable (diagnosticRequest other message) := by
  simp [immutable, diagnosticRequest, diagnosticContext, Json.Fields.erase]

/-- `hashlib.sha256(text.encode()).hexdigest()` of the texts of two diagnostic
requests. -/
def diagnosticSha256 (text : String) : String :=
  if text = Json.dumps (immutable (diagnosticRequest "corr_tool_001" "hello from GENESIS")) then
    "8477611f2bb13ecdf5c79c34bfe07f629fe3d74754889638d8659066b53bfac7"
  else if text = Json.dumps (immutable (diagnosticRequest "corr_tool_001" "a different payload"))
    then "d5d2025f4f9b0e9c5879ff85212915be43896a5a3c74a9d60379d7c3e91ed28d"
  else ""

/-- An executor outside production that accepts every contract. -/
def diagnosticExecutor : ToolExecutor where
  contractValidator := ⟨fun _ => true, fun _ => true⟩
  sha256 := diagnosticSha256
  production := false

theorem requestDigest_hello (correlationId : String) :
    requestDigest diagnosticExecutor (diagnosticRequest correlationId "hello from GENESIS") =
      "8477611f2bb13ecdf5c79c34bfe07f629fe3d74754889638d8659066b53bfac7" := by
  rw [requestDigest, immutable_diagnosticRequest _ "corr_tool_001"]
  simp only [diagnosticExecutor, diagnosticSha256, ↓reduceIte]

def diagnosticState : ToolState where
  registry := getToolRegistry true
  records := fun _ => none

/-- The sink never fails, and the adapter echoes. -/
def diagnosticAnswers : (q : Question) → Answer q
  | .append _ => .returned
  | .execute _ arguments _ => .returned (DiagnosticEchoAdapter.execute arguments)

/-- The documented call meets the gates. -/
theorem diagnosticCall_gates {x : ToolExecutor} {s : ToolState} {correlationId message : String}
    (hx : x.production = false) (hregistry : s.registry = getToolRegistry true)
    (hmessage : 1 ≤ message.length ∧ message.length ≤ 256) :
    Gates x s (diagnosticCall correlationId message) (diagnosticEcho true)
      DiagnosticPrincipalResolver.principal where
  correlation := .inr rfl
  registered := by rw [hregistry]; rfl
  allowlisted := rfl
  active := rfl
  killSwitch := rfl
  production := by simp [hx]
  declaredScopes := by
    simp [diagnosticEcho, diagnosticCall, diagnosticRequest, diagnosticContext]
  declaredPermission := List.mem_singleton_self _
  authorized := ⟨rfl, rfl, rfl, rfl, rfl, by decide, by decide⟩
  arguments := by
    -- the arguments have the one key that is declared
    have hkeys : (((diagnosticCall correlationId message).request.arguments).map
        Prod.fst).toFinset = {"message"} := rfl
    simp only [diagnosticEcho, DiagnosticEchoAdapter.validateArguments, hkeys]
    simp [diagnosticCall, diagnosticRequest, Json.Fields.get?, hmessage]
  keyed := fun h => by cases h

end Alos.Tools
