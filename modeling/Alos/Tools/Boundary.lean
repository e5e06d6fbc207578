import Alos.Errors
import Alos.Tools.Outputs

/-! # The internal tool boundary

`POST /internal/v1/tool-requests`: the service token, the principal that the
backend resolves, the executor over the registry of `get_tool_registry`, and the
idempotency store that all requests share.

* `route` is what a request comes to before the executor runs;
* `echoes_upheld`: what passes the checks is meant for the test tool, and what
  the tool answers is an echo;
* `boundary_guarded` is the result: who gets in, what is executed, and what
  every success echoes.
-/

namespace Alos.Tools

open Coop

inductive AppEnv where
  | development
  | test
  | staging
  | production
deriving DecidableEq, Repr

structure Settings where
  appEnv : AppEnv
  genesisInternalToken : String
  enableTestTools : Bool
  -- `forbid_test_tools_in_production`
  testTools : enableTestTools = true → appEnv ≠ .production

/-- The application, once its contracts are loaded. -/
structure Backend where
  settings : Settings
  contractValidator : ToolContractValidator
  sha256 : String → String

def Backend.executor (b : Backend) : ToolExecutor where
  contractValidator := b.contractValidator
  sha256 := b.sha256
  production := b.settings.appEnv = .production

/-! ## The route -/

inductive BoundaryError where
  | platform (e : PlatformError)
  | typeError

def internalAuthDenied : BoundaryError := .platform
  { code := "INTERNAL_AUTH_DENIED"
    message := "Internal service authentication failed."
    statusCode := 401 }

/-- `secrets.compare_digest(a, b)`; texts beyond ASCII raise a `TypeError`. -/
def compareDigest (a b : String) : Except BoundaryError Bool :=
  if (a.toList ++ b.toList).all fun c => c.toNat < 128 then .ok (a = b) else .error .typeError

def verifyInternalToken (settings : Settings) (authorization : Option String) :
    Except BoundaryError Unit :=
  let expected := "Bearer " ++ settings.genesisInternalToken
  if settings.genesisInternalToken = "" then .error internalAuthDenied
  else match authorization with
    | none => .error internalAuthDenied
    | some authorization =>
      match compareDigest expected authorization with
      | .error e => .error e
      | .ok false => .error internalAuthDenied
      | .ok true => .ok ()

structure InternalRequest where
  authorization : Option String
  /-- `current_correlation_id()`. -/
  correlationId : String
  payload : ToolRequest

/-- The call of the executor that a request leads to. -/
def route (settings : Settings) (r : InternalRequest) : Except BoundaryError ToolCall :=
  match verifyInternalToken settings r.authorization with
  | .error e => .error e
  | .ok () => .ok {
      request := r.payload
      principal := DiagnosticPrincipalResolver.resolve r.payload.executionContext.fields
      transportCorrelationId := some r.correlationId }

theorem compareDigest_ok {a b : String} (h : compareDigest a b = .ok true) : a = b := by
  unfold compareDigest at h
  split at h
  · simpa using h
  · cases h

/-- Only the configured token gets in. -/
theorem verifyInternalToken_ok {settings : Settings} {authorization : Option String}
    (h : verifyInternalToken settings authorization = .ok ()) :
    settings.genesisInternalToken ≠ "" ∧
      authorization = some ("Bearer " ++ settings.genesisInternalToken) := by
  unfold verifyInternalToken at h
  simp only at h
  split at h
  · cases h
  -- the token is configured; then the header must carry it
  · rename_i htoken
    refine ⟨htoken, ?_⟩
    split at h
    · cases h
    · split at h
      · cases h
      · cases h
      · rename_i hcompare
        rw [compareDigest_ok hcompare]

theorem route_ok {settings : Settings} {r : InternalRequest} {c : ToolCall}
    (h : route settings r = .ok c) :
    verifyInternalToken settings r.authorization = .ok () ∧ c.request = r.payload ∧
      c.principal = DiagnosticPrincipalResolver.resolve r.payload.executionContext.fields ∧
      c.transportCorrelationId = some r.correlationId := by
  unfold route at h
  split at h
  · cases h
  · rename_i hverify
    cases h
    exact ⟨hverify, rfl, rfl, rfl⟩

/-! ## Overlapping requests -/

inductive BoundaryStep where
  /-- Request number `i` arrives. -/
  | request (i : ℕ) (r : InternalRequest)
  /-- What request number `i` awaits is over; an append ends so. -/
  | resume (i : ℕ) (appended : Appended)

/-- The adapter of the one tool that is registered echoes. -/
def answers (appended : Appended) : (q : Question) → Answer q
  | .append _ => appended
  | .execute _ arguments _ => .returned (DiagnosticEchoAdapter.execute arguments)

/-- What a step means for the executor: a request that is refused does not reach
it. -/
def BoundaryStep.toStep? (settings : Settings) :
    BoundaryStep → Option (Step ToolCall Question Answer)
  | .request i r =>
      match route settings r with
      | .ok c => some (.call i c)
      | .error _ => none
  | .resume i appended => some (.resume i (answers appended))

namespace Backend

variable (b : Backend) (xs : List BoundaryStep)

def steps : List (Step ToolCall Question Answer) := xs.filterMap (·.toStep? b.settings)

/-- The system after the steps `xs`, from an empty store. -/
def after : ToolSys := served b.executor (getToolRegistry b.settings.enableTestTools) (b.steps xs)

/-- The call is that of a request which has got in. -/
def Sent (c : ToolCall) : Prop :=
  ∃ i r, .request i r ∈ xs ∧ route b.settings r = .ok c

variable {b xs}

theorem sent_of_mem {i : ℕ} {c : ToolCall} (h : .call i c ∈ b.steps xs) : b.Sent xs c := by
  rcases List.mem_filterMap.1 h with ⟨step, hstep, hcall⟩
  cases step with
  | resume j appended => cases hcall
  | request j r =>
      simp only [BoundaryStep.toStep?] at hcall
      split at hcall
      · rename_i d hroute
        cases hcall
        exact ⟨i, r, hstep, hroute⟩
      · cases hcall

theorem answers_of_mem {i : ℕ} {reply : (q : Question) → Answer q}
    (h : .resume i reply ∈ b.steps xs) : ∃ appended, reply = answers appended := by
  rcases List.mem_filterMap.1 h with ⟨step, hstep, hresume⟩
  cases step with
  | request j r =>
      simp only [BoundaryStep.toStep?] at hresume
      split at hresume <;> cases hresume
  | resume j appended =>
      cases hresume
      exact ⟨appended, rfl⟩

end Backend

/-! ## What gets to the tool -/

/-- The call is one that the test tool is meant for. -/
structure Passed (b : Backend) (c : ToolCall) : Prop where
  environment : b.settings.appEnv ≠ .production
  enabled : b.settings.enableTestTools = true
  tool : c.request.toolId = "diagnostic.echo"
  tenant : c.request.executionContext.tenantId = DiagnosticPrincipalResolver.tenantId
  organization : c.request.executionContext.organizationId =
    DiagnosticPrincipalResolver.organizationId
  workspace : c.request.executionContext.workspaceId = DiagnosticPrincipalResolver.workspaceId
  actor : c.request.executionContext.actorId = DiagnosticPrincipalResolver.actorId
  correlation : c.transportCorrelationId = some c.request.executionContext.correlationId
  permission : "tools.diagnostic.execute" ∈ c.request.executionContext.permissionRefs
  scope : "scope.diagnostic" ∈ c.request.executionContext.scopeRefs
  message : DiagnosticEchoAdapter.validateArguments c.request.arguments = none

/-- What the checks let pass. -/
theorem passed_of_verdict {b : Backend} {xs : List BoundaryStep} {s : ToolState} {c : ToolCall}
    (hsent : b.Sent xs c) (hregistry : s.registry = getToolRegistry b.settings.enableTestTools)
    {registration : ToolRegistration} (h : c.verdict b.executor s = .ok registration) :
    Passed b c := by
  rcases hsent with ⟨i, r, -, hroute⟩
  rcases route_ok hroute with ⟨-, hrequest, hprincipal, htransport⟩
  rcases gates_of_verdict h with ⟨p, hgates⟩
  obtain ⟨henabled, hproduction⟩ := diagnostic_gates hregistry hgates
  have hregistered := hgates.registered
  simp only [hregistry, ToolRegistry.get, getToolRegistry] at hregistered
  have htool : c.request.toolId = "diagnostic.echo" := by
    by_contra hne
    rw [if_neg hne] at hregistered
    cases hregistered
  rw [if_pos htool] at hregistered
  cases hregistered
  -- the principal is that of the documented context
  have hknown := hgates.authorized.known
  rw [hprincipal, ← hrequest, DiagnosticPrincipalResolver.resolve_eq_some_iff] at hknown
  obtain ⟨htenant, horganization, hworkspace, hactor, -⟩ := hknown
  refine ⟨b.settings.testTools henabled, henabled, htool, htenant, horganization, hworkspace,
    hactor, ?_, hgates.declaredPermission, ?_, hgates.arguments⟩
  · rcases hgates.correlation with hnone | hsame
    · rw [htransport] at hnone
      cases hnone
    · exact hsame
  · have hscopes := hgates.declaredScopes (Finset.mem_singleton_self _)
    exact List.mem_toFinset.1 hscopes

/-! ## What it answers -/

/-- The output is the echo of the arguments of the call, up to the order of
their keys. -/
def Echo (c : ToolCall) (output : Json) : Prop :=
  output.Same (DiagnosticEchoAdapter.execute c.request.arguments)

/-- SHA-256 does not collide on the requests that get in. -/
def Backend.CollisionFree (b : Backend) (xs : List BoundaryStep) : Prop :=
  ∀ c d, b.Sent xs c → b.Sent xs d →
    requestDigest b.executor c.request = requestDigest b.executor d.request →
    Json.dumps (immutable c.request) = Json.dumps (immutable d.request)

/-- An echo of a request is one of the same request. -/
theorem Echo.congr {a c : ToolCall} (h : a.request.arguments.Same c.request.arguments)
    {output : Json} (hecho : Echo a output) : Echo c output := by
  have hsort : Json.sortKeys (.obj a.request.arguments) =
      Json.sortKeys (.obj c.request.arguments) := h
  simp only [Echo, DiagnosticEchoAdapter.execute, Json.Same, Json.sortKeys, Json.sortKeysItems]
    at hsort hecho ⊢
  rw [hecho, hsort]

theorem echoes_upheld {b : Backend} {xs : List BoundaryStep} (hcollision : b.CollisionFree xs) :
    Upheld b.executor (getToolRegistry b.settings.enableTestTools) (b.steps xs) (Passed b) Echo where
  checked := by
    intro i c s registration hcall hregistry hverdict
    exact passed_of_verdict (Backend.sent_of_mem hcall) hregistry hverdict
  answered := by
    intro i reply c output hresume _ hreply
    rcases Backend.answers_of_mem hresume with ⟨appended, rfl⟩
    cases hreply
    rfl
  same := by
    intro i a j c output ha hc hdigest _ hecho
    have hdumps := hcollision a c (Backend.sent_of_mem ha) (Backend.sent_of_mem hc) hdigest
    exact hecho.congr (dumps_immutable_iff.1 hdumps).arguments

/-! ## Every run -/

/-- What the boundary guarantees of overlapping requests. -/
structure Guarded (b : Backend) (xs : List BoundaryStep) : Prop where
  /-- Whoever reaches the executor has sent the configured token. -/
  authenticated : ∀ l ∈ (b.after xs).trace, ∃ i r, .request i r ∈ xs ∧
    b.settings.genesisInternalToken ≠ "" ∧
    r.authorization = some ("Bearer " ++ b.settings.genesisInternalToken) ∧
    l.call.request = r.payload
  /-- Nothing but the test tool is executed, for the documented actor and outside
  production. -/
  executed : ∀ l ∈ (b.after xs).trace, CallsOut l → Passed b l.call
  /-- Every success is for such a call and echoes its own arguments, be it
  executed or replayed. -/
  succeeded : ∀ l ∈ (b.after xs).trace, ∀ output, succeededOutput l = some output →
    Passed b l.call ∧ Echo l.call output

/-- Requests that overlap in any order, with appends that may fail. -/
theorem boundary_guarded (b : Backend) (xs : List BoundaryStep)
    (hcollision : b.CollisionFree xs) : Guarded b xs := by
  have htold := upheld_run (echoes_upheld hcollision)
  refine ⟨?_, fun l hl => (htold l hl).executed, fun l hl => (htold l hl).succeeded⟩
  intro l hl
  rcases Backend.sent_of_mem (call_of_mem hl) with ⟨i, r, hr, hroute⟩
  obtain ⟨hverify, hrequest, -, -⟩ := route_ok hroute
  obtain ⟨htoken, hauthorization⟩ := verifyInternalToken_ok hverify
  exact ⟨i, r, hr, htoken, hauthorization, hrequest⟩

/-- The backend of the tests. -/
def testBackend : Backend where
  settings := ⟨.test, "test-only-token", true, by decide⟩
  contractValidator := ⟨fun _ => true, fun _ => true⟩
  sha256 := diagnosticSha256

def diagnosticSent (correlationId : String) : InternalRequest where
  authorization := some "Bearer test-only-token"
  correlationId := correlationId
  payload := diagnosticRequest correlationId "hello from GENESIS"

/-- A request, and its replay by another one. -/
def replayedSteps : List BoundaryStep :=
  [.request 0 (diagnosticSent "corr_tool_001"), .resume 0 .returned, .resume 0 .returned,
    .resume 0 .returned, .request 1 (diagnosticSent "corr_tool_002"), .resume 1 .returned,
    .resume 1 .returned, .resume 1 .returned]

example : ((testBackend.after replayedSteps).trace.filterMap succeededOutput).length = 2 := by
  decide +kernel

theorem boundary_guarded_replayed : Guarded testBackend replayedSteps := by
  apply boundary_guarded
  have hpayload : ∀ c, testBackend.Sent replayedSteps c →
      ∃ correlationId, c.request = diagnosticRequest correlationId "hello from GENESIS" := by
    rintro c ⟨i, r, hr, hroute⟩
    rw [(route_ok hroute).2.1]
    simp only [replayedSteps, List.mem_cons, BoundaryStep.request.injEq, reduceCtorEq,
      List.not_mem_nil, or_false, false_or] at hr
    rcases hr with ⟨-, rfl⟩ | ⟨-, rfl⟩ <;> exact ⟨_, rfl⟩
  intro c d hc hd hdigest
  rcases hpayload c hc with ⟨correlationId, hc'⟩
  rcases hpayload d hd with ⟨other, hd'⟩
  rw [hc', hd', immutable_diagnosticRequest correlationId other]

end Alos.Tools
