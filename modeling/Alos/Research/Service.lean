import Mathlib.Data.Finset.Sort
import Alos.Identity
import Alos.Integrations.Genesis

/-! # Research requests

`ResearchService` and `project_domain_access` of `alos.research.service`. A call
of `request` asks the GENESIS client and the audit sink once each at most.

* `dispatch` is the exchange with GENESIS, `judge` what is made of the decision;
* `observe_request`: what is seen of a call, by how far it gets.
-/

namespace Alos.Research

open Coop Genesis Py

/-- The domains a question can belong to. -/
inductive ResearchDomain where
  | technology
  | propertyBusiness
  | management
  | propertyMarket
deriving DecidableEq, Repr

def ResearchDomain.value : ResearchDomain → String
  | .technology => "TECHNOLOGY"
  | .propertyBusiness => "PROPERTY_BUSINESS"
  | .management => "MANAGEMENT"
  | .propertyMarket => "PROPERTY_MARKET"

/-- Where the research may look: inside the organization or also outside. -/
inductive ResearchSourceMode where
  | internal
  | external
deriving DecidableEq, Repr

def ResearchSourceMode.value : ResearchSourceMode → String
  | .internal => "INTERNAL"
  | .external => "EXTERNAL"

/-- The permission every research request needs. -/
def requestPermission : String := "research.request"

/-- The permission that an EXTERNAL request needs besides. -/
def externalPermission : String := "research.external.read"

/-- The data scope that an EXTERNAL request needs besides. -/
def externalScope : String := "scope.sources.external_read"

/-- The one tool that an EXTERNAL request sends to GENESIS. -/
def externalTool : String := "research.external.retrieve"

/-- `DOMAIN_SCOPE`. -/
def domainScopes : List (ResearchDomain × String) :=
  [(.technology, "research.technology"), (.propertyBusiness, "research.property_business"),
    (.management, "research.management"), (.propertyMarket, "research.property_market")]

/-- `DOMAIN_SCOPE[domain]`. -/
def domainScope : ResearchDomain → String
  | .technology => "research.technology"
  | .propertyBusiness => "research.property_business"
  | .management => "research.management"
  | .propertyMarket => "research.property_market"

/-- What the caller asks: a question, a mode and a domain. -/
structure ResearchCommand where
  question : String
  sourceMode : ResearchSourceMode
  domain : ResearchDomain

/-! ## The projection -/

/-- `allowed`, of a domain with the required scope. -/
def Allowed (principal : Principal) (requiredScope : String) : Prop :=
  principal.active ∧ requestPermission ∈ principal.permissions ∧ requiredScope ∈ principal.scopes

instance (principal : Principal) (requiredScope : String) :
    Decidable (Allowed principal requiredScope) :=
  inferInstanceAs (Decidable (_ ∧ _ ∧ _))

/-- One row of the projection of a principal's access. -/
def domainAccess (principal : Principal) (domain : ResearchDomain) (requiredScope : String) : Json :=
  let allowed := decide (Allowed principal requiredScope)
  .obj [
    ("domain", .str domain.value),
    ("status", .str (if allowed then "AUTHORIZED" else "DENIED")),
    ("is_allowed", .bool allowed),
    ("reason", .str (if allowed then "Authorized by ALOS Backend policy."
      else "The principal lacks the required Backend permission or domain scope.")),
    ("required_scope", .str requiredScope)]

/-- `project_domain_access`: every domain with the answer whether this principal may ask in it. -/
def projectDomainAccess (principal : Principal) (correlationId : String) : Json.Fields :=
  [("domains", .arr (domainScopes.map fun item => domainAccess principal item.1 item.2)),
    ("correlation_id", .str correlationId)]

/-! ## The service -/

/-- What the service uses of Python's library: `repr`, and the hexadecimal
SHA-256 digest of a text. -/
structure Library where
  repr : Json → String
  sha256 : String → String

/-- The contracts and the client that the service is built over. -/
structure ResearchService where
  lib : Library
  contracts : CanonicalContractCatalog
  genesis : GenesisClient

/-- The contract of what is sent to GENESIS. -/
def analysisRequestSchema : String :=
  "https://schemas.alos.dev/v1/research/research-analysis-request.schema.json"

/-- The contract of what GENESIS answers. -/
def decisionSchema : String := "https://schemas.alos.dev/v1/research/research-decision.schema.json"

/-- The contract of the receipt that the caller gets. -/
def receiptSchema : String :=
  "https://schemas.alos.dev/v1/research/research-request-receipt.schema.json"

section Request

variable (x : ResearchService) (command : ResearchCommand) (principal : Principal)
  (correlationId : String)

/-- The first check of `request`. -/
def Refused : Prop :=
  ¬ principal.active ∨ requestPermission ∉ principal.permissions ∨
    domainScope command.domain ∉ principal.scopes

instance : Decidable (Refused command principal) := inferInstanceAs (Decidable (_ ∨ _ ∨ _))

/-- The caller asks for external sources, and holds what that takes. -/
def External : Prop :=
  command.sourceMode = .external ∧ externalPermission ∈ principal.permissions ∧
    externalScope ∈ principal.scopes

instance : Decidable (External command principal) := inferInstanceAs (Decidable (_ ∧ _ ∧ _))

/-- A list of texts. -/
def texts (values : List String) : Json := .arr (values.map .str)

/-- The tools sent along: none, unless the request is an external one that is permitted. -/
def allowedTools : List String := if External command principal then [externalTool] else []

/-- The permissions sent along, no more than the principal's own. -/
def permissionRefs : List String :=
  requestPermission :: if External command principal then [externalPermission] else []

/-- The scopes sent along: that of the domain, and the external one where it is permitted. -/
def scopeRefs : List String :=
  domainScope command.domain :: if External command principal then [externalScope] else []

/-- The execution context of the request, built from the principal and from nothing else. -/
def executionContext : Json.Fields :=
  let roleRefs := principal.roles.sort
  [("tenant_id", .str principal.tenantId),
    ("organization_id", .str principal.organizationId),
    ("workspace_id", .str principal.workspaceId),
    ("actor_id", .str principal.actorId),
    ("authority_context", .obj [
      ("role", .str (roleRefs.headD "AUTHENTICATED_USER")),
      ("role_refs", texts roleRefs),
      ("authority_level", .str "REQUESTER")]),
    ("permission_refs", texts (permissionRefs command principal)),
    ("allowed_tool_ids", texts (allowedTools command principal)),
    ("scope_refs", texts (scopeRefs command principal)),
    ("data_classification", .str "INTERNAL"),
    ("correlation_id", .str correlationId),
    ("execution_budget", .obj [
      ("max_cost", .int 0),
      ("max_tool_calls", .int (if allowedTools command principal = [] then 0 else 1)),
      ("timeout_seconds", .int 30)])]

/-- What is sent to GENESIS. -/
def payload : Json.Fields :=
  [("question", .str command.question),
    ("source_mode", .str command.sourceMode.value),
    ("domain", .str command.domain.value),
    ("execution_context", .obj (executionContext command principal correlationId))]

/-- `research_…`, the id of the request and of the entity of its event. -/
def requestId : String :=
  "research_" ++ String.ofList ((x.lib.sha256 correlationId).toList.take 24)

/-- `_event`. -/
def event (outcome decision : String) : AuditEvent where
  eventType := "research.request"
  entityType := "research_request"
  entityId := requestId x correlationId
  tenantId := principal.tenantId
  organizationId := principal.organizationId
  workspaceId := principal.workspaceId
  actorId := principal.actorId
  correlationId := correlationId
  outcome := outcome
  reason := "Backend-governed research decision"
  metadata := [("domain", .str command.domain.value), ("decision", .str decision)]

/-- The event of a request that the scope check refuses. -/
def deniedEvent : AuditEvent := event x command principal correlationId "DENIED" "SCOPE_DENIED"

/-- The event of a decision that was accepted. -/
def successEvent (decisionKind : String) : AuditEvent :=
  event x command principal correlationId "SUCCESS" decisionKind

/-- An append that raises ends the request. -/
def settle : Alos.Appended → Except Exn Unit
  | .returned => .ok ()
  | .raised => .error .audit

/-- Appends one event and waits for the sink. -/
def auditEvent (e : AuditEvent) : GenesisOp Unit := do
  let appended : Alos.Appended ← .ask (Question.append e)
  .ofExcept (settle appended)

/-- The refusal of a principal without the scopes of the request. -/
def scopeDenied : PlatformError where
  code := "RESEARCH_SCOPE_DENIED"
  message := "The principal is not authorized for the requested research domain."
  statusCode := 403
  correlationId := some correlationId

/-- The `except` clauses; a schema that is not there is no violation. -/
def boundaryRefusal : Exn → Exn
  | .contract (.invalid _ path reason) => .platform {
      code := "RESEARCH_CONTRACT_INVALID"
      message := "Research boundary payload failed canonical contract validation."
      statusCode := 502
      details := some [("path", .str path), ("reason", .str reason)]
      correlationId := some correlationId }
  | .client e => clientRefusal correlationId e
  | e => e

/-- `self._contracts.validate(schema, payload)`. -/
def validate (schema : String) (payload : Json.Fields) : Except Exn Json.Fields :=
  (x.contracts.validate schema payload).mapError .contract

/-- The body of the `try`. -/
def dispatch : GenesisOp Json.Fields := do
  let validatedRequest ← .ofExcept
    (validate x analysisRequestSchema (payload command principal correlationId))
  let decision ← x.genesis.research correlationId validatedRequest
  .ofExcept (validate x decisionSchema decision)

/-- `state`. -/
def receiptState (decisionKind : String) : String :=
  if decisionKind = "REQUEST_EXTERNAL_RESEARCH" ∨ decisionKind = "INSUFFICIENT_EVIDENCE" ∨
      decisionKind = "NEEDS_INFORMATION" then "NEEDS_REVIEW"
  else "RECEIVED"

/-- What the caller is told of the decision. -/
def receipt (decisionKind : String) : Json.Fields :=
  [("request_id", .str (requestId x correlationId)),
    ("state", .str (receiptState decisionKind)),
    ("correlation_id", .str correlationId),
    ("decision", .str decisionKind)]

/-- The refusal of a decision that answers another request. -/
def correlationMismatch : PlatformError where
  code := "RESEARCH_CORRELATION_MISMATCH"
  message := "GENESIS research decision correlation does not match the Backend request."
  statusCode := 502
  correlationId := some correlationId

/-- What is made of a validated decision: its kind, and the validated receipt. -/
def judge (decision : Json.Fields) : Except Exn (String × Json.Fields) := do
  let returned ← (item decision "correlation_id").mapError .missing
  Except.require (EqText returned correlationId) (.platform (correlationMismatch correlationId))
  let kind ← (item decision "decision").mapError .missing
  let decisionKind := str x.lib.repr kind
  let validatedReceipt ← validate x receiptSchema (receipt x correlationId decisionKind)
  return (decisionKind, validatedReceipt)

/-- `request`: the scope check first, then GENESIS, and the receipt last. -/
def request : GenesisOp Json.Fields :=
  if Refused command principal then do
    auditEvent (deniedEvent x command principal correlationId)
    .raise (.platform (scopeDenied correlationId))
  else do
    let decision ← (dispatch x command principal correlationId).rescue fun e =>
      .raise (boundaryRefusal correlationId e)
    let judged ← .ofExcept (judge x correlationId decision)
    auditEvent (successEvent x command principal correlationId judged.1)
    pure judged.2

end Request

/-! ## What is seen of a call -/

section Seen

variable (x : ResearchService) (command : ResearchCommand) (principal : Principal)
  (correlationId : String) (answer : (q : Question) → Answer q)

/-- What is seen of a call: all that it asks and is answered. -/
def seen : Observed (Exchange Question Answer) Exn Json.Fields :=
  observe some answer (request x command principal correlationId)

/-- The message to GENESIS. -/
def message : GenesisRequest :=
  x.genesis.outgoing correlationId "POST" "/internal/v1/research"
    (some (payload command principal correlationId))

/-- A question with its answer. -/
def told (q : Question) : Exchange Question Answer := ⟨q, answer q⟩

/-- What the answer of GENESIS comes to: the kind of the decision, and the receipt. -/
def resolved (outcome : Outcome) : Except Exn (String × Json.Fields) := do
  let decision ← (do
    let decision ← received correlationId outcome
    validate x decisionSchema decision).mapError (boundaryRefusal correlationId)
  judge x correlationId decision

theorem observe_auditEvent (e : AuditEvent) :
    observe some answer (auditEvent e) =
      ⟨settle (answer (.append e)), [told answer (.append e)]⟩ := by
  simp only [auditEvent, Proc.bind_def, Proc.ask_bind, observe_await, observe_ofExcept,
    Option.toList_some, List.append_nil, told]

/-- How a call ends, by how far it gets. -/
inductive Ended : Observed (Exchange Question Answer) Exn Json.Fields → Prop where
  | refused (h : Refused command principal)
      (hsink : answer (.append (deniedEvent x command principal correlationId)) = .returned) :
      Ended ⟨.error (.platform (scopeDenied correlationId)),
        [told answer (.append (deniedEvent x command principal correlationId))]⟩
  | unrefused (h : Refused command principal)
      (hsink : answer (.append (deniedEvent x command principal correlationId)) = .raised) :
      Ended ⟨.error .audit,
        [told answer (.append (deniedEvent x command principal correlationId))]⟩
  | unsent {e} (h : ¬ Refused command principal)
      (hinvalid : validate x analysisRequestSchema (payload command principal correlationId) =
        .error e) :
      Ended ⟨.error (boundaryRefusal correlationId e), []⟩
  | failed {e} (h : ¬ Refused command principal)
      (hvalid : ∃ validated,
        validate x analysisRequestSchema (payload command principal correlationId) = .ok validated)
      (hresolved : resolved x correlationId
        (answer (.send (message x command principal correlationId))) = .error e) :
      Ended ⟨.error e, [told answer (.send (message x command principal correlationId))]⟩
  | unrecorded {judged} (h : ¬ Refused command principal)
      (hvalid : ∃ validated,
        validate x analysisRequestSchema (payload command principal correlationId) = .ok validated)
      (hresolved : resolved x correlationId
        (answer (.send (message x command principal correlationId))) = .ok judged)
      (hsink : answer (.append (successEvent x command principal correlationId judged.1)) = .raised) :
      Ended ⟨.error .audit, [told answer (.send (message x command principal correlationId)),
        told answer (.append (successEvent x command principal correlationId judged.1))]⟩
  | completed {judged} (h : ¬ Refused command principal)
      (hvalid : ∃ validated,
        validate x analysisRequestSchema (payload command principal correlationId) = .ok validated)
      (hresolved : resolved x correlationId
        (answer (.send (message x command principal correlationId))) = .ok judged)
      (hsink : answer (.append (successEvent x command principal correlationId judged.1)) = .returned) :
      Ended ⟨.ok judged.2, [told answer (.send (message x command principal correlationId)),
        told answer (.append (successEvent x command principal correlationId judged.1))]⟩

variable {x command principal correlationId answer}

/-- Validation does not change a payload. -/
theorem validate_ok {schema : String} {payload validated : Json.Fields}
    (h : validate x schema payload = .ok validated) : validated = payload :=
  CanonicalContractCatalog.validate_eq (Except.mapError_eq_ok.1 h)

/-- A request that violates the contract is not sent. -/
theorem observe_dispatch_error {e : Exn}
    (h : validate x analysisRequestSchema (payload command principal correlationId) = .error e) :
    observe some answer (dispatch x command principal correlationId) = ⟨.error e, []⟩ := by
  simp only [dispatch, h, Proc.bind_def, observe_bind, observe_ofExcept, Observed.bind_error]

theorem observe_dispatch {validatedRequest : Json.Fields}
    (h : validate x analysisRequestSchema (payload command principal correlationId) =
      .ok validatedRequest) :
    observe some answer (dispatch x command principal correlationId) =
      ⟨do
        let decision ← received correlationId
          (answer (.send (message x command principal correlationId)))
        validate x decisionSchema decision,
        [told answer (.send (message x command principal correlationId))]⟩ := by
  have hsame : validatedRequest = payload command principal correlationId := validate_ok h
  subst hsame
  simp only [dispatch, h, Proc.bind_def, observe_bind, observe_ofExcept, Observed.bind_ok,
    List.nil_append, GenesisClient.research, observe_request, Observed.bind_quiet]
  rfl

variable (x command principal correlationId answer)

/-- Whatever GENESIS and the sink answer, the request ends in one of the ways of `Ended`. -/
theorem ended : Ended x command principal correlationId answer
    (seen x command principal correlationId answer) := by
  unfold seen request
  split
  -- a refusal is recorded, and nothing is sent
  · rename_i hrefused
    simp only [Proc.bind_def, observe_bind, observe_auditEvent, observe_raise]
    cases hsink : answer (.append (deniedEvent x command principal correlationId)) with
    | returned => exact .refused hrefused hsink
    | raised => exact .unrefused hrefused hsink
  -- the request is sent when its own contract holds
  · rename_i hadmitted
    simp only [Proc.bind_def, Proc.pure_def, observe_bind, observe_rescue, observe_ofExcept,
      observe_auditEvent, observe_ret, observe_raise]
    cases hrequest : validate x analysisRequestSchema (payload command principal correlationId) with
    | error e =>
        rw [observe_dispatch_error hrequest]
        exact .unsent hadmitted hrequest
    | ok validatedRequest =>
        rw [observe_dispatch hrequest, Observed.rescue_mapError]
        rw [Observed.bind_bind_silent, ← resolved]
        cases hjudged : resolved x correlationId
            (answer (.send (message x command principal correlationId))) with
        | error e => exact .failed hadmitted ⟨_, hrequest⟩ hjudged
        | ok judged =>
            simp only [Observed.bind_ok]
            cases hsink : answer
                (.append (successEvent x command principal correlationId judged.1)) with
            | raised => exact .unrecorded hadmitted ⟨_, hrequest⟩ hjudged hsink
            | returned => exact .completed hadmitted ⟨_, hrequest⟩ hjudged hsink

end Seen

end Alos.Research
