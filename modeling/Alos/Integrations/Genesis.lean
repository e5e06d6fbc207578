import Alos.Audit
import Alos.Contracts
import Alos.Coop.Guards
import Alos.Coop.Observed
import Alos.Errors
import Alos.Py

/-! # The GENESIS client

`GenesisClient` of `alos.integrations.genesis.client`, the validator next to it,
and the route `/system/integration` that uses both. The HTTP client and the JSON
Schema validator are outside the modelled code: a request comes to an `Outcome`.

* `received` is what the client makes of an outcome;
* `Told` is what a caller of the Backend is told of a failure;
* `diagnosed`: the route answers just when GENESIS has answered in kind and the
  contract of the Backend accepts what is made of it.
-/

namespace Alos.Genesis

open Coop Py

/-- `GenesisClientError`. -/
structure GenesisClientError where
  code : String
  message : String
  correlationId : String
  retryable : Bool
  statusCode : Option ℕ := none
deriving DecidableEq, Repr

/-- What can be raised at the GENESIS boundary: a `PlatformError`, what the
contract catalog raises, an `IntegrationContractError`, a `GenesisClientError`, a
`KeyError`, what the audit sink raises, and anything else. -/
inductive Exn where
  | platform (e : PlatformError)
  | contract (e : ContractError)
  | integration (path reason : String)
  | client (e : GenesisClientError)
  | missing (key : String)
  | audit
  | other

/-- What is handed to the HTTP client. -/
structure GenesisRequest where
  method : String
  path : String
  headers : List (String × String)
  json : Option Json.Fields

/-- What the HTTP client makes of a request: `httpx.TimeoutException`, any other
`httpx.RequestError`, anything else that is raised, or a response. `body` is the
parsed body, unless parsing raises a `ValueError`. -/
inductive Outcome where
  | timeout
  | request
  | other
  | response (statusCode : ℕ) (body : Option Json)

/-- What a call waits for: the response, and the sink. -/
inductive Question where
  | send (request : GenesisRequest)
  | append (event : AuditEvent)

/-- What httpx makes of a request, and whether the sink returns. -/
abbrev Answer : Question → Type
  | .send _ => Outcome
  | .append _ => Alos.Appended

/-- A call that keeps no state. -/
abbrev GenesisOp (α : Type) := Proc Unit Question Answer Exn α

/-! ## The client -/

structure GenesisClient where
  internalToken : String

/-- `response.is_success`. -/
def IsSuccess (statusCode : ℕ) : Prop := 200 ≤ statusCode ∧ statusCode ≤ 299

instance (statusCode : ℕ) : Decidable (IsSuccess statusCode) := inferInstanceAs (Decidable (_ ∧ _))

section Client

variable (correlationId : String)

/-- The error of a response that is not what the client expects. -/
def invalidResponse (message : String) (statusCode : ℕ) : Exn :=
  .client {
    code := "GENESIS_INVALID_RESPONSE"
    message := message
    correlationId := correlationId
    retryable := false
    statusCode := some statusCode }

/-- `_request`, from the answer of the HTTP client on. -/
def received : Outcome → Except Exn Json.Fields
  | .timeout => .error (.client {
      code := "GENESIS_TIMEOUT"
      message := "GENESIS did not respond before the configured timeout."
      correlationId := correlationId
      retryable := true })
  | .request => .error (.client {
      code := "GENESIS_UNAVAILABLE"
      message := "GENESIS transport is unavailable."
      correlationId := correlationId
      retryable := true })
  | .other => .error .other
  | .response statusCode body =>
      -- `raise_for_status`: a redirect is no success either
      if ¬ IsSuccess statusCode then
        .error (.client {
          code := "GENESIS_HTTP_ERROR"
          message := "GENESIS returned a non-success response."
          correlationId := correlationId
          retryable := 500 ≤ statusCode
          statusCode := some statusCode })
      else match body with
        | none => .error (invalidResponse correlationId "GENESIS response is not valid JSON." statusCode)
        | some (.obj document) => .ok document
        | some _ =>
            .error (invalidResponse correlationId "GENESIS response must be a JSON object." statusCode)

namespace GenesisClient

variable (x : GenesisClient)

/-- The headers of every request; the token is sent when there is one. -/
def headers : List (String × String) :=
  ("X-Correlation-ID", correlationId) ::
    if x.internalToken = "" then [] else [("Authorization", "Bearer " ++ x.internalToken)]

/-- What `_request` hands to the HTTP client. -/
def outgoing (method path : String) (payload : Option Json.Fields := none) : GenesisRequest where
  method := method
  path := path
  headers := x.headers correlationId
  json := payload

/-- `_request`. -/
def request (r : GenesisRequest) : GenesisOp Json.Fields := do
  let outcome : Outcome ← .ask (Question.send r)
  .ofExcept (received correlationId outcome)

/-- `health`. -/
def health : GenesisOp Json.Fields :=
  request correlationId (x.outgoing correlationId "GET" "/internal/v1/health")

/-- `diagnostic`. -/
def diagnostic : GenesisOp Json.Fields :=
  request correlationId (x.outgoing correlationId "GET" "/internal/v1/system/integration")

variable (payload : Json.Fields)

/-- `create_agent_run`. -/
def createAgentRun : GenesisOp Json.Fields :=
  request correlationId (x.outgoing correlationId "POST" "/internal/v1/agent-runs" (some payload))

/-- `analyze_factory`. -/
def analyzeFactory : GenesisOp Json.Fields :=
  request correlationId
    (x.outgoing correlationId "POST" "/internal/v1/factory/analyze" (some payload))

/-- `research`. -/
def research : GenesisOp Json.Fields :=
  request correlationId (x.outgoing correlationId "POST" "/internal/v1/research" (some payload))

/-- `review`. -/
def review : GenesisOp Json.Fields :=
  request correlationId (x.outgoing correlationId "POST" "/internal/v1/reviews" (some payload))

end GenesisClient

/-- What the client raises, as the callers of the Backend are told. -/
def clientRefusal (e : GenesisClientError) : Exn :=
  .platform {
    code := e.code
    message := e.message
    statusCode := if e.code = "GENESIS_TIMEOUT" ∨ e.code = "GENESIS_UNAVAILABLE" then 503 else 502
    retryable := e.retryable
    correlationId := some correlationId }

end Client

/-! ## The diagnostic route -/

/-- `IntegrationContractValidator`: path and message of the first error of a
response of GENESIS, and of one of the Backend. -/
structure IntegrationContractValidator where
  genesisError : Json.Fields → Option (String × String)
  publicError : Json.Fields → Option (String × String)

/-- `_validate`. -/
def validated (firstError : Json.Fields → Option (String × String)) (payload : Json.Fields) :
    Except Exn Unit :=
  match firstError payload with
  | some (path, reason) => .error (.integration path reason)
  | none => .ok ()

/-- Validation passes exactly when the schema has nothing against the payload. -/
theorem validated_ok {firstError : Json.Fields → Option (String × String)} {payload : Json.Fields}
    {u : Unit} : validated firstError payload = .ok u ↔ firstError payload = none := by
  unfold validated
  cases firstError payload with
  | none => simp
  | some found => simp

section Diagnostic

variable (v : IntegrationContractValidator) (correlationId : String)

/-- The answer of GENESIS carries the id that it was sent. -/
def requireCorrelation (document : Json.Fields) : Except Exn Unit := do
  let returned ← (item document "correlation_id").mapError .missing
  Except.require (EqText returned correlationId)
    (.integration "correlation_id" "GENESIS must return the correlation_id sent by Backend.")

/-- What the body of the `try` makes of an outcome. -/
def accepted (outcome : Outcome) : Except Exn Json.Fields := do
  let document ← received correlationId outcome
  validated v.genesisError document
  requireCorrelation correlationId document
  return document

/-- The `except` clauses around the exchange. -/
def exchangeRefusal : Exn → Exn
  | .client e => clientRefusal correlationId e
  | .integration path reason => .platform {
      code := "GENESIS_INVALID_RESPONSE"
      message := "GENESIS response does not satisfy the canonical contract."
      statusCode := 502
      details := some [("path", .str path), ("reason", .str reason)]
      correlationId := some correlationId }
  | e => e

/-- The `except` clause around the response. -/
def responseRefusal : Exn → Exn
  | .integration path reason => .platform {
      code := "INTEGRATION_RESPONSE_INVALID"
      message := "Backend integration response does not satisfy the canonical contract."
      statusCode := 500
      details := some [("path", .str path), ("reason", .str reason)]
      correlationId := some correlationId }
  | e => e

/-- The body that tells the caller the integration works. -/
def connected (document : Json.Fields) : Json.Fields :=
  [("correlation_id", .str correlationId),
    ("status", .str "connected"),
    ("backend", .obj [
      ("service", .str "alos-backend"),
      ("status", .str "reachable"),
      ("authority", .str "ALOS_BACKEND")]),
    ("genesis", .obj document)]

/-- `integration_diagnostic`. -/
def integrationDiagnostic (x : GenesisClient) : GenesisOp Json.Fields := do
  let probe : GenesisOp Json.Fields := do
    let document ← x.diagnostic correlationId
    .ofExcept (validated v.genesisError document)
    .ofExcept (requireCorrelation correlationId document)
    pure document
  let document ← probe.rescue fun e => .raise (exchangeRefusal correlationId e)
  let response := connected correlationId document
  .ofExcept ((validated v.publicError response).mapError (responseRefusal correlationId))
  pure response

end Diagnostic

/-! ## What a failure tells -/

/-- GENESIS was not reached, or not in time. -/
def Unreached : Outcome → Prop
  | .timeout | .request => True
  | .other | .response .. => False

/-- The fault is not in the request. -/
def Transient : Outcome → Prop
  | .timeout | .request => True
  | .other => False
  | .response statusCode _ => 500 ≤ statusCode

/-- What the error says of the exchange with GENESIS, if there was one. -/
structure Told (correlationId : String) (outcome : Option Outcome) (e : PlatformError) : Prop where
  correlation : e.correlationId = some correlationId
  retryable : e.retryable = true ↔ ∃ o ∈ outcome, Transient o
  unavailable : e.statusCode = 503 ↔ ∃ o ∈ outcome, Unreached o

/-- An error of the exchange that has nothing to do with the transport. -/
theorem Told.refusal {correlationId : String} {outcome : Option Outcome} {e : PlatformError}
    (hcorrelation : e.correlationId = some correlationId) (hretryable : e.retryable = false)
    (hstatus : e.statusCode ≠ 503) (h : ∀ o ∈ outcome, ¬ Transient o) :
    Told correlationId outcome e where
  correlation := hcorrelation
  retryable := by
    rw [hretryable]
    constructor
    · intro hfalse
      cases hfalse
    · rintro ⟨o, ho, htransient⟩
      exact absurd htransient (h o ho)
  unavailable := by
    constructor
    · exact fun h503 => absurd h503 hstatus
    · rintro ⟨o, ho, hunreached⟩
      apply absurd _ (h o ho)
      -- of the four outcomes only two are failures of the transport
      cases o with
      | timeout => trivial
      | request => trivial
      | other => exact hunreached.elim
      | response statusCode body => exact hunreached.elim

section Received

variable {correlationId : String} {outcome : Outcome}

/-- A document is received of a success alone. -/
theorem received_ok {document : Json.Fields} :
    received correlationId outcome = .ok document ↔
      ∃ statusCode, IsSuccess statusCode ∧ outcome = .response statusCode (some (.obj document)) := by
  constructor
  · intro h
    unfold received at h
    split at h
    · cases h
    · cases h
    · cases h
    -- a response is read when its status is a success and its body an object
    · rename_i statusCode body
      split at h
      · cases h
      · rename_i hsuccess
        split at h <;> cases h
        exact ⟨statusCode, not_not.1 hsuccess, rfl⟩
  · rintro ⟨statusCode, hsuccess, rfl⟩
    simp [received, hsuccess]

/-- A response of a 2xx status is no failure to be tried again. -/
theorem not_transient_of_success {statusCode : ℕ} {body : Option Json} (h : IsSuccess statusCode) :
    ¬ Transient (.response statusCode body) := by
  intro htransient
  have hle : statusCode ≤ 299 := h.2
  have hge : 500 ≤ statusCode := htransient
  omega

/-- What the caller is told of an error of the client. -/
theorem told_of_received {e : GenesisClientError} {p : PlatformError}
    (h : received correlationId outcome = .error (.client e))
    (hp : clientRefusal correlationId e = .platform p) : Told correlationId (some outcome) p := by
  cases hp
  unfold received at h
  split at h
  · cases h
    exact ⟨rfl, by simp [Transient], by simp [Unreached]⟩
  · cases h
    exact ⟨rfl, by simp [Transient], by simp [Unreached]⟩
  · cases h
  · rename_i statusCode body
    split at h
    · cases h
      exact ⟨rfl, by simp [Transient], by simp [Unreached]⟩
    · rename_i hsuccess
      -- the body of a success is the last thing that can be wrong
      have hquiet : ¬ Transient (.response statusCode body) :=
        not_transient_of_success (not_not.1 hsuccess)
      split at h <;> cases h
      · exact .refusal rfl rfl (by simp) (by simpa using hquiet)
      · exact .refusal rfl rfl (by simp) (by simpa using hquiet)

/-- The client raises its own error, unless the HTTP client raised something
else. -/
theorem received_error {e : Exn} (h : received correlationId outcome = .error e) :
    (e = .other ∧ outcome = .other) ∨ ∃ c, e = .client c := by
  unfold received at h
  -- only an error that httpx does not own passes the client
  split at h
  · cases h
    exact .inr ⟨_, rfl⟩
  · cases h
    exact .inr ⟨_, rfl⟩
  · cases h
    exact .inl ⟨rfl, rfl⟩
  · split at h
    · cases h
      exact .inr ⟨_, rfl⟩
    · split at h <;> cases h
      · exact .inr ⟨_, rfl⟩
      · exact .inr ⟨_, rfl⟩

end Received

/-! ## What is seen of the diagnosis -/

section Diagnosis

variable (answer : (q : Question) → Answer q) (v : IntegrationContractValidator)
  (correlationId : String) (x : GenesisClient)

theorem observe_request (r : GenesisRequest) :
    observe some answer (GenesisClient.request correlationId r) =
      ⟨received correlationId (answer (.send r)), [⟨.send r, answer (.send r)⟩]⟩ := by
  simp only [GenesisClient.request, Proc.bind_def, Proc.ask_bind, observe_await, observe_ofExcept,
    Option.toList_some, List.append_nil]

/-- The request of the diagnosis. -/
def inquiry : GenesisRequest := x.outgoing correlationId "GET" "/internal/v1/system/integration"

/-- What the route makes of the answer of GENESIS. -/
def diagnosis (outcome : Outcome) : Except Exn Json.Fields := do
  let document ← (accepted v correlationId outcome).mapError (exchangeRefusal correlationId)
  (validated v.publicError (connected correlationId document)).mapError
    (responseRefusal correlationId)
  return connected correlationId document

/-- There is one request, whatever comes of it. -/
theorem observe_diagnostic :
    observe some answer (integrationDiagnostic v correlationId x) =
      ⟨diagnosis v correlationId (answer (.send (inquiry correlationId x))),
        [⟨.send (inquiry correlationId x), answer (.send (inquiry correlationId x))⟩]⟩ := by
  simp only [integrationDiagnostic, GenesisClient.diagnostic, Proc.bind_def, Proc.pure_def,
    observe_bind, observe_rescue, observe_request, observe_ofExcept, observe_ret, observe_raise,
    Observed.bind_quiet, Observed.rescue_mapError]
  rfl

/-- The check of the correlation passes exactly on an answer that carries the id. -/
theorem requireCorrelation_ok {document : Json.Fields} {u : Unit} :
    requireCorrelation correlationId document = .ok u ↔
      document.get? "correlation_id" = some (.str correlationId) := by
  unfold requireCorrelation
  cases hget : document.get? "correlation_id" with
  | none => simp [item, hget, Except.mapError, bind, Except.bind]
  | some value =>
      simp [item, hget, Except.mapError, bind, Except.bind, Except.require_eq_ok, eqText_iff]

/-- GENESIS has answered with the document, which is what the contract asks for
and carries the id that was sent. -/
structure InKind (outcome : Outcome) (document : Json.Fields) : Prop where
  success : ∃ statusCode, IsSuccess statusCode ∧
    outcome = .response statusCode (some (.obj document))
  valid : v.genesisError document = none
  correlation : document.get? "correlation_id" = some (.str correlationId)

variable {v correlationId} in
/-- An answer is accepted exactly when it is the document of this call. -/
theorem accepted_ok {outcome : Outcome} {document : Json.Fields} :
    accepted v correlationId outcome = .ok document ↔ InKind v correlationId outcome document := by
  unfold accepted
  simp only [Except.bind_eq_ok, Except.pure_eq_ok, received_ok, validated_ok,
    requireCorrelation_ok]
  constructor
  · rintro ⟨d, hreceived, u, hvalid, u', hcorrelation, rfl⟩
    exact ⟨hreceived, hvalid, hcorrelation⟩
  · rintro ⟨hreceived, hvalid, hcorrelation⟩
    exact ⟨document, hreceived, (), hvalid, (), hcorrelation, rfl⟩

/-- GENESIS has answered with a document that is what the contract asks for, and
carries no id at all. -/
def Unmarked (outcome : Outcome) : Prop :=
  ∃ (statusCode : ℕ) (document : Json.Fields), IsSuccess statusCode ∧
    outcome = .response statusCode (some (.obj document)) ∧
    v.genesisError document = none ∧ document.get? "correlation_id" = none

/-- What the route does, with one request whatever comes of it. -/
structure Diagnosed (seen : Observed (Exchange Question Answer) Exn Json.Fields) : Prop where
  asked : seen.events = [⟨.send (inquiry correlationId x), answer (.send (inquiry correlationId x))⟩]
  answered : ∀ response, seen.result = .ok response ↔ ∃ document,
    InKind v correlationId (answer (.send (inquiry correlationId x))) document ∧
      v.publicError (connected correlationId document) = none ∧
      response = connected correlationId document
  -- an answer in kind, of which the Backend makes a body that its own contract rejects
  unpublished : ∀ document path reason,
    InKind v correlationId (answer (.send (inquiry correlationId x))) document →
      v.publicError (connected correlationId document) = some (path, reason) →
      seen.result = .error (responseRefusal correlationId (.integration path reason))
  told : ∀ e, seen.result = .error (.platform e) →
    Told correlationId (some (answer (.send (inquiry correlationId x)))) e
  escaped : ∀ e, seen.result = .error e → (∃ p, e = .platform p) ∨
    (e = .missing "correlation_id" ∧ Unmarked v (answer (.send (inquiry correlationId x)))) ∨
    (e = .other ∧ answer (.send (inquiry correlationId x)) = .other)

/-- A diagnosis comes of such a document, when the public contract takes the body built of it. -/
theorem diagnosis_ok {outcome : Outcome} {response : Json.Fields} :
    diagnosis v correlationId outcome = .ok response ↔ ∃ document,
      InKind v correlationId outcome document ∧
        v.publicError (connected correlationId document) = none ∧
        response = connected correlationId document := by
  unfold diagnosis
  simp only [Except.bind_eq_ok, Except.pure_eq_ok, Except.mapError_eq_ok, accepted_ok, validated_ok]
  constructor
  · rintro ⟨document, hkind, u, hpublic, rfl⟩
    exact ⟨document, hkind, hpublic, rfl⟩
  · rintro ⟨document, hkind, hpublic, rfl⟩
    exact ⟨document, hkind, (), hpublic, rfl⟩

/-- A body that the contract of the Backend rejects is not returned. -/
theorem diagnosis_unpublished {outcome : Outcome} {document : Json.Fields} {path reason : String}
    (hkind : InKind v correlationId outcome document)
    (hinvalid : v.publicError (connected correlationId document) = some (path, reason)) :
    diagnosis v correlationId outcome =
      .error (responseRefusal correlationId (.integration path reason)) := by
  have haccepted : accepted v correlationId outcome = .ok document := accepted_ok.2 hkind
  have hvalidated : validated v.publicError (connected correlationId document) =
      .error (.integration path reason) := by
    rw [validated, hinvalid]
  rw [diagnosis, haccepted]
  simp only [Except.mapError, bind, Except.bind, hvalidated]

/-- How the exchange fails: at the transport, or at a document that was received. -/
inductive Unaccepted (outcome : Outcome) : Exn → Prop where
  | transport {c} (h : received correlationId outcome = .error (.client c)) : Unaccepted outcome (.client c)
  | escaped (h : outcome = .other) : Unaccepted outcome .other
  | invalid {path reason} (h : ¬ Transient outcome) : Unaccepted outcome (.integration path reason)
  | unmarked (h : Unmarked v outcome) : Unaccepted outcome (.missing "correlation_id")

variable {v correlationId} in
/-- The ways an answer is not accepted. -/
theorem unaccepted_of_error {outcome : Outcome} {e : Exn}
    (h : accepted v correlationId outcome = .error e) : Unaccepted v correlationId outcome e := by
  unfold accepted at h
  rcases Except.bind_eq_error.1 h with hreceived | ⟨document, hreceived, hrest⟩
  · rcases received_error hreceived with ⟨rfl, hother⟩ | ⟨c, rfl⟩
    · exact .escaped hother
    · exact .transport hreceived
  -- the document came with a success
  · have hquiet : ¬ Transient outcome := by
      rcases received_ok.1 hreceived with ⟨statusCode, hsuccess, rfl⟩
      exact not_transient_of_success hsuccess
    rcases Except.bind_eq_error.1 hrest with hinvalid | ⟨u, hvalid, hrest⟩
    · unfold validated at hinvalid
      split at hinvalid <;> cases hinvalid
      exact .invalid hquiet
    · rcases Except.bind_eq_error.1 hrest with hcorrelation | ⟨u', -, hrest⟩
      · unfold requireCorrelation at hcorrelation
        rcases Except.bind_eq_error.1 hcorrelation with hmissing | ⟨value, -, hother⟩
        · cases hget : document.get? "correlation_id" with
          | none =>
              simp only [item, hget, Except.mapError, Except.error.injEq] at hmissing
              rcases received_ok.1 hreceived with ⟨statusCode, hsuccess, houtcome⟩
              rw [← hmissing]
              exact .unmarked ⟨statusCode, document, hsuccess, houtcome, validated_ok.1 hvalid, hget⟩
          | some value => simp [item, hget, Except.mapError] at hmissing
        · unfold Except.require at hother
          split at hother <;> cases hother
          exact .invalid hquiet
      · cases hrest

/-- Every error of the route says of the transport what has happened. -/
theorem diagnosis_error {outcome : Outcome} {e : Exn}
    (h : diagnosis v correlationId outcome = .error e) :
    (∃ p, e = .platform p ∧ Told correlationId (some outcome) p) ∨
      (e = .missing "correlation_id" ∧ Unmarked v outcome) ∨
      (e = .other ∧ outcome = .other) := by
  unfold diagnosis at h
  rcases Except.bind_eq_error.1 h with hrefused | ⟨document, hdocument, hrest⟩
  · cases haccepted : accepted v correlationId outcome with
    | ok document =>
        rw [haccepted] at hrefused
        cases hrefused
    | error e' =>
        rw [haccepted] at hrefused
        cases hrefused
        -- an error of the client is told as it is, a broken contract as 502
        cases unaccepted_of_error haccepted with
        | transport hreceived => exact .inl ⟨_, rfl, told_of_received hreceived rfl⟩
        | escaped hother => exact .inr (.inr ⟨rfl, hother⟩)
        | invalid hquiet =>
            exact .inl ⟨_, rfl, .refusal rfl rfl (by simp) (by simpa using hquiet)⟩
        | unmarked hmissing => exact .inr (.inl ⟨rfl, hmissing⟩)
  · rw [Except.mapError_eq_ok, accepted_ok] at hdocument
    rcases hdocument.success with ⟨statusCode, hsuccess, rfl⟩
    have hquiet : ¬ Transient (.response statusCode (some (.obj document))) :=
      not_transient_of_success hsuccess
    rcases Except.bind_eq_error.1 hrest with hinvalid | ⟨u, -, hlast⟩
    · unfold validated at hinvalid
      split at hinvalid <;> cases hinvalid
      exact .inl ⟨_, rfl, .refusal rfl rfl (by simp) (by simpa using hquiet)⟩
    · cases hlast

/-- The diagnosis, whatever GENESIS answers. -/
theorem diagnosed :
    Diagnosed answer v correlationId x (observe some answer (integrationDiagnostic v correlationId x)) := by
  rw [observe_diagnostic]
  -- a body that breaks the public contract, then the errors one by one
  refine ⟨rfl, fun response => diagnosis_ok v correlationId, ?_, ?_, ?_⟩
  · intro document path reason hkind hinvalid
    exact diagnosis_unpublished v correlationId hkind hinvalid
  · intro e he
    rcases diagnosis_error v correlationId he with ⟨p, hp, htold⟩ | ⟨hmissing, -⟩ | ⟨hother, -⟩
    · cases hp
      exact htold
    · cases hmissing
    · cases hother
  · intro e he
    rcases diagnosis_error v correlationId he with ⟨p, rfl, -⟩ | hmissing | hother
    · exact .inl ⟨p, rfl⟩
    · exact .inr (.inl hmissing)
    · exact .inr (.inr hother)

end Diagnosis

end Alos.Genesis
