import Alos.Research.Service

/-! # What a research request is allowed

Every call of `request`, whatever GENESIS and the audit sink answer.

* `research_governed`: at most one message is sent, and it stays inside the authority of
  the caller;
* `accounted`: when a receipt is returned, and what the trail says of a call;
* `access_agrees`: the projection of the domains is what `request` does;
* `request_explained`: what an error says of the transport.
-/

namespace Alos.Research

open Coop Genesis Py

section

variable {x : ResearchService} {command : ResearchCommand} {principal : Principal}
  {correlationId : String} {answer : (q : Question) → Answer q}

/-- A request is refused exactly when the principal lacks what its domain asks for. -/
theorem refused_iff : Refused command principal ↔ ¬ Allowed principal (domainScope command.domain) := by
  unfold Refused Allowed
  by_cases hactive : principal.active = true
  · by_cases hpermission : requestPermission ∈ principal.permissions
    · simp [hactive, hpermission]
    · simp [hactive, hpermission]
  · simp [hactive]

/-! ## What is sent -/

/-- The messages to GENESIS. -/
def sends (o : Observed (Exchange Question Answer) Exn Json.Fields) : List GenesisRequest :=
  o.events.filterMap fun y => match y.1 with
    | .send r => some r
    | .append _ => none

/-- The events that the audit sink was given. -/
def appends (o : Observed (Exchange Question Answer) Exn Json.Fields) : List AuditEvent :=
  o.events.filterMap fun y => match y.1 with
    | .send _ => none
    | .append e => some e

/-- The context names the caller, and grants nothing that the caller does not
hold. -/
structure Contained (command : ResearchCommand) (principal : Principal) (correlationId : String)
    (context : Json.Fields) : Prop where
  tenant : context.get? "tenant_id" = some (.str principal.tenantId)
  organization : context.get? "organization_id" = some (.str principal.organizationId)
  workspace : context.get? "workspace_id" = some (.str principal.workspaceId)
  actor : context.get? "actor_id" = some (.str principal.actorId)
  correlation : context.get? "correlation_id" = some (.str correlationId)
  permissions : ∃ refs, context.get? "permission_refs" = some (texts refs) ∧
    ∀ ref ∈ refs, ref ∈ principal.permissions
  scopes : ∃ refs, context.get? "scope_refs" = some (texts refs) ∧
    ∀ ref ∈ refs, ref ∈ principal.scopes
  -- the one role is a role of the caller, unless there is none
  roles : ∃ (authority : Json.Fields) (refs : List String) (role : String),
    context.get? "authority_context" = some (.obj authority) ∧
      authority.get? "role_refs" = some (texts refs) ∧ (∀ ref, ref ∈ refs ↔ ref ∈ principal.roles) ∧
      authority.get? "role" = some (.str role) ∧
      (role ∈ principal.roles ∨ principal.roles = ∅ ∧ role = "AUTHENTICATED_USER") ∧
      authority.get? "authority_level" = some (.str "REQUESTER")
  -- a tool is allowed on request only, and to those that hold what it takes
  tools : ∃ (ids : List String) (budget : Json.Fields),
    context.get? "allowed_tool_ids" = some (texts ids) ∧
      context.get? "execution_budget" = some (.obj budget) ∧
      budget.get? "max_tool_calls" = some (.int ids.length) ∧
      ∀ id ∈ ids, id = externalTool ∧ External command principal

/-- The permissions sent along are held by the principal. -/
theorem permissionRefs_held (h : Allowed principal (domainScope command.domain)) :
    ∀ ref ∈ permissionRefs command principal, ref ∈ principal.permissions := by
  intro ref href
  unfold permissionRefs at href
  rcases List.mem_cons.1 href with rfl | href
  · exact h.2.1
  · split at href
    · rename_i hexternal
      rw [List.mem_singleton.1 href]
      exact hexternal.2.1
    · cases href

/-- So are the scopes. -/
theorem scopeRefs_held (h : Allowed principal (domainScope command.domain)) :
    ∀ ref ∈ scopeRefs command principal, ref ∈ principal.scopes := by
  intro ref href
  unfold scopeRefs at href
  rcases List.mem_cons.1 href with rfl | href
  · exact h.2.2
  · split at href
    · rename_i hexternal
      rw [List.mem_singleton.1 href]
      exact hexternal.2.2
    · cases href

/-- The first of the roles is one of them. -/
theorem role_held (principal : Principal) :
    principal.roles.sort.headD "AUTHENTICATED_USER" ∈ principal.roles ∨
      principal.roles = ∅ ∧
        principal.roles.sort.headD "AUTHENTICATED_USER" = "AUTHENTICATED_USER" := by
  have hmem : ∀ role, role ∈ principal.roles.sort ↔ role ∈ principal.roles :=
    fun role => Finset.mem_sort _
  cases hsorted : principal.roles.sort with
  | nil =>
      refine .inr ⟨?_, rfl⟩
      rw [hsorted] at hmem
      exact Finset.eq_empty_of_forall_notMem fun role hrole =>
        List.not_mem_nil ((hmem role).2 hrole)
  | cons role rest =>
      refine .inl ((hmem _).1 ?_)
      rw [hsorted]
      exact List.mem_cons_self

/-- The context of an allowed request is contained in the principal's authority. -/
theorem contained_executionContext (h : Allowed principal (domainScope command.domain)) :
    Contained command principal correlationId (executionContext command principal correlationId) where
  tenant := rfl
  organization := rfl
  workspace := rfl
  actor := rfl
  correlation := rfl
  permissions := ⟨_, rfl, permissionRefs_held h⟩
  scopes := ⟨_, rfl, scopeRefs_held h⟩
  roles := by
    refine ⟨_, principal.roles.sort, _, rfl, rfl, ?_, rfl, role_held principal, rfl⟩
    intro ref
    exact Finset.mem_sort _
  tools := by
    -- the external tool is sent only with its permission and its scope
    refine ⟨allowedTools command principal, _, rfl, rfl, ?_, ?_⟩
    · unfold allowedTools
      split
      · rfl
      · rfl
    · intro id hid
      unfold allowedTools at hid
      split at hid
      · rename_i hexternal
        exact ⟨List.mem_singleton.1 hid, hexternal⟩
      · cases hid

/-- At most one message is sent, by an authorized caller, and the execution
context in it is contained. -/
structure Governed (x : ResearchService) (command : ResearchCommand) (principal : Principal)
    (correlationId : String) (o : Observed (Exchange Question Answer) Exn Json.Fields) : Prop where
  once : (sends o).length ≤ 1
  message : ∀ r ∈ sends o, r = message x command principal correlationId
  authorized : sends o ≠ [] → Allowed principal (domainScope command.domain)
  contained : ∀ r ∈ sends o, ∃ (body context : Json.Fields), r.json = some body ∧
    body.get? "execution_context" = some (.obj context) ∧
      Contained command principal correlationId context

/-- To send nothing, or one message that is allowed, is to be governed. -/
theorem governed_of_sends {o : Observed (Exchange Question Answer) Exn Json.Fields}
    (h : sends o = [] ∨ (¬ Refused command principal ∧
      sends o = [message x command principal correlationId])) :
    Governed x command principal correlationId o := by
  -- nothing is sent, or one message of an allowed request
  rcases h with hnone | ⟨hadmitted, hone⟩
  · refine ⟨?_, ?_, ?_, ?_⟩
    · simp [hnone]
    · simp [hnone]
    · exact fun hsends => absurd hnone hsends
    · simp [hnone]
  · have hallowed : Allowed principal (domainScope command.domain) := by
      rwa [refused_iff, not_not] at hadmitted
    refine ⟨?_, ?_, fun _ => hallowed, ?_⟩
    · simp [hone]
    · simp [hone]
    · intro r hr
      rw [hone, List.mem_singleton] at hr
      subst hr
      exact ⟨_, _, rfl, rfl, contained_executionContext hallowed⟩

/-- Whatever is answered, GENESIS is given no more than the caller holds. -/
theorem research_governed (x : ResearchService) (command : ResearchCommand) (principal : Principal)
    (correlationId : String) (answer : (q : Question) → Answer q) :
    Governed x command principal correlationId (seen x command principal correlationId answer) := by
  have hended := ended x command principal correlationId answer
  generalize seen x command principal correlationId answer = o at hended ⊢
  apply governed_of_sends
  cases hended with
  | refused h hsink => exact .inl rfl
  | unrefused h hsink => exact .inl rfl
  | unsent h hinvalid => exact .inl rfl
  | failed h hvalid hresolved => exact .inr ⟨h, rfl⟩
  | unrecorded h hvalid hresolved hsink => exact .inr ⟨h, rfl⟩
  | completed h hvalid hresolved hsink => exact .inr ⟨h, rfl⟩

/-! ## What is returned, and what is recorded -/

/-- GENESIS has decided: its answer satisfies the contract, carries the id of the
request, and names the kind of the decision. -/
structure Decided (x : ResearchService) (correlationId : String) (outcome : Outcome)
    (decisionKind : String) : Prop where
  answered : ∃ (statusCode : ℕ) (decision : Json.Fields) (kind : Json), IsSuccess statusCode ∧
    outcome = .response statusCode (some (.obj decision)) ∧
    validate x decisionSchema decision = .ok decision ∧
    decision.get? "correlation_id" = some (.str correlationId) ∧
    decision.get? "decision" = some kind ∧ decisionKind = str x.lib.repr kind

/-- The receipt that the Backend makes of the decision satisfies its own contract. -/
def Receipted (x : ResearchService) (correlationId decisionKind : String) : Prop :=
  validate x receiptSchema (receipt x correlationId decisionKind) =
    .ok (receipt x correlationId decisionKind)

/-- Reading a key succeeds exactly when the key is there. -/
theorem item_ok {fields : Json.Fields} {key : String} {value : Json} :
    (item fields key).mapError Exn.missing = .ok value ↔ fields.get? key = some value := by
  rw [Except.mapError_eq_ok]
  unfold item
  cases fields.get? key with
  | none => simp
  | some found => simp

/-- What a decision must have to be accepted by the service. -/
theorem judge_ok {decision : Json.Fields} {judged : String × Json.Fields} :
    judge x correlationId decision = .ok judged ↔
      decision.get? "correlation_id" = some (.str correlationId) ∧
        (∃ kind, decision.get? "decision" = some kind ∧ judged.1 = str x.lib.repr kind) ∧
        validate x receiptSchema (receipt x correlationId judged.1) = .ok judged.2 := by
  unfold judge
  simp only [Except.bind_eq_ok, Except.pure_eq_ok, item_ok, Except.require_eq_ok, eqText_iff]
  constructor
  · rintro ⟨returned, hreturned, u, rfl, kind, hkind, r, hreceipt, rfl⟩
    exact ⟨hreturned, ⟨kind, hkind, rfl⟩, hreceipt⟩
  · rintro ⟨hreturned, ⟨kind, hkind, hjudged⟩, hreceipt⟩
    refine ⟨_, hreturned, (), rfl, kind, hkind, judged.2, ?_, ?_⟩
    · rwa [← hjudged]
    · rw [← hjudged]

/-- An answer is accepted exactly when GENESIS has decided and the receipt passes its contract. -/
theorem resolved_ok {outcome : Outcome} {judged : String × Json.Fields} :
    resolved x correlationId outcome = .ok judged ↔
      (Decided x correlationId outcome judged.1 ∧ Receipted x correlationId judged.1) ∧
        judged.2 = receipt x correlationId judged.1 := by
  unfold resolved
  simp only [Except.bind_eq_ok, Except.mapError_eq_ok, received_ok, judge_ok]
  constructor
  · rintro ⟨decision, ⟨raw, ⟨statusCode, hsuccess, houtcome⟩, hvalid⟩, hreturned, ⟨kind, hkind, hjudged⟩,
      hreceipt⟩
    -- validation gives back what it was given
    have hraw : decision = raw := validate_ok hvalid
    have hsame : judged.2 = receipt x correlationId judged.1 := validate_ok hreceipt
    subst hraw
    refine ⟨⟨⟨statusCode, decision, kind, hsuccess, houtcome, hvalid, hreturned, hkind, hjudged⟩, ?_⟩, hsame⟩
    rwa [hsame] at hreceipt
  · rintro ⟨⟨⟨statusCode, decision, kind, hsuccess, houtcome, hvalid, hreturned, hkind, hjudged⟩,
      hreceipt⟩, hsame⟩
    refine ⟨decision, ⟨decision, ⟨statusCode, hsuccess, houtcome⟩, hvalid⟩, hreturned,
      ⟨kind, hkind, hjudged⟩, ?_⟩
    rwa [hsame]

/-- When a call returns, and what its trail says. -/
structure Accounted (x : ResearchService) (command : ResearchCommand) (principal : Principal)
    (correlationId : String) (answer : (q : Question) → Answer q)
    (o : Observed (Exchange Question Answer) Exn Json.Fields) : Prop where
  returned : ∀ r, o.result = .ok r ↔ ∃ decisionKind,
    Allowed principal (domainScope command.domain) ∧
      (∃ validated, validate x analysisRequestSchema (payload command principal correlationId) =
        .ok validated) ∧
      Decided x correlationId (answer (.send (message x command principal correlationId))) decisionKind ∧
      Receipted x correlationId decisionKind ∧
      answer (.append (successEvent x command principal correlationId decisionKind)) = .returned ∧
      r = receipt x correlationId decisionKind
  denied : deniedEvent x command principal correlationId ∈ appends o ↔
    ¬ Allowed principal (domainScope command.domain)
  -- at most one event, and of a failed exchange none
  trail : appends o = [] ∨ appends o = [deniedEvent x command principal correlationId] ∨
    ∃ decisionKind, appends o = [successEvent x command principal correlationId decisionKind] ∧
      Decided x correlationId (answer (.send (message x command principal correlationId))) decisionKind ∧
      Receipted x correlationId decisionKind
  recorded : ∀ r, o.result = .ok r → ∃ decisionKind, r = receipt x correlationId decisionKind ∧
    appends o = [successEvent x command principal correlationId decisionKind]
  -- an event of success without a receipt is the fault of the sink
  unrecorded : ∀ decisionKind, successEvent x command principal correlationId decisionKind ∈ appends o →
    o.result = .ok (receipt x correlationId decisionKind) ∨
      answer (.append (successEvent x command principal correlationId decisionKind)) = .raised

/-- A refusal is not recorded as a decision. -/
theorem successEvent_ne_denied (decisionKind : String) :
    deniedEvent x command principal correlationId ≠
      successEvent x command principal correlationId decisionKind := by
  intro h
  have houtcome : "DENIED" = "SUCCESS" := congrArg AuditEvent.outcome h
  simp at houtcome

/-- The event tells the decision. -/
theorem successEvent_inj {decisionKind decisionKind' : String}
    (h : successEvent x command principal correlationId decisionKind =
      successEvent x command principal correlationId decisionKind') : decisionKind = decisionKind' := by
  have hmetadata : (successEvent x command principal correlationId decisionKind).metadata =
      (successEvent x command principal correlationId decisionKind').metadata :=
    congrArg AuditEvent.metadata h
  simpa [successEvent, event] using hmetadata

/-- A receipt is returned just when everything has gone well. -/
theorem returned_iff {o : Observed (Exchange Question Answer) Exn Json.Fields}
    (h : Ended x command principal correlationId answer o) (r : Json.Fields) :
    o.result = .ok r ↔ ∃ decisionKind, Allowed principal (domainScope command.domain) ∧
      (∃ validated, validate x analysisRequestSchema (payload command principal correlationId) =
        .ok validated) ∧
      Decided x correlationId (answer (.send (message x command principal correlationId)))
        decisionKind ∧ Receipted x correlationId decisionKind ∧
      answer (.append (successEvent x command principal correlationId decisionKind)) = .returned ∧
      r = receipt x correlationId decisionKind := by
  constructor
  · intro hr
    -- of the ways a request ends only one returns
    cases h with
    | refused h hsink => cases hr
    | unrefused h hsink => cases hr
    | unsent h hinvalid => cases hr
    | failed h hvalid hresolved => cases hr
    | unrecorded h hvalid hresolved hsink => cases hr
    | completed h hvalid hresolved hsink =>
        cases hr
        rw [refused_iff, not_not] at h
        rcases resolved_ok.1 hresolved with ⟨⟨hdecided, hreceipted⟩, hreceipt⟩
        exact ⟨_, h, hvalid, hdecided, hreceipted, hsink, hreceipt⟩
  · rintro ⟨decisionKind, hallowed, ⟨validated, hvalid⟩, hdecided, hreceipted, hsink, rfl⟩
    have hexpected : resolved x correlationId
        (answer (.send (message x command principal correlationId))) =
          .ok (decisionKind, receipt x correlationId decisionKind) :=
      resolved_ok.2 ⟨⟨hdecided, hreceipted⟩, rfl⟩
    cases h with
    | refused h hsink => exact absurd hallowed (refused_iff.1 h)
    | unrefused h hsink => exact absurd hallowed (refused_iff.1 h)
    | unsent h hinvalid =>
        rw [hvalid] at hinvalid
        cases hinvalid
    | failed h hvalid hresolved =>
        rw [hexpected] at hresolved
        cases hresolved
    | unrecorded h hvalid hresolved hraised =>
        rw [hexpected] at hresolved
        cases hresolved
        rw [hsink] at hraised
        cases hraised
    | completed h hvalid hresolved hreturned =>
        rw [hexpected] at hresolved
        cases hresolved
        rfl

/-- The trail tells a refusal and a success from everything else. -/
theorem accounted (x : ResearchService) (command : ResearchCommand) (principal : Principal)
    (correlationId : String) (answer : (q : Question) → Answer q) :
    Accounted x command principal correlationId answer
      (seen x command principal correlationId answer) := by
  have hended := ended x command principal correlationId answer
  generalize seen x command principal correlationId answer = o at hended ⊢
  have hreturned := returned_iff hended
  -- one case for each way the request ends
  cases hended with
  | refused h hsink =>
      refine ⟨hreturned, ?_, .inr (.inl rfl), ?_, ?_⟩
      · simpa [appends, told] using refused_iff.1 h
      · intro r hr
        cases hr
      · intro decisionKind hmem
        exact absurd (List.mem_singleton.1 hmem).symm (successEvent_ne_denied decisionKind)
  | unrefused h hsink =>
      refine ⟨hreturned, ?_, .inr (.inl rfl), ?_, ?_⟩
      · simpa [appends, told] using refused_iff.1 h
      · intro r hr
        cases hr
      · intro decisionKind hmem
        exact absurd (List.mem_singleton.1 hmem).symm (successEvent_ne_denied decisionKind)
  | unsent h hinvalid =>
      rw [refused_iff, not_not] at h
      refine ⟨hreturned, by simpa [appends] using h, .inl rfl, ?_, by simp [appends]⟩
      intro r hr
      cases hr
  | failed h hvalid hresolved =>
      rw [refused_iff, not_not] at h
      refine ⟨hreturned, by simpa [appends, told] using h, .inl rfl, ?_, by simp [appends, told]⟩
      intro r hr
      cases hr
  | unrecorded h hvalid hresolved hsink =>
      rw [refused_iff, not_not] at h
      refine ⟨hreturned, ?_, .inr (.inr ⟨_, rfl, (resolved_ok.1 hresolved).1⟩), ?_, ?_⟩
      · simpa [appends, told, successEvent_ne_denied] using h
      · intro r hr
        cases hr
      · intro decisionKind hmem
        have hsame := successEvent_inj (List.mem_singleton.1 hmem)
        subst hsame
        exact .inr hsink
  | completed h hvalid hresolved hsink =>
      rw [refused_iff, not_not] at h
      rcases resolved_ok.1 hresolved with ⟨hdecided, hreceipt⟩
      refine ⟨hreturned, ?_, .inr (.inr ⟨_, rfl, hdecided⟩), ?_, ?_⟩
      · simpa [appends, told, successEvent_ne_denied] using h
      · intro r hr
        cases hr
        exact ⟨_, hreceipt, rfl⟩
      · intro decisionKind hmem
        have hsame := successEvent_inj (List.mem_singleton.1 hmem)
        subst hsame
        exact .inl (congrArg Except.ok hreceipt)

/-! ## What a failure tells -/

/-- The answer of GENESIS, if there is one. -/
def outcome? (o : Observed (Exchange Question Answer) Exn Json.Fields) : Option Outcome :=
  o.events.findSome? fun
    | ⟨.send _, outcome⟩ => some outcome
    | ⟨.append _, _⟩ => none

/-- The error is told of a gateway, and says what has happened there. -/
structure GatewayError (correlationId : String) (outcome : Option Outcome) (e : PlatformError) :
    Prop extends Told correlationId outcome e where
  status : e.statusCode = 502 ∨ e.statusCode = 503

/-- A refusal by the service itself has status 502 and is not to be tried again. -/
theorem GatewayError.refusal {outcome : Option Outcome} {e : PlatformError}
    (hcorrelation : e.correlationId = some correlationId) (hretryable : e.retryable = false)
    (hstatus : e.statusCode = 502) (h : ∀ o ∈ outcome, ¬ Transient o) :
    GatewayError correlationId outcome e where
  toTold := .refusal hcorrelation hretryable (by simp [hstatus]) h
  status := .inl hstatus

/-- So it is with an error of the client, which tells whether to try again. -/
theorem gatewayError_of_received {outcome : Outcome} {e : GenesisClientError} {p : PlatformError}
    (h : received correlationId outcome = .error (.client e))
    (hp : boundaryRefusal correlationId (.client e) = .platform p) :
    GatewayError correlationId (some outcome) p where
  toTold := told_of_received h hp
  status := by
    cases hp
    simp only
    split
    · exact .inr rfl
    · exact .inl rfl

/-- A payload that the catalog refuses: a violation, or a schema that is missing. -/
theorem validate_error {schema : String} {fields : Json.Fields} {e : Exn}
    (h : validate x schema fields = .error e) : ∃ c, e = .contract c := by
  unfold validate at h
  cases hcontract : x.contracts.validate schema fields with
  | error c =>
      rw [hcontract] at h
      cases h
      exact ⟨c, rfl⟩
  | ok validated =>
      rw [hcontract] at h
      cases h

/-- So it is with an answer that breaks its contract. -/
theorem gatewayError_of_contract {outcome : Option Outcome} {c : ContractError} {p : PlatformError}
    (hp : boundaryRefusal correlationId (.contract c) = .platform p)
    (h : ∀ o ∈ outcome, ¬ Transient o) : GatewayError correlationId outcome p := by
  cases c with
  | unavailable schemaId => cases hp
  | invalid schemaId path reason =>
      cases hp
      exact .refusal rfl rfl rfl h

/-- So it is with a decision that does not belong to the request. -/
theorem judge_error {outcome : Option Outcome} {decision : Json.Fields} {p : PlatformError}
    (h : judge x correlationId decision = .error (.platform p))
    (hquiet : ∀ o ∈ outcome, ¬ Transient o) : GatewayError correlationId outcome p := by
  -- a missing key raises `KeyError`, which is no refusal
  have hitem : ∀ key, (item decision key).mapError Exn.missing ≠ .error (.platform p) := by
    intro key hmissing
    unfold item at hmissing
    split at hmissing <;> cases hmissing
  unfold judge at h
  rcases Except.bind_eq_error.1 h with hmissing | ⟨returned, -, h⟩
  · exact absurd hmissing (hitem _)
  · rcases Except.bind_eq_error.1 h with hmismatch | ⟨u, -, h⟩
    · unfold Except.require at hmismatch
      split at hmismatch <;> cases hmismatch
      exact .refusal rfl rfl rfl hquiet
    · rcases Except.bind_eq_error.1 h with hmissing | ⟨kind, -, h⟩
      · exact absurd hmissing (hitem _)
      · rcases Except.bind_eq_error.1 h with hreceipt | ⟨r, -, h⟩
        · rcases validate_error hreceipt with ⟨c, hc⟩
          cases hc
        · cases h

/-- Every refusal after the message was sent is told of the gateway. -/
theorem resolved_error {outcome : Outcome} {p : PlatformError}
    (h : resolved x correlationId outcome = .error (.platform p)) :
    GatewayError correlationId (some outcome) p := by
  unfold resolved at h
  rcases Except.bind_eq_error.1 h with hrefused | ⟨decision, hdecision, hjudge⟩
  · generalize hbody : (do
      let decision ← received correlationId outcome
      validate x decisionSchema decision : Except Exn Json.Fields) = body at hrefused
    cases body with
    | ok decision => cases hrefused
    | error e =>
        -- errors inside the `try` become refusals
        have hp : boundaryRefusal correlationId e = .platform p := Except.error.inj hrefused
        rcases Except.bind_eq_error.1 hbody with hreceived | ⟨decision, hreceived, hinvalid⟩
        · rcases received_error hreceived with ⟨rfl, -⟩ | ⟨c, rfl⟩
          · cases hp
          · exact gatewayError_of_received hreceived hp
        · rcases received_ok.1 hreceived with ⟨statusCode, hsuccess, rfl⟩
          rcases validate_error hinvalid with ⟨c, rfl⟩
          exact gatewayError_of_contract hp
            (by simpa using not_transient_of_success hsuccess)
  · rw [Except.mapError_eq_ok] at hdecision
    rcases Except.bind_eq_ok.1 hdecision with ⟨raw, hreceived, -⟩
    rcases received_ok.1 hreceived with ⟨statusCode, hsuccess, rfl⟩
    exact judge_error hjudge (by simpa using not_transient_of_success hsuccess)

/-- What a `PlatformError` of a call says. -/
structure Explained (x : ResearchService) (command : ResearchCommand) (principal : Principal)
    (correlationId : String) (o : Observed (Exchange Question Answer) Exn Json.Fields)
    (e : PlatformError) : Prop extends Told correlationId (outcome? o) e where
  status : e.statusCode = 403 ∨ e.statusCode = 502 ∨ e.statusCode = 503
  forbidden : e.statusCode = 403 ↔ ¬ Allowed principal (domainScope command.domain)

/-- An allowed request that raises is explained by its answer. -/
theorem GatewayError.explained {o : Observed (Exchange Question Answer) Exn Json.Fields}
    {e : PlatformError} (h : GatewayError correlationId (outcome? o) e)
    (hallowed : ¬ Refused command principal) :
    Explained x command principal correlationId o e where
  toTold := h.toTold
  status := .inr h.status
  forbidden := by
    rw [refused_iff] at hallowed
    constructor
    · intro hforbidden
      rcases h.status with hstatus | hstatus <;> omega
    · exact fun hdenied => absurd hdenied hallowed

/-- An error of a call is retryable just when the transport has failed or GENESIS
has, whatever is answered. -/
theorem request_explained (x : ResearchService) (command : ResearchCommand) (principal : Principal)
    (correlationId : String) (answer : (q : Question) → Answer q) (e : PlatformError)
    (h : (seen x command principal correlationId answer).result = .error (.platform e)) :
    Explained x command principal correlationId (seen x command principal correlationId answer) e := by
  have hended := ended x command principal correlationId answer
  generalize seen x command principal correlationId answer = o at hended h ⊢
  -- one case for each way the request ends
  cases hended with
  | refused hrefused hsink =>
      cases h
      exact {
        toTold := .refusal rfl rfl (by simp [scopeDenied]) (by simp [outcome?, told])
        status := .inl rfl
        forbidden := ⟨fun _ => refused_iff.1 hrefused, fun _ => rfl⟩ }
  | unrefused hrefused hsink => cases h
  | unsent hadmitted hinvalid =>
      rcases validate_error hinvalid with ⟨c, rfl⟩
      exact (gatewayError_of_contract (Except.error.inj h) (by simp [outcome?])).explained hadmitted
  | failed hadmitted hvalid hresolved =>
      cases h
      exact (resolved_error hresolved).explained hadmitted
  | unrecorded hadmitted hvalid hresolved hsink => cases h
  | completed hadmitted hvalid hresolved hsink => cases h

/-- A service whose contracts accept everything. -/
def sampleService : ResearchService where
  lib := {
    repr := fun _ => ""
    sha256 := fun text =>
      if text = "corr_research_external_001" then
        "608da3b3414d5d14ba5f548886c279050de5e7179448149aa356d9992300a17d"
      else "" }
  contracts := { hasSchema := fun _ => true, firstError := fun _ _ => none }
  genesis := ⟨"test-only-token"⟩

/-- A question that asks for sources outside. -/
def sampleCommand : ResearchCommand where
  question := "Apa teknologi yang relevan untuk otomasi operasional?"
  sourceMode := .external
  domain := .technology

/-- A principal who may ask it. -/
def samplePrincipal : Principal where
  actorId := "actor_research"
  tenantId := "tenant_research"
  organizationId := "org_research"
  workspaceId := "workspace_research"
  permissions := {"research.request", "research.external.read"}
  scopes := {"research.technology", "scope.sources.external_read"}

/-- GENESIS does not answer, and the sink stores what it is given. -/
def unanswered : (q : Question) → Answer q
  | .send _ => Outcome.timeout
  | .append _ => Alos.Appended.returned

/-- The error of a timeout. -/
def timedOut : PlatformError where
  code := "GENESIS_TIMEOUT"
  message := "GENESIS did not respond before the configured timeout."
  statusCode := 503
  retryable := true
  correlationId := some "corr_research_external_001"

/-- A request that runs out of time, and how it is explained. -/
theorem request_explained_timedOut :
    Explained sampleService sampleCommand samplePrincipal "corr_research_external_001"
      (seen sampleService sampleCommand samplePrincipal "corr_research_external_001" unanswered)
      timedOut :=
  request_explained sampleService sampleCommand samplePrincipal "corr_research_external_001"
    unanswered timedOut rfl

/-! ## The projection of the domains -/

/-- The item is about the domain. -/
def isAbout (domain : ResearchDomain) : Json → Bool
  | .obj item =>
      match Json.Fields.get? item "domain" with
      | some value => EqText value domain.value
      | none => false
  | _ => false

/-- The status that a projection gives a domain. -/
def status? (projection : Json.Fields) (domain : ResearchDomain) : Option Json :=
  match projection.get? "domains" with
  | some (.arr domains) =>
      match domains.find? (isAbout domain) with
      | some (.obj item) => Json.Fields.get? item "status"
      | _ => none
  | _ => none

/-- The texts of the domains differ. -/
theorem value_inj {domain domain' : ResearchDomain} (h : domain.value = domain'.value) :
    domain = domain' := by
  cases domain <;> cases domain' <;> simp_all [ResearchDomain.value]

/-- A row of the projection is about its own domain. -/
theorem isAbout_domainAccess (principal : Principal) (domain domain' : ResearchDomain)
    (scope : String) : isAbout domain (domainAccess principal domain' scope) = decide (domain' = domain) := by
  have hvalue : EqText (.str domain'.value) domain.value ↔ domain' = domain :=
    ⟨fun h => value_inj h, fun h => congrArg _ h⟩
  simp [isAbout, domainAccess, Json.Fields.get?, hvalue]

/-- The projection tells of each domain whether the principal may ask in it. -/
theorem status?_projectDomainAccess (principal : Principal) (correlationId : String)
    (domain : ResearchDomain) :
    status? (projectDomainAccess principal correlationId) domain =
      some (.str (if Allowed principal (domainScope domain) then "AUTHORIZED" else "DENIED")) := by
  have hfind : (domainScopes.map fun item => domainAccess principal item.1 item.2).find?
      (isAbout domain) = some (domainAccess principal domain (domainScope domain)) := by
    cases domain <;> simp [domainScopes, isAbout_domainAccess, domainScope]
  have hdomains : (projectDomainAccess principal correlationId).get? "domains" =
      some (.arr (domainScopes.map fun item => domainAccess principal item.1 item.2)) := rfl
  rw [status?, hdomains]
  simp only [hfind]
  change some (Json.str (if decide (Allowed principal (domainScope domain)) = true then _ else _)) = _
  simp only [decide_eq_true_eq]

/-- What the projection says of a domain is what `request` does with it. -/
structure AccessAgrees (x : ResearchService) (principal : Principal) (domain : ResearchDomain)
    (projection : Json.Fields) : Prop where
  authorized : status? projection domain = some (.str "AUTHORIZED") ↔
    ∀ question sourceMode correlationId answer,
      (seen x ⟨question, sourceMode, domain⟩ principal correlationId answer).result ≠
        .error (.platform (scopeDenied correlationId))
  denied : status? projection domain = some (.str "DENIED") ↔
    ∀ question sourceMode correlationId answer, ∃ appended,
      (seen x ⟨question, sourceMode, domain⟩ principal correlationId answer).events =
        [⟨.append (deniedEvent x ⟨question, sourceMode, domain⟩ principal correlationId), appended⟩]

/-- The denial of a scope is raised by the first check alone. -/
theorem refused_of_scopeDenied {o : Observed (Exchange Question Answer) Exn Json.Fields}
    (h : Ended x command principal correlationId answer o)
    (hdenied : o.result = .error (.platform (scopeDenied correlationId))) :
    Refused command principal := by
  cases h with
  | refused hrefused hsink => exact hrefused
  | unrefused hrefused hsink => exact hrefused
  | unsent hadmitted hinvalid =>
      rcases validate_error hinvalid with ⟨c, rfl⟩
      -- an error of GENESIS has status 502 or 503
      have hgateway : GatewayError correlationId none (scopeDenied correlationId) :=
        gatewayError_of_contract (Except.error.inj hdenied) (by simp)
      simpa [scopeDenied] using hgateway.status
  | failed hadmitted hvalid hresolved =>
      rw [Except.error.inj hdenied] at hresolved
      simpa [scopeDenied] using (resolved_error hresolved).status
  | unrecorded hadmitted hvalid hresolved hsink => cases hdenied
  | completed hadmitted hvalid hresolved hsink => cases hdenied

/-- A refused call leaves the event of its denial, and nothing else does. -/
theorem events_iff {o : Observed (Exchange Question Answer) Exn Json.Fields}
    (h : Ended x command principal correlationId answer o) :
    (∃ appended, o.events = [⟨.append (deniedEvent x command principal correlationId), appended⟩]) ↔
      Refused command principal := by
  have hsent : ∀ (r : GenesisRequest) (ys : List (Exchange Question Answer)) (e : AuditEvent) appended,
      told answer (.send r) :: ys ≠ [⟨.append e, appended⟩] := by
    intro r ys e appended hsame
    cases (List.cons.inj hsame).1
  cases h with
  | refused hrefused hsink => exact ⟨fun _ => hrefused, fun _ => ⟨_, rfl⟩⟩
  | unrefused hrefused hsink => exact ⟨fun _ => hrefused, fun _ => ⟨_, rfl⟩⟩
  | unsent hadmitted hinvalid => simp [hadmitted]
  | failed hadmitted hvalid hresolved => simp [hadmitted, hsent]
  | unrecorded hadmitted hvalid hresolved hsink => simp [hadmitted, hsent]
  | completed hadmitted hvalid hresolved hsink => simp [hadmitted, hsent]

/-- The projection promises just what `request` keeps, in every domain. -/
theorem access_agrees (x : ResearchService) (principal : Principal) (correlationId : String)
    (domain : ResearchDomain) :
    AccessAgrees x principal domain (projectDomainAccess principal correlationId) := by
  have hstatus := status?_projectDomainAccess principal correlationId domain
  have hrefused : ∀ question sourceMode, Refused ⟨question, sourceMode, domain⟩ principal ↔
      ¬ Allowed principal (domainScope domain) := fun _ _ => refused_iff
  constructor
  · rw [hstatus]
    constructor
    · intro hauthorized question sourceMode correlationId answer hdenied
      have hnot := (hrefused question sourceMode).1 (refused_of_scopeDenied (ended ..) hdenied)
      simp [hnot] at hauthorized
    · intro hnever
      by_contra hstatus'
      have hnot : ¬ Allowed principal (domainScope domain) := by
        intro hallowed
        simp [hallowed] at hstatus'
      -- a refused call raises the denial when the sink works
      apply hnever "" .internal correlationId unanswered
      unfold seen request
      rw [if_pos ((hrefused "" .internal).2 hnot)]
      simp [observe_auditEvent, unanswered, settle]
  · rw [hstatus]
    constructor
    · intro hdenied question sourceMode correlationId answer
      rw [events_iff (ended ..), hrefused]
      intro hallowed
      simp [hallowed] at hdenied
    · intro hevents
      have hnot : ¬ Allowed principal (domainScope domain) :=
        (hrefused "" .internal).1 ((events_iff (ended ..)).1
          (hevents "" .internal correlationId unanswered))
      simp [hnot]

end

end Alos.Research
