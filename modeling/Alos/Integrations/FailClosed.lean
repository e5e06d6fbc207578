import Alos.Integrations.Retrieval

/-! # Which exits are audited

Whether a call that does not return has raised an `ExternalRetrievalError`, after
the one event that tells so. Only three kinds of exception are caught, and the URL
is split before the `try`.

* `Leaks`: a step raises an exception that nobody catches. There is one lemma for
  each check, and for the call as a whole (`leaks_seen_iff`);
* `Escapes`: the URLs, the lookups, the resolvers, the transports and the sinks for
  which the call lets such an exception out;
* `retrieve_failsClosed_iff` is the result.
-/

namespace Alos.Integrations

open Coop Except

/-- No `except` clause of `retrieve` is for it. -/
def Exn.Foreign (e : Exn) : Prop := e = .other ∨ e = .audit

/-- An exception is raised that nobody catches. -/
def Leaks {α : Type} (x : Except Exn α) : Prop := ∃ e, Exn.Foreign e ∧ x = .error e

section Leaks

variable {α β : Type}

@[simp] theorem leaks_error {e : Exn} : Leaks (.error e : Except Exn α) ↔ e.Foreign := by
  simp [Leaks]

@[simp] theorem not_leaks_ok {a : α} : ¬ Leaks (.ok a : Except Exn α) := by
  simp [Leaks]

@[simp] theorem not_leaks_pure {a : α} : ¬ Leaks (pure a : Except Exn α) := not_leaks_ok

@[simp] theorem not_foreign_retrieval {code message : String} :
    ¬ (Exn.retrieval code message).Foreign := by
  simp [Exn.Foreign]

/-- A sequence leaks where its first part does, or what follows it. -/
theorem leaks_bind {x : Except Exn α} {f : α → Except Exn β} :
    Leaks (x >>= f) ↔ Leaks x ∨ ∃ a, x = .ok a ∧ Leaks (f a) := by
  cases x with
  | error e => simp [bind, Except.bind]
  | ok a => simp [bind, Except.bind]

/-- The policy's own refusals are caught. -/
@[simp] theorem not_leaks_require {c : Prop} [Decidable c] {code message : String} :
    ¬ Leaks (require c code message) := by
  unfold require Except.require
  split <;> simp

/-- A check refuses with an error of its own, so only what follows it can leak. -/
theorem leaks_require_bind {c : Prop} [Decidable c] {code message : String}
    {f : Unit → Except Exn α} : Leaks (require c code message >>= f) ↔ c ∧ Leaks (f ()) := by
  unfold require Except.require
  split <;> simp_all [bind, Except.bind]

/-- A value that is returned at the end makes no difference. -/
theorem leaks_bind_pure {x : Except Exn α} {f : α → β} :
    Leaks (x >>= fun a => pure (f a)) ↔ Leaks x := by
  simp only [leaks_bind, not_leaks_pure, and_false, exists_false, or_false]

end Leaks

/-! ## The checks -/

section Checks

variable {lib : Library} {policy : ExternalRetrievalPolicy}

/-- The lookup of a host raises what is no `gaierror`, or an address that it finds
cannot be read. -/
def LookupRaises (lib : Library) (hostname : String) : Prop :=
  lib.ipAddress hostname = none ∧ (lib.getaddrinfo hostname = .error .other ∨
    ∃ texts, lib.getaddrinfo hostname = .ok texts ∧ ∃ text ∈ texts, lib.ipAddress text = none)

/-- An address leaks exactly when it cannot be parsed. -/
theorem leaks_address {text : String} : Leaks (address lib text) ↔ lib.ipAddress text = none := by
  unfold address
  cases lib.ipAddress text with
  | none => simp [Exn.Foreign]
  | some a => simp

/-- One such address is enough in a list. -/
theorem leaks_mapM_address {texts : List String} :
    Leaks (texts.mapM (address lib)) ↔ ∃ text ∈ texts, lib.ipAddress text = none := by
  induction texts with
  | nil => simp
  | cons text texts ih =>
      rw [List.mapM_cons, leaks_bind, leaks_address, List.exists_mem_cons_iff]
      simp only [leaks_bind, ih, not_leaks_pure, and_false, exists_false, or_false]
      cases htext : lib.ipAddress text with
      | none => simp
      | some a => simp [address, htext]

/-- A look-up leaks exactly when it raises something else than `OSError`. -/
theorem leaks_addresses {hostname : String} :
    Leaks (addresses lib hostname) ↔ LookupRaises lib hostname := by
  unfold addresses LookupRaises
  cases lib.ipAddress hostname with
  | some a => simp
  | none =>
      cases lib.getaddrinfo hostname with
      | error e => cases e <;> simp [dnsFailed, Exn.Foreign]
      | ok texts => simp [leaks_mapM_address]

/-- The check for private hosts adds no leak to that of the look-up. -/
theorem leaks_rejectPrivateHostname {hostname : String} :
    Leaks (rejectPrivateHostname lib hostname) ↔ LookupRaises lib hostname := by
  simp [rejectPrivateHostname, leaks_bind, leaks_addresses]

/-- The policy looks the host up, unless it is an address. -/
structure LookedUp (lib : Library) (policy : ExternalRetrievalPolicy) (parsed : SplitResult) :
    Prop where
  protocol : lib.lower parsed.scheme ∈ policy.allowedProtocols
  anonymous : Anonymous lib parsed
  domain : policy.allowedDomains = ∅ ∨ DomainAllowed policy (normalizedHostname lib parsed)
  block : policy.blockPrivateNetworks = true

/-- The look-up is reached only behind the allowlist and with the check switched on. -/
theorem leaks_validateDomain {hostname : String} :
    Leaks (validateDomain lib policy hostname) ↔
      (policy.allowedDomains = ∅ ∨ DomainAllowed policy hostname) ∧
        policy.blockPrivateNetworks = true ∧ LookupRaises lib hostname := by
  simp only [validateDomain, leaks_require_bind]
  cases policy.blockPrivateNetworks with
  | false => simp only [Bool.false_eq_true, if_false, not_leaks_pure, false_and]
  | true => simp only [if_true, leaks_bind_pure, leaks_rejectPrivateHostname, true_and]

/-- It is reached only behind the checks on the parts of the URL. -/
theorem leaks_validateParts {parsed : SplitResult} :
    Leaks (validateParts lib policy parsed) ↔
      LookedUp lib policy parsed ∧ LookupRaises lib (normalizedHostname lib parsed) := by
  simp only [validateParts, leaks_require_bind]
  split
  · rename_i hliteral
    -- an address is not looked up
    have hnone : ¬ LookupRaises lib (normalizedHostname lib parsed) := fun h => hliteral.2 h.1
    rw [leaks_bind, leaks_rejectPrivateHostname]
    simp only [leaks_validateDomain, hnone, and_false, exists_false, or_false]
  · rw [leaks_validateDomain]
    constructor
    · rintro ⟨hprotocol, hanonymous, hdomain, hblock, hraises⟩
      exact ⟨⟨hprotocol, hanonymous, hdomain, hblock⟩, hraises⟩
    · rintro ⟨⟨hprotocol, hanonymous, hdomain, hblock⟩, hraises⟩
      exact ⟨hprotocol, hanonymous, hdomain, hblock, hraises⟩

/-- The check of resolved addresses refuses what it cannot parse. -/
theorem not_leaks_rejectAddresses {values : List String} : ¬ Leaks (rejectAddresses lib values) := by
  induction values with
  | nil => exact not_leaks_ok
  | cons value values ih =>
      have hvalue : ¬ Leaks (rejectAddress lib value) := by
        unfold rejectAddress
        split <;> simp
      simp only [rejectAddresses, leaks_bind, hvalue, ih, and_false, exists_false, or_false,
        not_false_eq_true]

/-- An interruption gets out of the loop when all that was received before it fits. -/
theorem leaks_receive {interrupted : Option Exn} {rest chunks : List Bytes} {n : ℕ} :
    Leaks (receive policy interrupted rest chunks n) ↔
      (∃ e, interrupted = some e ∧ e.Foreign) ∧
        ∃ received, receive policy none rest chunks n = .ok received := by
  induction rest generalizing chunks n with
  | nil => cases interrupted <;> simp [receive]
  | cons chunk rest ih =>
      simp only [receive, leaks_require_bind, bind_eq_ok, require_ok, ih]
      constructor
      · rintro ⟨hfits, hinterrupted, received, hreceived⟩
        exact ⟨hinterrupted, received, (), hfits, hreceived⟩
      · rintro ⟨hinterrupted, received, -, hfits, hreceived⟩
        exact ⟨hfits, hinterrupted, received, hreceived⟩

/-- The check of the declared length refuses what it cannot read. -/
theorem not_leaks_checkDeclared {response : Response} :
    ¬ Leaks (checkDeclared lib policy response) := by
  unfold checkDeclared
  split
  · simp
  · split <;> simp

/-- Nothing gets out of an open response but what interrupts its body. -/
theorem leaks_readResponse {response : Response} :
    Leaks (readResponse lib policy response) ↔
      (∃ e, response.interrupted = some e ∧ e.Foreign) ∧
        ∃ read, readResponse lib policy { response with interrupted := none } = .ok read := by
  simp only [readResponse, leaks_require_bind, bind_eq_ok, require_ok, pure_eq_ok]
  simp only [leaks_bind, not_leaks_checkDeclared, leaks_receive, not_leaks_pure, false_or, and_false,
    exists_false, or_false]
  constructor
  · rintro ⟨hredirect, hstatus, htype, u, hdeclared, hinterrupted, received, hreceived⟩
    exact ⟨hinterrupted, _, (), hredirect, (), hstatus, (), htype, u, hdeclared, received,
      hreceived, rfl⟩
  · rintro ⟨hinterrupted, read, -, hredirect, -, hstatus, -, htype, u, hdeclared, received,
      hreceived, -⟩
    exact ⟨hredirect, hstatus, htype, u, hdeclared, hinterrupted, received, hreceived⟩

end Checks

/-! ## The call -/

/-- The event says that the call has been blocked, or has failed. -/
def Refusal (event : AuditEvent) : Prop :=
  event.eventType = "external.retrieval.blocked" ∨ event.eventType = "external.retrieval.failed"

/-- A call that does not return raises a policy error; the last event that it has
appended, and no other, is a refusal, and has the code of the error. -/
def FailsClosed (o : Observed Noted Exn ExternalRetrievalResult) : Prop :=
  ∀ e, o.result = .error e → ∃ code message before event,
    e = .retrieval code message ∧ o.events = before ++ [(event, .returned)] ∧ Refusal event ∧
      event.metadata.get? "code" = some (.str code) ∧ ∀ n ∈ before, ¬ Refusal n.1

section Call

variable (x : ExternalRetrievalService) (answer : (q : Question) → Answer q) (c : Retrieval)

/-- The request is made: nothing stands against it, and that has been recorded. -/
structure Requested (parsed : SplitResult) (hostname : String) : Prop where
  split : x.lib.urlsplit c.url = some parsed
  admitted : admitted x answer c = .ok hostname
  recorded : answer (.append (allowedEvent x.lib c (safeUrl x.lib parsed) hostname)) = .returned

/-- The call comes to record the event. -/
inductive Recorded : AuditEvent → Prop where
  | allowed {parsed hostname} (hsplit : x.lib.urlsplit c.url = some parsed)
      (h : admitted x answer c = .ok hostname) :
      Recorded (allowedEvent x.lib c (safeUrl x.lib parsed) hostname)
  | completed {parsed hostname result} (hrequested : Requested x answer c parsed hostname)
      (h : fetched x answer c = .ok result) :
      Recorded (completedEvent x.lib c (safeUrl x.lib parsed) result)
  | blocked {parsed e event e'} (hsplit : x.lib.urlsplit c.url = some parsed)
      (h : admitted x answer c = .error e)
      (hreported : reported x c (safeUrl x.lib parsed) e = some (event, e')) : Recorded event
  | failed {parsed hostname e event e'} (hrequested : Requested x answer c parsed hostname)
      (h : fetched x answer c = .error e)
      (hreported : reported x c (safeUrl x.lib parsed) e = some (event, e')) : Recorded event

/-- What lets an exception out of the call. -/
inductive Escapes : Prop where
  /-- The URL cannot be split. -/
  | url (h : x.lib.urlsplit c.url = none)
  /-- The policy's own lookup of the host. -/
  | lookup {parsed} (hscope : "scope.sources.external_read" ∈ c.scopeRefs)
      (hsplit : x.lib.urlsplit c.url = some parsed) (hlooked : LookedUp x.lib x.policy parsed)
      (h : LookupRaises x.lib (normalizedHostname x.lib parsed))
  /-- The injected resolver. -/
  | resolver {hostname} (hscope : "scope.sources.external_read" ∈ c.scopeRefs)
      (hvalid : validateUrl x.lib x.policy c.url = .ok hostname)
      (hasked : x.hasResolver ∧ x.policy.blockPrivateNetworks)
      (h : Leaks (answer (.resolve hostname)))
  /-- The client, before there is a response. -/
  | transport {parsed hostname} (hrequested : Requested x answer c parsed hostname)
      (h : Leaks (answer (.stream c.url)))
  /-- The client, as the response is left. -/
  | leaving {parsed hostname response e} (hrequested : Requested x answer c parsed hostname)
      (hresponse : answer (.stream c.url) = .ok response)
      (hclosing : response.closing = some e) (h : e.Foreign)
  /-- The client, amid a body in which nothing has been refused. -/
  | body {parsed hostname response read e} (hrequested : Requested x answer c parsed hostname)
      (hresponse : answer (.stream c.url) = .ok response) (hclosing : response.closing = none)
      (hread : readResponse x.lib x.policy { response with interrupted := none } = .ok read)
      (hinterrupted : response.interrupted = some e) (h : e.Foreign)
  /-- The audit sink. -/
  | sink {event} (hrecorded : Recorded x answer c event) (h : answer (.append event) = .raised)

variable {x answer c}

/-- An injected resolver leaks what it raises. -/
theorem leaks_consulted {hostname : String} :
    Leaks (consulted x answer hostname) ↔
      (x.hasResolver ∧ x.policy.blockPrivateNetworks) ∧ Leaks (answer (.resolve hostname)) := by
  unfold consulted
  split
  · rename_i hasked
    simp only [leaks_bind, not_leaks_rejectAddresses, and_false, exists_false, or_false, hasked,
      and_self, true_and]
  · rename_i hasked
    simp only [not_leaks_ok, hasked, false_and]

/-- The ways out of the policy that are not its own refusals. -/
theorem leaks_admitted {parsed : SplitResult} (hsplit : x.lib.urlsplit c.url = some parsed) :
    Leaks (admitted x answer c) ↔ "scope.sources.external_read" ∈ c.scopeRefs ∧
      ((LookedUp x.lib x.policy parsed ∧
        LookupRaises x.lib (normalizedHostname x.lib parsed)) ∨
      ∃ hostname, validateUrl x.lib x.policy c.url = .ok hostname ∧
        (x.hasResolver ∧ x.policy.blockPrivateNetworks) ∧ Leaks (answer (.resolve hostname))) := by
  have hvalid : Leaks (validateUrl x.lib x.policy c.url) ↔ LookedUp x.lib x.policy parsed ∧
      LookupRaises x.lib (normalizedHostname x.lib parsed) := by
    simp only [validateUrl, hsplit, leaks_validateParts]
  simp only [admitted, leaks_require_bind]
  rw [leaks_bind, hvalid]
  simp only [leaks_bind_pure, leaks_consulted]

/-- Closing the response can hide the error of reading it. -/
theorem leaks_leaving {α : Type} {response : Response} {read : Except Exn α} :
    Leaks (leaving response read) ↔ (∃ e, response.closing = some e ∧ e.Foreign) ∨
      response.closing = none ∧ Leaks read := by
  unfold leaving
  split
  · rename_i e he
    simp [he]
  · rename_i hnone
    simp [hnone]

/-- The ways out of the request that are not errors of the client. -/
theorem leaks_fetched : Leaks (fetched x answer c) ↔ Leaks (answer (.stream c.url)) ∨
    ∃ response, answer (.stream c.url) = .ok response ∧
      ((∃ e, response.closing = some e ∧ e.Foreign) ∨ response.closing = none ∧
        (∃ e, response.interrupted = some e ∧ e.Foreign) ∧ ∃ read,
          readResponse x.lib x.policy { response with interrupted := none } = .ok read) := by
  simp only [fetched]
  rw [leaks_bind]
  simp only [leaks_bind_pure, leaks_leaving, leaks_readResponse]

/-- An append leaks when the sink raises. -/
theorem leaks_settle {appended : Alos.Appended} : Leaks (settle appended) ↔ appended = .raised := by
  cases appended <;> simp [settle, Exn.Foreign]

/-- An append goes on exactly when the sink returns. -/
theorem settle_ok {appended : Alos.Appended} {u : Unit} :
    settle appended = .ok u ↔ appended = .returned := by
  cases appended <;> simp [settle]

/-- An append ends the call exactly when the sink raises. -/
theorem settle_error {appended : Alos.Appended} {e : Exn} :
    settle appended = .error e ↔ appended = .raised ∧ e = .audit := by
  cases appended <;> simp [settle, eq_comm]

/-- What is not reported is what is not caught. -/
theorem reported_eq_none (x : ExternalRetrievalService) (c : Retrieval) (safe : String) {e : Exn} :
    reported x c safe e = none ↔ e.Foreign := by
  cases e <;> simp [reported, Exn.Foreign]

/-- What is reported of an exception is raised in its place. -/
theorem reported_refusal {safe : String} {e e' : Exn} {event : AuditEvent}
    (h : reported x c safe e = some (event, e')) :
    ∃ code message, e' = .retrieval code message ∧ Refusal event ∧
      event.metadata = [("url", .str safe), ("code", .str code)] := by
  cases e with
  | retrieval code message =>
      cases h
      exact ⟨code, message, rfl, .inl rfl, rfl⟩
  | timeout =>
      cases h
      exact ⟨_, _, rfl, .inr rfl, rfl⟩
  | request =>
      cases h
      exact ⟨_, _, rfl, .inr rfl, rfl⟩
  | other => cases h
  | audit => cases h

/-- What the handlers let through: a foreign error, or the failure to record a refusal. -/
theorem leaks_report {safe : String} {e : Exn} :
    Leaks (observe noted answer (report x c safe e)).result ↔ e.Foreign ∨
      ∃ event e', reported x c safe e = some (event, e') ∧ answer (.append event) = .raised := by
  rw [observe_report]
  rw [← reported_eq_none x c safe]
  cases hreported : reported x c safe e with
  | none => simp [(reported_eq_none x c safe).1 hreported]
  | some pair =>
      rcases pair with ⟨event, e'⟩
      rcases reported_refusal hreported with ⟨code, message, rfl, -, -⟩
      cases hsink : answer (.append event) <;> simp [hsink, Exn.Foreign]

/-- How the body of the `try` ends. -/
theorem result_attempt (safe : String) :
    (observe noted answer (attempt x c safe)).result = (do
      let hostname ← admitted x answer c
      settle (answer (.append (allowedEvent x.lib c safe hostname)))
      let result ← fetched x answer c
      settle (answer (.append (completedEvent x.lib c safe result)))
      return result) := by
  simp only [attempt, Proc.bind_def, Proc.pure_def, observe_bind, observe_checks, observe_auditEvent,
    observe_fetch, observe_ret, Observed.bind_result]
  rfl

/-- The ways out of the body of the `try`, one for each step. -/
theorem leaks_attempt {safe : String} :
    Leaks (observe noted answer (attempt x c safe)).result ↔ Leaks (admitted x answer c) ∨
      ∃ hostname, admitted x answer c = .ok hostname ∧
        (answer (.append (allowedEvent x.lib c safe hostname)) = .raised ∨
          answer (.append (allowedEvent x.lib c safe hostname)) = .returned ∧
            (Leaks (fetched x answer c) ∨ ∃ result, fetched x answer c = .ok result ∧
              answer (.append (completedEvent x.lib c safe result)) = .raised)) := by
  rw [result_attempt]
  simp only [leaks_bind, leaks_settle, settle_ok, not_leaks_pure, and_false, exists_false, or_false,
    exists_const]

/-- An exception gets out when it is not caught, or when the sink raises one as the
exception is reported. -/
theorem leaks_retrieve {parsed : SplitResult} (hsplit : x.lib.urlsplit c.url = some parsed) :
    Leaks (seen x answer c).result ↔
      Leaks (observe noted answer (attempt x c (safeUrl x.lib parsed))).result ∨
        ∃ e event e', (observe noted answer (attempt x c (safeUrl x.lib parsed))).result =
          .error e ∧ reported x c (safeUrl x.lib parsed) e = some (event, e') ∧
            answer (.append event) = .raised := by
  rw [observe_retrieve x answer c hsplit]
  generalize observe noted answer (attempt x c (safeUrl x.lib parsed)) = body
  rcases body with ⟨result, events⟩
  cases result with
  | error e => simp [leaks_report]
  | ok result => simp

/-- The same for the whole call on a URL that can be split. -/
theorem leaks_seen {parsed : SplitResult} (hsplit : x.lib.urlsplit c.url = some parsed) :
    Leaks (seen x answer c).result ↔ Leaks (admitted x answer c) ∨
      (∃ hostname, Requested x answer c parsed hostname ∧ Leaks (fetched x answer c)) ∨
      ∃ event, Recorded x answer c event ∧ answer (.append event) = .raised := by
  rw [leaks_retrieve hsplit]
  constructor
  · rintro (hattempt | ⟨e, event, e', he, hreported, hsink⟩)
    · rcases leaks_attempt.1 hattempt with h | ⟨hostname, h, hsink | ⟨hrecorded, hrest⟩⟩
      · exact .inl h
      · exact .inr (.inr ⟨_, .allowed hsplit h, hsink⟩)
      · rcases hrest with hfetched | ⟨result, hfetched, hsink⟩
        · exact .inr (.inl ⟨hostname, ⟨hsplit, h, hrecorded⟩, hfetched⟩)
        · exact .inr (.inr ⟨_, .completed ⟨hsplit, h, hrecorded⟩ hfetched, hsink⟩)
    · -- what the sink raises is not reported
      have hcaught : e ≠ .audit := by
        rintro rfl
        cases hreported
      rw [result_attempt] at he
      rcases bind_eq_error.1 he with h | ⟨hostname, h, he⟩
      · exact .inr (.inr ⟨event, .blocked hsplit h hreported, hsink⟩)
      rcases bind_eq_error.1 he with hallowed | ⟨u, hallowed, he⟩
      · exact absurd (settle_error.1 hallowed).2 hcaught
      rcases bind_eq_error.1 he with hfetched | ⟨result, hfetched, he⟩
      · exact .inr (.inr ⟨event,
          .failed ⟨hsplit, h, settle_ok.1 hallowed⟩ hfetched hreported, hsink⟩)
      rcases bind_eq_error.1 he with hcompleted | ⟨u', -, he⟩
      · exact absurd (settle_error.1 hcompleted).2 hcaught
      · cases he
  · rintro (h | ⟨hostname, hrequested, h⟩ | ⟨event, hrecorded, hsink⟩)
    · exact .inl (leaks_attempt.2 (.inl h))
    · exact .inl (leaks_attempt.2
        (.inr ⟨hostname, hrequested.admitted, .inr ⟨hrequested.recorded, .inl h⟩⟩))
    cases hrecorded with
    | allowed hsplit' h =>
        cases hsplit.symm.trans hsplit'
        exact .inl (leaks_attempt.2 (.inr ⟨_, h, .inl hsink⟩))
    | completed hrequested h =>
        cases hsplit.symm.trans hrequested.split
        exact .inl (leaks_attempt.2 (.inr ⟨_, hrequested.admitted,
          .inr ⟨hrequested.recorded, .inr ⟨_, h, hsink⟩⟩⟩))
    | blocked hsplit' h hreported =>
        cases hsplit.symm.trans hsplit'
        refine .inr ⟨_, _, _, ?_, hreported, hsink⟩
        rw [result_attempt, h]
        rfl
    | failed hrequested h hreported =>
        cases hsplit.symm.trans hrequested.split
        refine .inr ⟨_, _, _, ?_, hreported, hsink⟩
        rw [result_attempt, hrequested.admitted]
        simp only [bind, Except.bind, hrequested.recorded, settle, h]

/-- The exceptions that get out of a call are those of `Escapes`. -/
theorem leaks_seen_iff : Leaks (seen x answer c).result ↔ Escapes x answer c := by
  constructor
  · intro hleaks
    cases hsplit : x.lib.urlsplit c.url with
    | none => exact .url hsplit
    | some parsed =>
        -- the policy leaks, or the request, or an event that is not taken
        rcases (leaks_seen hsplit).1 hleaks with h | ⟨hostname, hrequested, h⟩ | ⟨event, h, hsink⟩
        · obtain ⟨hscope, ⟨hlooked, hraises⟩ | ⟨hostname, hvalid, hasked, hresolver⟩⟩ :=
            (leaks_admitted hsplit).1 h
          · exact .lookup hscope hsplit hlooked hraises
          · exact .resolver hscope hvalid hasked hresolver
        · rcases leaks_fetched.1 h with htransport | ⟨response, hresponse, hrest⟩
          · exact .transport hrequested htransport
          · rcases hrest with ⟨e, hclosing, he⟩ | ⟨hclosing, ⟨e, hinterrupted, he⟩, read, hread⟩
            · exact .leaving hrequested hresponse hclosing he
            · exact .body hrequested hresponse hclosing hread hinterrupted he
        · exact .sink h hsink
  · intro hescapes
    cases hsplit : x.lib.urlsplit c.url with
    | none =>
        rw [seen_unsplit x answer c hsplit]
        exact ⟨.other, .inl rfl, rfl⟩
    | some parsed =>
        rw [leaks_seen hsplit]
        cases hescapes with
        | url h => cases hsplit.symm.trans h
        | lookup hscope hsplit' hlooked h =>
            cases hsplit.symm.trans hsplit'
            exact .inl ((leaks_admitted hsplit).2 ⟨hscope, .inl ⟨hlooked, h⟩⟩)
        | resolver hscope hvalid hasked h =>
            exact .inl ((leaks_admitted hsplit).2 ⟨hscope, .inr ⟨_, hvalid, hasked, h⟩⟩)
        | transport hrequested h =>
            cases hsplit.symm.trans hrequested.split
            exact .inr (.inl ⟨_, hrequested, leaks_fetched.2 (.inl h)⟩)
        | leaving hrequested hresponse hclosing h =>
            cases hsplit.symm.trans hrequested.split
            exact .inr (.inl ⟨_, hrequested,
              leaks_fetched.2 (.inr ⟨_, hresponse, .inl ⟨_, hclosing, h⟩⟩)⟩)
        | body hrequested hresponse hclosing hread hinterrupted h =>
            cases hsplit.symm.trans hrequested.split
            exact .inr (.inl ⟨_, hrequested, leaks_fetched.2
              (.inr ⟨_, hresponse, .inr ⟨hclosing, ⟨_, hinterrupted, h⟩, _, hread⟩⟩)⟩)
        | sink hrecorded h => exact .inr (.inr ⟨_, hrecorded, h⟩)

/-- Nothing of what precedes the refusal is one. -/
theorem failsClosed_reported {parsed : SplitResult} {before : List Noted} {e : Exn}
    (hbefore : ∀ n ∈ before, ¬ Refusal n.1)
    (hleaks : ¬ Leaks (observe noted answer (report x c (safeUrl x.lib parsed) e)).result) :
    FailsClosed ((⟨.error e, before⟩ : Observed Noted Exn ExternalRetrievalResult).rescue
      fun e => observe noted answer (report x c (safeUrl x.lib parsed) e)) := by
  rw [leaks_report, not_or] at hleaks
  cases hreported : reported x c (safeUrl x.lib parsed) e with
  | none => exact absurd ((reported_eq_none x c _).1 hreported) hleaks.1
  | some pair =>
      rcases pair with ⟨event, e'⟩
      rcases reported_refusal hreported with ⟨code, message, rfl, hrefusal, hmetadata⟩
      have hcode : event.metadata.get? "code" = some (.str code) := by
        rw [hmetadata]
        rfl
      -- a sink that raises here would be a leak
      have hsink : answer (.append event) = .returned := by
        cases hsink : answer (.append event) with
        | returned => rfl
        | raised => exact absurd ⟨event, _, hreported, hsink⟩ hleaks.2
      intro e'' he''
      rw [Observed.rescue_error, observe_report, hreported] at he'' ⊢
      simp only [hsink] at he'' ⊢
      cases he''
      exact ⟨code, message, before, event, rfl, rfl, hrefusal, hcode, hbefore⟩

end Call

/-- A call fails closed but for the exceptions that it lets out. -/
theorem retrieve_failsClosed_iff (x : ExternalRetrievalService) (answer : (q : Question) → Answer q)
    (c : Retrieval) : FailsClosed (seen x answer c) ↔ ¬ Escapes x answer c := by
  rw [← leaks_seen_iff]
  constructor
  · rintro hclosed ⟨e, hforeign, he⟩
    rcases hclosed e he with ⟨code, message, -, -, rfl, -⟩
    exact not_foreign_retrieval hforeign
  · intro hleaks
    cases hsplit : x.lib.urlsplit c.url with
    | none =>
        rw [seen_unsplit x answer c hsplit] at hleaks
        exact absurd ⟨.other, .inl rfl, rfl⟩ hleaks
    | some parsed =>
        rcases seen_attempted x answer c hsplit with ⟨body, hattempted, hseen⟩
        rw [hseen] at hleaks ⊢
        have hallowed : ∀ {hostname}, ∀ n ∈ [((allowedEvent x.lib c (safeUrl x.lib parsed) hostname,
            Alos.Appended.returned) : Noted)], ¬ Refusal n.1 := by
          simp [Refusal, allowedEvent, event]
        -- one case for each way out of the `try`
        cases hattempted with
        | refused h => exact failsClosed_reported (by simp) hleaks
        | unrecorded h hsink => exact absurd ⟨.audit, .inr rfl, rfl⟩ hleaks
        | failed h hsink hfetched => exact failsClosed_reported hallowed hleaks
        | unfinished h hsink hfetched hlast => exact absurd ⟨.audit, .inr rfl, rfl⟩ hleaks
        | completed h hsink hfetched hlast =>
            intro e he
            cases he

/-- The host of the URL has no end: `_safe_url` raises a `ValueError`. -/
theorem unsplit_unaudited :
    ¬ FailsClosed (seen sampleService sampleAnswers (sampleRetrieval "https://[")) := by
  intro h
  have hraised : (seen sampleService sampleAnswers (sampleRetrieval "https://[")).result =
      .error .other := by decide
  rcases h _ hraised with ⟨code, message, -, -, hcode, -⟩
  cases hcode

end Alos.Integrations
