import Alos.Tools.Access

/-! # What a call that returns has recorded

One call of `execute` that nobody interferes with, and that returns. It has
told the audit sink that it was requested, then how it ended, then whether its
output was replayed; only a success with a key, and not a replayed one, has
changed the idempotency store.

* `Exit` lists the exits of `execute` with what each has asked and stored,
  `exit_of_ok` says that there are no others;
* `disciplined` is the result.
-/

namespace Alos.Tools

open Coop

/-! ## The exits -/

/-- The sink has stored the record of the call with the outcome. -/
def told (c : ToolCall) (outcome : String) : Exchange Question Answer :=
  ⟨.append (auditRecord c.request outcome), .returned⟩

/-- The adapter has answered the call. -/
def answered (c : ToolCall) (answer : Executed) : Exchange Question Answer :=
  ⟨.execute c.request.toolId c.request.arguments c.request.executionContext, answer⟩

/-- The ways in which a call returns. -/
inductive Exit (x : ToolExecutor) (s : ToolState) (c : ToolCall) : Ended → Prop where
  | refused {refusal} (h : refusal.status ≠ .success) : Exit x s c
      ⟨s, .ok (c.refused refusal), [told c "REQUESTED", told c refusal.status.value]⟩
  | failed {refusal answer} (h : refusal.status ≠ .success) : Exit x s c
      ⟨s, .ok (c.refused refusal),
        [told c "REQUESTED", answered c answer, told c refusal.status.value]⟩
  | succeeded {output} (hkey : c.request.key = none) : Exit x s c
      ⟨s, .ok (c.succeeded output),
        [told c "REQUESTED", answered c (.returned output), told c "SUCCESS"]⟩
  | stored {key output} (hkey : c.request.key = some key)
      (hfree : s.records (cacheKey c.request key) = none) : Exit x s c
      ⟨s.setRecord (cacheKey c.request key) ⟨requestDigest x c.request, output⟩,
        .ok (c.succeeded output),
        [told c "REQUESTED", answered c (.returned output), told c "SUCCESS"]⟩
  | replayed {key existing} (hkey : c.request.key = some key)
      (hrecord : s.records (cacheKey c.request key) = some existing)
      (hdigest : existing.requestDigest = requestDigest x c.request) : Exit x s c
      ⟨s, .ok (c.succeeded existing.output),
        [told c "REQUESTED", told c "SUCCESS", told c "IDEMPOTENT_REPLAY"]⟩

section Stages

variable {x : ToolExecutor} {c : ToolCall} {s : ToolState} {env : Env Question Answer}
  {outcome : ToolExecutionOutcome}

/-- A call that returns has got its record stored. -/
theorem recording_returns {status : String} {next : ToolOp ToolExecutionOutcome}
    (h : ((recording c status next).alone env s).result = .ok outcome) :
    (recording c status next).alone env s =
      (next.alone (fun n => env (n + 1)) s).after (told c status) := by
  simp only [recording, Yield.alone] at h ⊢
  cases henv : env 0 (.append (auditRecord c.request status)) with
  | returned => rfl
  | raised =>
      rw [henv] at h
      cases h

theorem closing_returns {refusal : Refusal}
    (h : (((Stage.closing refusal).now x c).alone env s).result = .ok outcome) :
    ((Stage.closing refusal).now x c).alone env s =
      ⟨s, .ok (c.refused refusal), [told c refusal.status.value]⟩ := by
  rw [Stage.now] at h ⊢
  rw [recording_returns h]
  rfl

theorem replaying_returns {output : Json}
    (h : (((Stage.replaying output).now x c).alone env s).result = .ok outcome) :
    ((Stage.replaying output).now x c).alone env s =
      ⟨s, .ok (c.succeeded output), [told c "SUCCESS", told c "IDEMPOTENT_REPLAY"]⟩ := by
  rw [Stage.now] at h ⊢
  have hsuccess := recording_returns h
  rw [replayed_alone (x := x), Stage.now] at hsuccess
  rw [hsuccess, Proc.Finished.after_result] at h
  rw [hsuccess, recording_returns h]
  rfl

/-- A success that has been told is stored when it has a key. -/
theorem storing_returns {output : Json}
    (h : (((Stage.storing output).now x c).alone env s).result = .ok outcome) :
    (c.request.key = none ∧ ((Stage.storing output).now x c).alone env s =
      ⟨s, .ok (c.succeeded output), [told c "SUCCESS"]⟩) ∨
    ∃ key, c.request.key = some key ∧ ((Stage.storing output).now x c).alone env s =
      ⟨s.setRecord (cacheKey c.request key) ⟨requestDigest x c.request, output⟩,
        .ok (c.succeeded output), [told c "SUCCESS"]⟩ := by
  have hnow : (staging x).now c (.storing output) =
      .awaiting (.append (auditRecord c.request "SUCCESS")) _ := rfl
  rcases (staging_follows x).alone_turn hnow env s with ⟨s', st', hturn, halone⟩
  have hturn' : Turn x c s (.storing output) _ s' st' := hturn
  change ((Stage.storing output).now x c).alone env s = _ at halone
  rw [halone] at h ⊢
  generalize env 0 (.append (auditRecord c.request "SUCCESS")) = a at hturn' h ⊢
  -- the output is returned unless the event raised or the key was taken
  cases hturn' with
  | unrecorded => cases h
  | unkeyed hkey => exact .inl ⟨hkey, rfl⟩
  | stored hkey _ => exact .inr ⟨_, hkey, rfl⟩
  | taken => cases h

/-- What the adapter answers is told. -/
theorem running_returns (h : ((Stage.running.now x c).alone env s).result = .ok outcome) :
    (∃ refusal answer, refusal.status ≠ .success ∧ (Stage.running.now x c).alone env s =
      ⟨s, .ok (c.refused refusal), [answered c answer, told c refusal.status.value]⟩) ∨
    ∃ output s', (Stage.running.now x c).alone env s =
        ⟨s', .ok (c.succeeded output), [answered c (.returned output), told c "SUCCESS"]⟩ ∧
      (c.request.key = none ∧ s' = s ∨ ∃ key, c.request.key = some key ∧
        s' = s.setRecord (cacheKey c.request key) ⟨requestDigest x c.request, output⟩) := by
  have hnow : (staging x).now c .running = .awaiting
      (.execute c.request.toolId c.request.arguments c.request.executionContext) _ := rfl
  rcases (staging_follows x).alone_turn hnow env s with ⟨s', st', hturn, halone⟩
  have hturn' : Turn x c s .running _ s' st' := hturn
  change (Stage.running.now x c).alone env s =
    ((st'.now x c).alone (fun n => env (n + 1)) s').after _ at halone
  rw [halone] at h ⊢
  rw [Proc.Finished.after_result] at h
  generalize env 0 (.execute c.request.toolId c.request.arguments c.request.executionContext) = a
    at hturn' ⊢
  -- the adapter ran out of time, failed, or gave an output
  cases hturn' with
  | timedOut =>
      rw [closing_returns h]
      exact .inl ⟨timeoutRefusal, .timedOut, by decide, rfl⟩
  | failed =>
      rw [closing_returns h]
      exact .inl ⟨failedRefusal, .raised, by decide, rfl⟩
  | executed =>
      right
      rcases storing_returns h with ⟨hkey, hstored⟩ | ⟨key, hkey, hstored⟩
      · rw [hstored]
        exact ⟨_, s, rfl, .inl ⟨hkey, rfl⟩⟩
      · rw [hstored]
        exact ⟨_, _, rfl, .inr ⟨key, hkey, rfl⟩⟩
  | invalidFailure => cases h
  | invalidSuccess => cases h

/-- There are no other exits. -/
theorem exit_of_ok (h : ((c.prog x).alone env s).result = .ok outcome) :
    Exit x s c ((c.prog x).alone env s) := by
  -- an invalid request raises, so it does not return
  have hvalid : x.contractValidator.validateRequest c.request = true := by
    by_contra hinvalid
    rcases (staging_follows x).alone_begins c env s with ⟨s', st, hbegins, hrun⟩
    rw [hrun] at h
    have hbegins' : Begins x c s s' st := hbegins
    cases hbegins' with
    | invalid => cases h
    | valid hvalid => exact hinvalid hvalid
  rcases decision s env hvalid with ⟨a, y, -, rfl, st, hturn, hrun⟩
  rw [hrun] at h ⊢
  rw [Proc.Finished.after_result] at h
  cases hturn with
  | unrecorded => cases h
  | refused hverdict =>
      rw [closing_returns h]
      refine .refused ?_
      rcases verdict_error_status hverdict with hstatus | hstatus <;> simp [hstatus]
  | fresh hfresh =>
      rcases running_returns h with ⟨refusal, answer, hstatus, hrunning⟩ |
        ⟨output, s', hrunning, ⟨hkey, rfl⟩ | ⟨key, hkey, rfl⟩⟩
      · rw [hrunning]
        exact .failed hstatus
      · rw [hrunning]
        exact .succeeded hkey
      · rw [hrunning]
        exact .stored hkey (hfresh.unrecorded key hkey)
  | conflict =>
      rw [closing_returns h]
      exact .refused (by decide)
  | known hverdict hkey hrecord hdigest =>
      rw [replaying_returns h]
      exact .replayed hkey hrecord hdigest
  | invalidVerdict => cases h

end Stages

/-! ## The result -/

/-- The record that the sink has stored in an exchange. -/
def storedRecord : Exchange Question Answer → Option ToolAuditRecord
  | ⟨.append record, .returned⟩ => some record
  | _ => none

/-- What the sink has stored during a call, in order. -/
def Ended.trail (f : Ended) : List ToolAuditRecord := f.log.filterMap storedRecord

/-- The output of the call has been replayed: it is the one that the store held
for this very request, and the adapter has not been called. -/
structure FromStore (x : ToolExecutor) (s : ToolState) (c : ToolCall) (f : Ended)
    (outcome : ToolExecutionOutcome) : Prop where
  recorded : ∃ key existing, c.request.key = some key ∧
    s.records (cacheKey c.request key) = some existing ∧
      existing.requestDigest = requestDigest x c.request ∧
        outcome.result.output = some existing.output
  uncalled : ¬ CallsAdapter f

/-- What a call that returns `outcome` has recorded and stored. -/
structure Disciplined (x : ToolExecutor) (s : ToolState) (c : ToolCall) (f : Ended)
    (outcome : ToolExecutionOutcome) : Prop where
  /-- It was requested, it ended as the result says, and it was replayed or not. -/
  trail : f.trail = [auditRecord c.request "REQUESTED",
        auditRecord c.request outcome.result.status.value] ∧ ¬ FromStore x s c f outcome ∨
    f.trail = [auditRecord c.request "REQUESTED",
        auditRecord c.request outcome.result.status.value,
        auditRecord c.request "IDEMPOTENT_REPLAY"] ∧ FromStore x s c f outcome
  identified : ∀ record ∈ f.trail, record.toolCallId = c.request.toolCallId ∧
    record.correlationId = c.request.executionContext.correlationId
  correlated : outcome.result.correlationId = c.request.executionContext.correlationId
  error_correlated : ∀ error, outcome.result.error = some error →
    error.correlationId = c.request.executionContext.correlationId
  /-- Nothing but a success with a key that is not replayed changes the store. -/
  unchanged : ¬ (outcome.result.status = .success ∧ ¬ FromStore x s c f outcome ∧
    ∃ key, c.request.key = some key) → f.state = s
  /-- Such a success adds its own record, where there was none. -/
  added : ∀ key, outcome.result.status = .success → ¬ FromStore x s c f outcome →
    c.request.key = some key → s.records (cacheKey c.request key) = none ∧
      ∃ output, outcome.result.output = some output ∧ f.state =
        s.setRecord (cacheKey c.request key) ⟨requestDigest x c.request, output⟩

/-- A result with an error is not replayed. -/
theorem not_fromStore_refused {x : ToolExecutor} {s : ToolState} {c : ToolCall} {f : Ended}
    {refusal : Refusal} : ¬ FromStore x s c f (c.refused refusal) := by
  intro h
  rcases h.recorded with ⟨key, existing, -, -, -, houtput⟩
  cases houtput

/-- What the adapter has been called for is not replayed. -/
theorem not_fromStore_answered {x : ToolExecutor} {s : ToolState} {c : ToolCall} {f : Ended}
    {outcome : ToolExecutionOutcome} (answer : Executed) (h : answered c answer ∈ f.log) :
    ¬ FromStore x s c f outcome :=
  fun hstore => hstore.uncalled ⟨_, h, _, _, _, rfl⟩

/-- Every record is one of this call. -/
theorem Exit.identified {x : ToolExecutor} {s : ToolState} {c : ToolCall} {f : Ended}
    (h : Exit x s c f) : ∀ record ∈ f.trail, record.toolCallId = c.request.toolCallId ∧
      record.correlationId = c.request.executionContext.correlationId := by
  cases h <;> simp [Ended.trail, told, answered, storedRecord, auditRecord]

/-- Every call that returns keeps the discipline, whatever the request, the
principal, the registry and the store. -/
theorem disciplined (x : ToolExecutor) (s : ToolState) (c : ToolCall) (env : Env Question Answer)
    (outcome : ToolExecutionOutcome) (h : ((c.prog x).alone env s).result = .ok outcome) :
    Disciplined x s c ((c.prog x).alone env s) outcome := by
  have hexit := exit_of_ok h
  generalize (c.prog x).alone env s = f at h hexit
  -- one case for each exit
  have hidentified := hexit.identified
  cases hexit with
  | refused hstatus =>
      cases h
      refine ⟨.inl ⟨rfl, not_fromStore_refused⟩, hidentified, rfl, ?_, fun _ => rfl, ?_⟩
      · rintro error ⟨⟩
        rfl
      · intro key hsuccess
        exact absurd hsuccess hstatus
  | failed hstatus =>
      cases h
      refine ⟨.inl ⟨rfl, not_fromStore_refused⟩, hidentified, rfl, ?_, fun _ => rfl, ?_⟩
      · rintro error ⟨⟩
        rfl
      · intro key hsuccess
        exact absurd hsuccess hstatus
  | @succeeded output hkey =>
      cases h
      refine ⟨.inl ⟨rfl, not_fromStore_answered (.returned output) (by simp)⟩,
        hidentified, rfl, ?_, fun _ => rfl, ?_⟩
      · rintro error ⟨⟩
      · intro key _ _ hkey'
        rw [hkey] at hkey'
        cases hkey'
  | @stored key output hkey hfree =>
      cases h
      refine ⟨.inl ⟨rfl, not_fromStore_answered (.returned output) (by simp)⟩,
        hidentified, rfl, ?_, ?_, ?_⟩
      · rintro error ⟨⟩
      · intro hunchanged
        refine absurd ⟨rfl, ?_, key, hkey⟩ hunchanged
        exact not_fromStore_answered (.returned output) (by simp)
      · intro key' _ _ hkey'
        rw [hkey] at hkey'
        cases hkey'
        exact ⟨hfree, output, rfl, rfl⟩
  | @replayed key existing hkey hrecord hdigest =>
      cases h
      have hstore : FromStore x s c ⟨s, .ok (c.succeeded existing.output),
          [told c "REQUESTED", told c "SUCCESS", told c "IDEMPOTENT_REPLAY"]⟩
          (c.succeeded existing.output) :=
        ⟨⟨key, existing, hkey, hrecord, hdigest, rfl⟩, by simp [CallsAdapter, told]⟩
      refine ⟨.inr ⟨rfl, hstore⟩, hidentified, rfl, ?_, fun _ => rfl, ?_⟩
      · rintro error ⟨⟩
      · intro key' _ hfresh
        exact absurd hstore hfresh

/-- The diagnostic call is told, stored, and correlated. -/
theorem disciplined_diagnostic : ∃ outcome,
    Disciplined diagnosticExecutor diagnosticState
      (diagnosticCall "corr_tool_001" "hello from GENESIS")
      (((diagnosticCall "corr_tool_001" "hello from GENESIS").prog diagnosticExecutor).alone
        (fun _ => diagnosticAnswers) diagnosticState) outcome :=
  ⟨_, disciplined diagnosticExecutor diagnosticState
    (diagnosticCall "corr_tool_001" "hello from GENESIS") (fun _ => diagnosticAnswers)
    ((diagnosticCall "corr_tool_001" "hello from GENESIS").succeeded
      (DiagnosticEchoAdapter.execute [("message", .str "hello from GENESIS")])) rfl⟩

end Alos.Tools
