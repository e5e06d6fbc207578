import Alos.Tools.Diagnostic
import Alos.Tools.Stages

/-! # Who gets to the adapter

One call of `execute` that nobody interferes with. It calls the adapter, or
answers with a stored output, exactly when it meets every gate and its
idempotency key is not taken by another request.

* `decision` cuts such a call after the append of `REQUESTED`: what is left is
  the run of one stage;
* `executes_iff_admitted` is the result.
-/

namespace Alos.Tools

open Coop

/-- What a call of `execute` alone leaves behind. -/
abbrev Ended := Proc.Finished ToolState Question Answer ExecuteError ToolExecutionOutcome

/-- The adapter has been called. -/
def CallsAdapter (f : Ended) : Prop :=
  ∃ y ∈ f.log, ∃ toolId arguments context, y.1 = .execute toolId arguments context

/-- The caller has got an output of the store. -/
def AnswersStored (s : ToolState) (c : ToolCall) (f : Ended) : Prop :=
  ∃ key existing, c.request.key = some key ∧
    s.records (cacheKey c.request key) = some existing ∧ f.result = .ok (c.succeeded existing.output)

/-- The call meets every gate, and no other request has taken its key. -/
structure Admitted (x : ToolExecutor) (s : ToolState) (c : ToolCall) : Prop where
  gates : ∃ registration p, Gates x s c registration p
  unclaimed : ∀ key, c.request.key = some key →
    ¬ Taken s (cacheKey c.request key) (requestDigest x c.request)

/-- The audit sink does not fail, and a stored output that the call is to be answered with
still makes a valid result. Other results may well be invalid. -/
structure Undisturbed (x : ToolExecutor) (s : ToolState) (c : ToolCall)
    (env : Env Question Answer) : Prop where
  appends : ∀ n record, env n (.append record) = .returned
  replay : ReplayValid x c s

section Stages

variable {x : ToolExecutor} {c : ToolCall} {s : ToolState} {env : Env Question Answer}

variable (c s env) in
/-- An append alone: the sink raises, or the call goes on. -/
theorem recording_alone (outcome : String) (next : ToolOp ToolExecutionOutcome) :
    ∃ y : Exchange Question Answer, (∃ record, y.1 = .append record) ∧
      (recording c outcome next).alone env s =
        (if env 0 (.append (auditRecord c.request outcome)) = .returned
          then next.alone (fun n => env (n + 1)) s else ⟨s, .error .audit, []⟩ : Ended).after y := by
  refine ⟨⟨.append (auditRecord c.request outcome), env 0 _⟩, ⟨_, rfl⟩, ?_⟩
  simp only [recording, Yield.alone]
  cases env 0 (.append (auditRecord c.request outcome)) <;> rfl

theorem callsAdapter_after {f : Ended} {y : Exchange Question Answer} :
    CallsAdapter (f.after y) ↔
      (∃ toolId arguments context, y.1 = .execute toolId arguments context) ∨ CallsAdapter f := by
  simp [CallsAdapter]

/-- An append is not a call of the adapter. -/
theorem callsAdapter_recording {outcome : String} {next : ToolOp ToolExecutionOutcome} :
    CallsAdapter ((recording c outcome next).alone env s) ↔
      env 0 (.append (auditRecord c.request outcome)) = .returned ∧
        CallsAdapter (next.alone (fun n => env (n + 1)) s) := by
  rcases recording_alone c s env outcome next with ⟨y, ⟨record, hy⟩, h⟩
  rw [h, callsAdapter_after, hy]
  split <;> simp_all [CallsAdapter]

theorem result_recording {outcome : String} {next : ToolOp ToolExecutionOutcome} :
    ((recording c outcome next).alone env s).result =
      if env 0 (.append (auditRecord c.request outcome)) = .returned
        then (next.alone (fun n => env (n + 1)) s).result else .error .audit := by
  rcases recording_alone c s env outcome next with ⟨y, -, h⟩
  rw [h]
  split <;> rfl

/-- A call that is refused has not called the adapter. -/
theorem closing_not_callsAdapter (refusal : Refusal) :
    ¬ CallsAdapter (((Stage.closing refusal).now x c).alone env s) := by
  rw [Stage.now, callsAdapter_recording]
  rintro ⟨-, y, hy, -⟩
  cases hy

/-- A result with an error is not a stored output. -/
theorem closing_result (refusal : Refusal) (output : Json) :
    (((Stage.closing refusal).now x c).alone env s).result ≠ .ok (c.succeeded output) := by
  rw [Stage.now, result_recording]
  split
  · intro h
    have herror := congrArg (fun outcome => outcome.result.error.isSome) (Except.ok.inj h)
    cases herror
  · intro h
    cases h

theorem running_callsAdapter : CallsAdapter ((Stage.running.now x c).alone env s) :=
  callsAdapter_after.2 (.inl ⟨_, _, _, rfl⟩)

theorem replayed_alone (output : Json) :
    (do audit c.request "IDEMPOTENT_REPLAY"
        pure (c.succeeded output) : ToolOp ToolExecutionOutcome).alone env s =
      ((Stage.replayed output).now x c).alone env s :=
  Proc.alone_eq_yield ..

/-- A replay does not call the adapter. -/
theorem replaying_not_callsAdapter (output : Json) :
    ¬ CallsAdapter (((Stage.replaying output).now x c).alone env s) := by
  rw [Stage.now, callsAdapter_recording, replayed_alone (x := x), Stage.now, callsAdapter_recording]
  rintro ⟨-, -, y, hy, -⟩
  cases hy

theorem replaying_result (output : Json)
    (happends : ∀ n record, env n (.append record) = .returned) :
    (((Stage.replaying output).now x c).alone env s).result = .ok (c.succeeded output) := by
  rw [Stage.now, result_recording, if_pos (happends ..), replayed_alone (x := x), Stage.now,
    result_recording, if_pos (happends ..)]
  rfl

end Stages

/-! ## The decision -/

variable {x : ToolExecutor} {c : ToolCall} {s : ToolState} {env : Env Question Answer}

/-- The decision writes nothing. -/
theorem requested_state {s' : ToolState} {st : Stage} {y : Exchange Question Answer}
    (h : Turn x c s .requested y s' st) : s' = s := by
  cases h <;> rfl

variable (s env) in
/-- A call alone is over when the append of `REQUESTED` raises. Otherwise it
goes on at the stage that the gates and the store decide on. -/
theorem decision (hvalid : x.contractValidator.validateRequest c.request = true) :
    ∃ a y, env 0 (.append (auditRecord c.request "REQUESTED")) = a ∧
      y = ⟨.append (auditRecord c.request "REQUESTED"), a⟩ ∧ ∃ st,
        Turn x c s .requested y s st ∧
        (c.prog x).alone env s = ((st.now x c).alone (fun n => env (n + 1)) s).after y := by
  have hM := staging_follows x
  rcases hM.alone_begins c env s with ⟨s₀, st₀, hbegins, hrun⟩
  have hbegins' : Begins x c s s₀ st₀ := hbegins
  cases hbegins' with
  | invalid h => exact absurd hvalid h
  | valid _ =>
      -- the call waits for its first event, then reads the registry
      have hnow : (staging x).now c .requested = .awaiting
          (.append (auditRecord c.request "REQUESTED")) _ := rfl
      rcases hM.alone_turn hnow env s with ⟨s', st, hturn, halone⟩
      have hs : s' = s := requested_state hturn
      subst hs
      exact ⟨_, _, rfl, rfl, st, hturn, hrun.trans halone⟩

/-- The three ways a call alone can go. -/
inductive Access (x : ToolExecutor) (s : ToolState) (c : ToolCall) (env : Env Question Answer)
    (f : Ended) : Prop where
  | stopped (hcalls : ¬ CallsAdapter f) (hresult : ∀ output, f.result ≠ .ok (c.succeeded output))
      (hwhy : Undisturbed x s c env → ¬ Admitted x s c)
      (hfresh : (∀ record, env 0 (.append record) = .returned) → ¬ Fresh x s c)
  | called (hcalls : CallsAdapter f) (hfresh : Fresh x s c)
  | answered {key : String} {existing : IdempotencyRecord} (hcalls : ¬ CallsAdapter f)
      (hadmitted : Admitted x s c) (hkey : c.request.key = some key)
      (hrecord : s.records (cacheKey c.request key) = some existing)
      (hdigest : existing.requestDigest = requestDigest x c.request)
      (hresult : Undisturbed x s c env → f.result = .ok (c.succeeded existing.output))

theorem not_admitted_of_error {refusal : Refusal} (h : c.verdict x s = .error refusal) :
    ¬ Admitted x s c := by
  intro hadmitted
  rcases hadmitted.gates with ⟨registration, p, hgates⟩
  rw [hgates.verdict] at h
  cases h

/-- What is fresh is admitted. -/
theorem Fresh.admitted (h : Fresh x s c) : Admitted x s c where
  gates := by
    rcases h.verdict with ⟨registration, hverdict⟩
    exact ⟨registration, gates_of_verdict hverdict⟩
  unclaimed := by
    intro key hkey
    simp [Taken, h.unrecorded key hkey]

/-- An admitted call finds nothing stored, or its own record. -/
theorem Admitted.owns (h : Admitted x s c) (hstop : ¬ Fresh x s c) : Owns x c s := by
  rcases h.gates with ⟨registration, p, hgates⟩
  refine ⟨⟨registration, hgates.verdict⟩, ?_⟩
  by_contra hnone
  apply hstop
  refine ⟨⟨registration, hgates.verdict⟩, ?_⟩
  intro key hkey
  cases hrecord : s.records (cacheKey c.request key) with
  | none => rfl
  | some existing =>
      refine absurd ⟨key, existing, hkey, hrecord, ?_⟩ hnone
      have hunclaimed := h.unclaimed key hkey
      simpa [Taken, hrecord] using hunclaimed

/-- What the stage decided on says about the call. -/
theorem access_of_decision {y : Exchange Question Answer} {st : Stage}
    (hy : ∃ record, y = ⟨.append record, env 0 (.append record)⟩)
    (h : Turn x c s .requested y s st) :
    Access x s c env (((st.now x c).alone (fun n => env (n + 1)) s).after y) := by
  -- the audit append is no call of the adapter
  have hcalls : CallsAdapter (((st.now x c).alone (fun n => env (n + 1)) s).after y) ↔
      CallsAdapter ((st.now x c).alone (fun n => env (n + 1)) s) := by
    rcases hy with ⟨record, rfl⟩
    simp [callsAdapter_after]
  have hraised : ∀ e, st = .raised e → (Undisturbed x s c env → ¬ Admitted x s c) →
      ((∀ record, env 0 (.append record) = .returned) → ¬ Fresh x s c) →
      Access x s c env (((st.now x c).alone (fun n => env (n + 1)) s).after y) := by
    rintro e rfl hwhy hfresh
    refine .stopped ?_ (fun output hok => by cases hok) hwhy hfresh
    rw [hcalls]
    rintro ⟨y, hy, -⟩
    cases hy
  have hclosing : ∀ refusal, st = .closing refusal → ¬ Admitted x s c →
      Access x s c env (((st.now x c).alone (fun n => env (n + 1)) s).after y) := by
    rintro refusal rfl hwhy
    refine .stopped (hcalls.not.2 (closing_not_callsAdapter refusal)) ?_ (fun _ => hwhy)
      fun _ hfresh => hwhy hfresh.admitted
    intro output
    rw [Proc.Finished.after_result]
    exact closing_result refusal output
  cases h with
  | unrecorded =>
      rcases hy with ⟨record, hy⟩
      -- the sink has failed, so that somebody disturbs the call
      have hsink : ¬ ∀ record, env 0 (.append record) = .returned := by
        intro happends
        rw [happends] at hy
        cases hy
      exact hraised _ rfl (fun hx => absurd (hx.appends 0) hsink) fun h => absurd h hsink
  | refused hverdict => exact hclosing _ rfl (not_admitted_of_error hverdict)
  | fresh hfresh => exact .called (hcalls.2 running_callsAdapter) hfresh
  | conflict hverdict hkey hrecord hne =>
      refine hclosing _ rfl fun hadmitted => hadmitted.unclaimed _ hkey ?_
      simpa [Taken, hrecord] using hne
  | known hverdict hkey hrecord heq =>
      refine .answered (hcalls.not.2 (replaying_not_callsAdapter _))
        ⟨⟨_, gates_of_verdict hverdict⟩, ?_⟩ hkey hrecord heq ?_
      · intro key hkey'
        rw [hkey] at hkey'
        cases hkey'
        simpa [Taken, hrecord] using heq
      · intro hx
        exact replaying_result (x := x) _ fun n => hx.appends (n + 1)
  | invalidVerdict hresult hstop hreplay =>
      refine hraised _ rfl ?_ fun _ => hstop
      intro hx hadmitted
      apply hreplay hx.replay
      -- the call is admitted and not fresh, so its own record is stored
      exact hadmitted.owns hstop

/-- The call alone goes one of the three ways. -/
theorem access (s : ToolState) (env : Env Question Answer)
    (hvalid : x.contractValidator.validateRequest c.request = true) :
    Access x s c env ((c.prog x).alone env s) := by
  rcases decision s env hvalid with ⟨a, y, rfl, hy, st, hturn, hrun⟩
  rw [hrun]
  exact access_of_decision ⟨_, hy⟩ hturn

/-! ## The result -/

/-- No bypass and no wrongful denial. Whatever fails around it, only an
admitted call gets to the adapter or to a stored output, and to the latter only
without the adapter. When the sink does not fail and a stored output is still valid, every
admitted call gets there: to a stored output exactly when its own record is in the store. -/
theorem executes_iff_admitted (x : ToolExecutor) (s : ToolState) (c : ToolCall)
    (env : Env Question Answer)
    (hvalid : x.contractValidator.validateRequest c.request = true) :
    let f := (c.prog x).alone env s
    (CallsAdapter f ∨ AnswersStored s c f → Admitted x s c) ∧
    (AnswersStored s c f → Recorded x s c ∧ ¬ CallsAdapter f) ∧
    (Undisturbed x s c env →
      (CallsAdapter f ∨ AnswersStored s c f ↔ Admitted x s c) ∧
      (AnswersStored s c f ↔ Admitted x s c ∧ Recorded x s c)) := by
  intro f
  have haccess : Access x s c env f := access s env hvalid
  cases haccess with
  | stopped hcalls hresult hwhy _ =>
      have hstored : ¬ AnswersStored s c f := by
        rintro ⟨key, existing, -, -, hok⟩
        exact hresult _ hok
      simp only [hcalls, hstored, false_or, false_imp_iff, true_and, false_iff, not_and]
      intro hx
      exact ⟨hwhy hx, fun hadmitted => absurd hadmitted (hwhy hx)⟩
  | called hcalls hfresh =>
      have hstored : ¬ AnswersStored s c f := by
        rintro ⟨key, existing, hkey, hrecord, -⟩
        rw [hfresh.unrecorded key hkey] at hrecord
        cases hrecord
      -- a fresh call has no record
      have hrecorded : ¬ Recorded x s c := by
        rintro ⟨key, existing, hkey, hrecord, -⟩
        rw [hfresh.unrecorded key hkey] at hrecord
        cases hrecord
      simp [hcalls, hstored, hfresh.admitted, hrecorded]
  | answered hcalls hadmitted hkey hrecord hdigest hresult =>
      have hrecorded : Recorded x s c := ⟨_, _, hkey, hrecord, hdigest⟩
      have hstored : Undisturbed x s c env → AnswersStored s c f :=
        fun hx => ⟨_, _, hkey, hrecord, hresult hx⟩
      simp only [hcalls, hadmitted, hrecorded, false_or, not_false_eq_true, and_self, imp_true_iff,
        true_and, iff_true]
      exact hstored

/-- The diagnostic call gets to the adapter. -/
theorem executes_iff_admitted_diagnostic :
    CallsAdapter (((diagnosticCall "corr_tool_001" "hello from GENESIS").prog
      diagnosticExecutor).alone (fun _ => diagnosticAnswers) diagnosticState) := by
  have hresult := (executes_iff_admitted diagnosticExecutor diagnosticState
    (diagnosticCall "corr_tool_001" "hello from GENESIS") (fun _ => diagnosticAnswers) rfl).2.2
      ⟨fun _ _ => rfl, fun _ _ _ _ => rfl⟩
  have hadmitted : Admitted diagnosticExecutor diagnosticState
      (diagnosticCall "corr_tool_001" "hello from GENESIS") :=
    ⟨⟨_, _, diagnosticCall_gates rfl rfl (by decide)⟩, fun _ _ h => h⟩
  rcases hresult.1.2 hadmitted with hcalls | ⟨key, existing, -, hrecord, -⟩
  · exact hcalls
  · cases hrecord

end Alos.Tools
