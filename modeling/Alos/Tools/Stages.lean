import Alos.Coop.Staged
import Alos.Tools.Gates

/-! # The stages of an execution

Every place at which `execute` can be suspended or finished, by name, and what
each of its segments can do (`Begins`, `Turn`).

* `staging` is the stage machine of `execute`;
* `staging_follows`: every segment of `execute` is one of its turns.

What is proved of overlapping calls is proved of the turns.
-/

namespace Alos.Tools

open Coop

/-- Where a call stands: it awaits the append of `REQUESTED`, the append that
ends it with an error, the adapter, the append of `SUCCESS` for an output of
the adapter or of the store, or the append of `IDEMPOTENT_REPLAY`; or it is
over. -/
inductive Stage where
  | requested
  | closing (refusal : Refusal)
  | running
  | storing (output : Json)
  | replaying (output : Json)
  | replayed (output : Json)
  | returned (outcome : ToolExecutionOutcome)
  | raised (e : ExecuteError)

section Machine

variable (x : ToolExecutor) (c : ToolCall)

/-- What follows the append of `REQUESTED`. -/
def afterRequested : ToolOp ToolExecutionOutcome := do
  let s ← Proc.get
  match c.verdict x s with
  | .error refusal => finishError x c.request refusal
  | .ok _ =>
    match c.request.key with
    | none => executeAdapter x c.request
    | some key =>
      match s.records (cacheKey c.request key) with
      | some existing =>
        if existing.requestDigest ≠ requestDigest x c.request then
          finishError x c.request idempotencyConflict
        else replay x c.request existing
      | none => executeAndStore x c.request key

/-- What follows the adapter. -/
def afterAdapter : Executed → ToolOp ToolExecutionOutcome
  | .timedOut => finishError x c.request timeoutRefusal
  | .raised => finishError x c.request failedRefusal
  | .returned output => finish x c.request (successResult c.request output)

/-- What follows the outcome of an adapter call. -/
def store (outcome : ToolExecutionOutcome) : ToolOp ToolExecutionOutcome :=
  match c.request.key with
  | none => pure outcome
  | some key =>
    if outcome.result.status = .success then do
      put (cacheKey c.request key)
        ⟨requestDigest x c.request, outcome.result.output.getD .null⟩
      pure outcome
    else pure outcome

/-- The append that a stage awaits. -/
def recording (outcome : String) (next : ToolOp ToolExecutionOutcome) :
    Yield ToolState Question Answer ExecuteError ToolExecutionOutcome :=
  .awaiting (.append (auditRecord c.request outcome)) fun answer => (settle answer).bind fun _ => next

/-- Where a call at a stage stands. -/
def Stage.now : Stage → Yield ToolState Question Answer ExecuteError ToolExecutionOutcome
  | .requested => recording c "REQUESTED" (afterRequested x c)
  | .closing refusal => recording c refusal.status.value (.ret (c.refused refusal))
  | .running =>
      .awaiting (.execute c.request.toolId c.request.arguments c.request.executionContext)
        fun answer => (afterAdapter x c answer).bind (store x c)
  | .storing output => recording c "SUCCESS" (store x c (c.succeeded output))
  | .replaying output => recording c "SUCCESS" do
      audit c.request "IDEMPOTENT_REPLAY"
      pure (c.succeeded output)
  | .replayed output => recording c "IDEMPOTENT_REPLAY" (.ret (c.succeeded output))
  | .returned outcome => .returned outcome
  | .raised e => .raised e

/-- An output that is stored under the key of the call makes a result that the contract
accepts. -/
def ReplayValid (s : ToolState) : Prop :=
  ∀ key existing, c.request.key = some key → s.records (cacheKey c.request key) = some existing →
    x.contractValidator.validateResult (successResult c.request existing.output) = true

/-- The call passes the gates, and what is stored under its key is its own. -/
def Owns (s : ToolState) : Prop :=
  (∃ registration, c.verdict x s = .ok registration) ∧
    ∃ key existing, c.request.key = some key ∧
      s.records (cacheKey c.request key) = some existing ∧
      existing.requestDigest = requestDigest x c.request

/-- What the first segment can do. -/
inductive Begins (s : ToolState) : ToolState → Stage → Prop where
  | invalid (h : ¬ x.contractValidator.validateRequest c.request) :
      Begins s s (.raised .requestInvalid)
  | valid (h : x.contractValidator.validateRequest c.request) : Begins s s .requested

/-- What the later segments can do, one constructor for each way that a stage
can end. -/
inductive Turn (s : ToolState) : Stage → Exchange Question Answer → ToolState → Stage → Prop where
  | unrecorded {st record} : Turn s st ⟨.append record, .raised⟩ s (.raised .audit)
  -- `REQUESTED` is recorded
  | refused {record refusal} (h : c.verdict x s = .error refusal) :
      Turn s .requested ⟨.append record, .returned⟩ s (.closing refusal)
  | fresh {record} (h : Fresh x s c) :
      Turn s .requested ⟨.append record, .returned⟩ s .running
  | conflict {record registration key existing} (h : c.verdict x s = .ok registration)
      (hkey : c.request.key = some key)
      (hrecord : s.records (cacheKey c.request key) = some existing)
      (hne : existing.requestDigest ≠ requestDigest x c.request) :
      Turn s .requested ⟨.append record, .returned⟩ s (.closing idempotencyConflict)
  | known {record registration key existing} (h : c.verdict x s = .ok registration)
      (hkey : c.request.key = some key)
      (hrecord : s.records (cacheKey c.request key) = some existing)
      (heq : existing.requestDigest = requestDigest x c.request) :
      Turn s .requested ⟨.append record, .returned⟩ s (.replaying existing.output)
  | invalidVerdict {record result} (h : ¬ x.contractValidator.validateResult result)
      (hstop : ¬ Fresh x s c) (hreplay : ReplayValid x c s → ¬ Owns x c s) :
      Turn s .requested ⟨.append record, .returned⟩ s (.raised .resultInvalid)
  -- the adapter has answered
  | timedOut {toolId arguments context} :
      Turn s .running ⟨.execute toolId arguments context, .timedOut⟩ s (.closing timeoutRefusal)
  | failed {toolId arguments context} :
      Turn s .running ⟨.execute toolId arguments context, .raised⟩ s (.closing failedRefusal)
  | executed {toolId arguments context output} :
      Turn s .running ⟨.execute toolId arguments context, .returned output⟩ s (.storing output)
  | invalidFailure {toolId arguments context answer result}
      (h : ¬ x.contractValidator.validateResult result)
      (hanswer : ∀ output, answer ≠ Executed.returned output) :
      Turn s .running ⟨.execute toolId arguments context, answer⟩ s (.raised .resultInvalid)
  | invalidSuccess {toolId arguments context output}
      (h : ¬ x.contractValidator.validateResult (successResult c.request output)) :
      Turn s .running ⟨.execute toolId arguments context, .returned output⟩ s
        (.raised .resultInvalid)
  -- the result is recorded
  | closed {record refusal} :
      Turn s (.closing refusal) ⟨.append record, .returned⟩ s (.returned (c.refused refusal))
  | unkeyed {record output} (hkey : c.request.key = none) :
      Turn s (.storing output) ⟨.append record, .returned⟩ s (.returned (c.succeeded output))
  | stored {record output key} (hkey : c.request.key = some key)
      (h : ¬ Taken s (cacheKey c.request key) (requestDigest x c.request)) :
      Turn s (.storing output) ⟨.append record, .returned⟩
        (s.setRecord (cacheKey c.request key) ⟨requestDigest x c.request, output⟩)
        (.returned (c.succeeded output))
  | taken {record output key} (hkey : c.request.key = some key)
      (h : Taken s (cacheKey c.request key) (requestDigest x c.request)) :
      Turn s (.storing output) ⟨.append record, .returned⟩ s (.raised .keyTaken)
  | recorded {record output} :
      Turn s (.replaying output) ⟨.append record, .returned⟩ s (.replayed output)
  | replayed {record output} :
      Turn s (.replayed output) ⟨.append record, .returned⟩ s (.returned (c.succeeded output))

end Machine

/-- The stage machine of `execute`. -/
def staging (x : ToolExecutor) :
    Staging ToolCall ToolState Question Answer ExecuteError ToolExecutionOutcome Stage where
  now := fun c st => st.now x c
  Begins := fun c s s' st => Begins x c s s' st
  Turn := fun c s st y s' st' => Turn x c s st y s' st'

abbrev ToolLabel := Label ToolCall Question Answer ExecuteError ToolExecutionOutcome

abbrev ToolSys := Sys ToolCall ToolState Question Answer ExecuteError ToolExecutionOutcome

abbrev ToolWorld := World ToolCall ToolState Question Answer ExecuteError ToolExecutionOutcome

/-! ## Every segment is a turn -/

section Segments

variable {x : ToolExecutor} {c : ToolCall} {s : ToolState}

/-- A call audits its request once it is valid, and then goes on by what the registry has. -/
theorem prog_eq (x : ToolExecutor) (c : ToolCall) :
    c.prog x = (Proc.raiseIf (¬ x.contractValidator.validateRequest c.request)
      .requestInvalid).bind fun _ => (audit c.request "REQUESTED").bind fun _ => afterRequested x c :=
  rfl

/-- The adapter is asked once, and the answer is dealt with afterwards. -/
theorem executeAdapter_eq (x : ToolExecutor) (c : ToolCall) :
    executeAdapter x c.request =
      .await (.execute c.request.toolId c.request.arguments c.request.executionContext)
        (afterAdapter x c) := by
  simp only [executeAdapter, Proc.bind_def, Proc.ask_bind]
  congr 1
  funext answer
  cases answer <;> rfl

/-- Under a key the output is stored after the adapter. -/
theorem executeAndStore_eq {key : String} (hkey : c.request.key = some key) :
    executeAndStore x c.request key = (executeAdapter x c.request).bind (store x c) := by
  simp only [executeAndStore, Proc.bind_def]
  congr 1
  funext outcome
  simp [store, hkey]

/-- Without a key there is nothing to store. -/
theorem executeAdapter_unkeyed (hkey : c.request.key = none) :
    executeAdapter x c.request = (executeAdapter x c.request).bind (store x c) := by
  have hstore : store x c = .ret := by
    funext outcome
    simp [store, hkey]
  rw [hstore, Proc.bind_ret]

/-- A result is validated, and its append awaited. -/
theorem finish_advance (result : ToolResult)
    (next : ToolExecutionOutcome → ToolOp ToolExecutionOutcome) :
    ((finish x c.request result).bind next).advance s =
      if x.contractValidator.validateResult result then
        (s, recording c result.status.value (next (c.outcome result)))
      else (s, .raised .resultInvalid) := by
  simp only [finish, Proc.bind_def, Proc.bind_assoc, Proc.advance_raiseIf_bind, ite_not, audit,
    Proc.ask_bind, Proc.bind]
  rfl

/-- A refusal is audited if its result is valid, and raises if not. -/
theorem finishError_advance (refusal : Refusal) :
    (finishError x c.request refusal).advance s =
      if x.contractValidator.validateResult (errorResult c.request refusal) then
        (s, (Stage.closing refusal).now x c)
      else (s, .raised .resultInvalid) := by
  have h := finish_advance (x := x) (c := c) (s := s) (errorResult c.request refusal) .ret
  rw [Proc.bind_ret] at h
  exact h

/-- An error of the adapter is not stored. -/
theorem finishError_store_advance (refusal : Refusal) (hstatus : refusal.status ≠ .success) :
    ((finishError x c.request refusal).bind (store x c)).advance s =
      if x.contractValidator.validateResult (errorResult c.request refusal) then
        (s, (Stage.closing refusal).now x c)
      else (s, .raised .resultInvalid) := by
  have hstore : store x c (c.refused refusal) = .ret (c.refused refusal) := by
    have hresult : (c.refused refusal).result.status ≠ .success := hstatus
    cases hkey : c.request.key <;> simp [store, hkey, hresult]
  have h := finish_advance (x := x) (c := c) (s := s) (errorResult c.request refusal) (store x c)
  exact h.trans (by rw [← ToolCall.refused, hstore]; rfl)

/-- A stored output is audited as a replay if its result is valid. -/
theorem replay_advance (existing : IdempotencyRecord) :
    (replay x c.request existing).advance s =
      if x.contractValidator.validateResult (successResult c.request existing.output) then
        (s, (Stage.replaying existing.output).now x c)
      else (s, .raised .resultInvalid) :=
  finish_advance _ _

/-- An output of the adapter is audited as a success if its result is valid. -/
theorem success_advance (output : Json) :
    ((afterAdapter x c (.returned output)).bind (store x c)).advance s =
      if x.contractValidator.validateResult (successResult c.request output) then
        (s, (Stage.storing output).now x c)
      else (s, .raised .resultInvalid) :=
  finish_advance _ _

/-- The store takes a record unless one with another digest stands under the key. -/
theorem put_advance (key : CacheKey) (record : IdempotencyRecord)
    (next : ToolOp ToolExecutionOutcome) :
    ((put key record).bind fun _ => next).advance s =
      if Taken s key record.requestDigest then (s, .raised .keyTaken)
      else next.advance (s.setRecord key record) := by
  simp only [put, Proc.bind_def, Proc.get_bind, Proc.bind, Proc.advance_read, Proc.bind_assoc,
    Proc.advance_raiseIf_bind, Proc.modify_bind, Proc.advance_write]

/-- Every way in which a call can start is one of the cases of `Begins`. -/
theorem prog_begins (x : ToolExecutor) (c : ToolCall) (s : ToolState) :
    ∃ s' st, Begins x c s s' st ∧ (c.prog x).advance s = (s', st.now x c) := by
  rw [prog_eq, Proc.advance_raiseIf_bind]
  by_cases hvalid : x.contractValidator.validateRequest c.request = true
  · refine ⟨s, .requested, .valid hvalid, ?_⟩
    simp only [hvalid, not_true_eq_false, if_false]
    rfl
  · refine ⟨s, .raised .requestInvalid, .invalid hvalid, ?_⟩
    simp only [hvalid]
    rfl

/-- What follows an append: the sink raised, or the stage goes on. -/
theorem recording_turns {st : Stage} {outcome : String} {next : ToolOp ToolExecutionOutcome}
    (hst : st.now x c = recording c outcome next)
    (hnext : ∃ s' st', Turn x c s st ⟨.append (auditRecord c.request outcome), .returned⟩ s' st' ∧
      next.advance s = (s', st'.now x c)) {q : Question}
    {k : Answer q → ToolOp ToolExecutionOutcome} (h : st.now x c = .awaiting q k) (a : Answer q) :
    ∃ s' st', Turn x c s st ⟨q, a⟩ s' st' ∧ (k a).advance s = (s', st'.now x c) := by
  rw [hst, recording] at h
  cases h
  cases a with
  | returned => exact hnext
  | raised => exact ⟨s, .raised .audit, .unrecorded, rfl⟩

/-- A result is validated before its append is awaited. -/
theorem finish_turns {st st' : Stage} {y : Exchange Question Answer} {result : ToolResult}
    {p : ToolOp ToolExecutionOutcome}
    (hp : p.advance s = if x.contractValidator.validateResult result then (s, st'.now x c)
      else (s, .raised .resultInvalid))
    (hvalid : Turn x c s st y s st')
    (hinvalid : ¬ x.contractValidator.validateResult result →
      Turn x c s st y s (.raised .resultInvalid)) :
    ∃ s' st', Turn x c s st y s' st' ∧ p.advance s = (s', st'.now x c) := by
  rw [hp]
  by_cases hresult : x.contractValidator.validateResult result = true
  · exact ⟨s, st', hvalid, by rw [if_pos hresult]⟩
  · exact ⟨s, .raised .resultInvalid, hinvalid hresult, by rw [if_neg hresult]; rfl⟩

/-- The verdict, then the lookup in the store. -/
theorem afterRequested_turns (record : ToolAuditRecord) :
    ∃ s' st', Turn x c s .requested ⟨.append record, .returned⟩ s' st' ∧
      (afterRequested x c).advance s = (s', st'.now x c) := by
  simp only [afterRequested, Proc.bind_def, Proc.get_bind, Proc.advance_read]
  cases hverdict : c.verdict x s with
  | error refusal =>
      have hstop : ¬ Fresh x s c := by
        rintro ⟨⟨registration, h⟩, -⟩
        rw [hverdict] at h
        cases h
      have hreplay : ReplayValid x c s → ¬ Owns x c s := by
        rintro - ⟨⟨registration, h⟩, -⟩
        rw [hverdict] at h
        cases h
      exact finish_turns (finishError_advance refusal) (.refused hverdict)
        fun h => .invalidVerdict h hstop hreplay
  | ok registration =>
      cases hkey : c.request.key with
      | none =>
          refine ⟨s, .running, .fresh ⟨⟨_, hverdict⟩, by simp [hkey]⟩, ?_⟩
          simp only
          rw [executeAdapter_unkeyed hkey, executeAdapter_eq]
          rfl
      | some key =>
          cases hrecord : s.records (cacheKey c.request key) with
          | none =>
              refine ⟨s, .running, .fresh ⟨⟨_, hverdict⟩, by simpa [hkey] using hrecord⟩, ?_⟩
              simp only [hrecord]
              rw [executeAndStore_eq hkey, executeAdapter_eq]
              rfl
          | some existing =>
              have hstop : ¬ Fresh x s c := by
                intro h
                rw [h.unrecorded key hkey] at hrecord
                cases hrecord
              simp only [hrecord]
              by_cases hdigest : existing.requestDigest = requestDigest x c.request
              · -- the record of this request
                rw [if_neg (not_not.2 hdigest)]
                exact finish_turns (replay_advance existing) (.known hverdict hkey hrecord hdigest)
                  fun h => .invalidVerdict h hstop fun hvalid _ => h (hvalid key existing hkey hrecord)
              · rw [if_pos hdigest]
                have hreplay : ReplayValid x c s → ¬ Owns x c s := by
                  rintro - ⟨-, key', existing', hkey', hrecord', hdigest'⟩
                  rw [hkey] at hkey'
                  cases hkey'
                  rw [hrecord] at hrecord'
                  cases hrecord'
                  exact hdigest hdigest'
                exact finish_turns (finishError_advance _) (.conflict hverdict hkey hrecord hdigest)
                  fun h => .invalidVerdict h hstop hreplay

/-- What follows the adapter's answer. -/
theorem afterAdapter_turns (toolId : String) (arguments : Json.Fields)
    (context : ExecutionContext) (a : Executed) :
    ∃ s' st', Turn x c s .running ⟨.execute toolId arguments context, a⟩ s' st' ∧
      ((afterAdapter x c a).bind (store x c)).advance s = (s', st'.now x c) := by
  cases a with
  | timedOut =>
      exact finish_turns (finishError_store_advance timeoutRefusal (by decide)) .timedOut
        fun h => .invalidFailure h (by simp)
  | raised =>
      exact finish_turns (finishError_store_advance failedRefusal (by decide)) .failed
        fun h => .invalidFailure h (by simp)
  | returned output => exact finish_turns (success_advance output) .executed .invalidSuccess

/-- What follows the append of `SUCCESS`. -/
theorem store_turns (record : ToolAuditRecord) (output : Json) :
    ∃ s' st', Turn x c s (.storing output) ⟨.append record, .returned⟩ s' st' ∧
      (store x c (c.succeeded output)).advance s = (s', st'.now x c) := by
  cases hkey : c.request.key with
  | none =>
      refine ⟨s, .returned (c.succeeded output), .unkeyed hkey, ?_⟩
      simp [store, hkey, Stage.now]
  | some key =>
      have hstore : store x c (c.succeeded output) =
          (put (cacheKey c.request key) ⟨requestDigest x c.request, output⟩).bind
            fun _ => .ret (c.succeeded output) := by
        simp only [store, hkey]
        rfl
      rw [hstore, put_advance]
      -- `put` compares digests when the key is taken
      by_cases htaken : Taken s (cacheKey c.request key) (requestDigest x c.request)
      · exact ⟨s, .raised .keyTaken, .taken hkey htaken, if_pos htaken⟩
      · exact ⟨_, .returned (c.succeeded output), .stored hkey htaken, if_neg htaken⟩

/-- Every segment of `execute` is a turn. -/
theorem staging_follows (x : ToolExecutor) : (staging x).Follows (ToolCall.prog x) where
  begins := prog_begins x
  turns := by
    intro c st q k h a s
    cases st with
    | requested => exact recording_turns rfl (afterRequested_turns _) h a
    | closing refusal => exact recording_turns rfl ⟨s, _, .closed, rfl⟩ h a
    | running =>
        cases h
        exact afterAdapter_turns _ _ _ a
    | storing output => exact recording_turns rfl (store_turns _ output) h a
    | replaying output => exact recording_turns rfl ⟨s, _, .recorded, rfl⟩ h a
    | replayed output => exact recording_turns rfl ⟨s, _, .replayed, rfl⟩ h a
    | returned outcome => cases h
    | raised e => cases h

end Segments

/-! ## What the calls do to the store -/

/-- Nothing is removed from the store, and no record changes its digest. -/
structure Extends (s s' : ToolState) : Prop where
  registry : s'.registry = s.registry
  records : ∀ key record, s.records key = some record →
    ∃ record', s'.records key = some record' ∧ record'.requestDigest = record.requestDigest

section Store

variable {x : ToolExecutor} {c : ToolCall} {s s' s'' : ToolState}

theorem Extends.refl (s : ToolState) : Extends s s :=
  ⟨rfl, fun _ record h => ⟨record, h, rfl⟩⟩

theorem Extends.trans (h : Extends s s') (h' : Extends s' s'') : Extends s s'' where
  registry := h'.registry.trans h.registry
  records := by
    intro key record hrecord
    rcases h.records key record hrecord with ⟨record', hrecord', hdigest⟩
    rcases h'.records key record' hrecord' with ⟨record'', hrecord'', hdigest'⟩
    exact ⟨record'', hrecord'', hdigest'.trans hdigest⟩

/-- A record is overwritten by one with its digest only. -/
theorem extends_setRecord {key : CacheKey} {digest : String} (h : ¬ Taken s key digest)
    (output : Json) : Extends s (s.setRecord key ⟨digest, output⟩) where
  registry := rfl
  records := by
    intro key' record hrecord
    by_cases hkey : key' = key
    · subst hkey
      refine ⟨⟨digest, output⟩, Function.update_self .., ?_⟩
      simp only [Taken, hrecord, ne_eq, not_not] at h
      exact h.symm
    · exact ⟨record, (Function.update_of_ne hkey ..).trans hrecord, rfl⟩

/-- The start of a call changes nothing. -/
theorem Begins.state {st : Stage} (h : Begins x c s s' st) : s' = s := by
  cases h <;> rfl

/-- A segment adds records and changes none. -/
theorem Turn.extends {st st' : Stage} {y : Exchange Question Answer}
    (h : Turn x c s st y s' st') : Extends s s' := by
  cases h with
  | stored _ hfree => exact extends_setRecord hfree _
  | _ => exact Extends.refl s

/-- No run removes a record or changes its digest. -/
theorem run_extends {t : ToolSys} {pool : Pool ToolCall Stage}
    (hpool : (staging x).Describes t pool) (xs : List (Step ToolCall Question Answer)) :
    Extends t.shared (run (ToolCall.prog x) t xs).shared := by
  have hkeeps : (staging x).Keeps (fun _ _ => True) (fun w _ => Extends t.shared w.shared) := by
    refine ⟨?_, ?_⟩
    · rintro u pool i c s' st - h - - hbegins
      rw [World.push_shared, Begins.state hbegins]
      exact h
    · rintro u pool i reply c st q k a s' st' - h - - - - hturn
      exact h.trans (Turn.extends hturn)
  rcases hkeeps.run_inv (staging_follows x) ⟨pool, hpool, Extends.refl _⟩ xs fun _ _ _ _ => trivial
    with ⟨-, -, h⟩
  exact h

end Store

end Alos.Tools
