import Alos.Tools.Once

/-! # What a call ends with, and what is audited of it

Overlapping calls of any requests, when neither the audit sink nor the
validation fails. Every call should end with a canonical result, and its audit
trail should tell that result. The `put` of the store is the one place where a
call can still raise, and there its success has been audited already.

* `CallInv` says for each stage what has been audited;
* `canonical_iff`: the runs in which all is well are the runs in which no
  success is recorded while another request has taken its key.
-/

namespace Alos.Tools

open Coop

/-- The outcome that the segment starts from having recorded. -/
def recordedOutcome (l : ToolLabel) : Option String :=
  match l.input with
  | .answer ⟨.append record, .returned⟩ => some record.outcome
  | _ => none

/-- The audit trail of call `i`. -/
def audited (i : ℕ) (trace : List ToolLabel) : List String :=
  (own i trace).filterMap recordedOutcome

/-- Call `i` is well: it has not raised, it has returned once it has had three
answers, and when it returns its audit trail says `SUCCESS` exactly when its
result does. -/
structure Canonical (i : ℕ) (trace : List ToolLabel)
    (th : Thread ToolCall ToolState Question Answer ExecuteError ToolExecutionOutcome) : Prop where
  not_raised : ∀ e, th.now ≠ .raised e
  returns : 4 ≤ (own i trace).length → ∃ outcome, th.now = .returned outcome
  audit : ∀ outcome, th.now = .returned outcome →
    ("SUCCESS" ∈ audited i trace ↔ outcome.result.status = .success)

/-- Every call is well. -/
def AllCanonical (t : ToolSys) : Prop :=
  ∀ i th, t.threads i = some th → Canonical i t.trace th

/-- The steps considered: valid requests, and a sink that never fails. -/
def Served (x : ToolExecutor) (step : Step ToolCall Question Answer) : Prop :=
  match step with
  | .call _ c => x.contractValidator.validateRequest c.request = true
  | .resume _ reply => ∀ record, reply (.append record) = .returned

/-- When a success has been recorded, no other request has taken its key. -/
def Unclaimed (x : ToolExecutor) (t : ToolSys) (step : Step ToolCall Question Answer) : Prop :=
  ∀ i reply c record k key, step = .resume i reply →
    t.threads i = some ⟨c, .awaiting (.append record) k⟩ → record.outcome = "SUCCESS" →
    c.request.key = some key → ¬ Taken t.shared (cacheKey c.request key) (requestDigest x c.request)

/-! ## The invariant -/

/-- What has been audited of a call at the stage. -/
def Stage.Audited : Stage → List String → Prop
  | .requested, trail => trail = []
  | .closing refusal, trail => refusal.status ≠ .success ∧ trail = ["REQUESTED"]
  | .running, trail | .storing _, trail | .replaying _, trail => trail = ["REQUESTED"]
  | .replayed _, trail => trail = ["REQUESTED", "SUCCESS"]
  | .returned outcome, trail => trail = ["REQUESTED", outcome.result.status.value] ∨
      outcome.result.status = .success ∧ trail = ["REQUESTED", "SUCCESS", "IDEMPOTENT_REPLAY"]
  | .raised _, _ => False

/-- How many segments have led a call to the stage. -/
def Stage.Segments : Stage → ℕ → Prop
  | .requested, n => n = 1
  | .running, n | .replaying _, n => n = 2
  | .closing _, n | .storing _, n | .replayed _, n => n ≤ 3
  | .returned _, _ => True
  | .raised _, _ => False

/-- The invariant of one call. -/
structure CallInv (x : ToolExecutor) (w : ToolWorld) (i : ℕ) (c : ToolCall) (st : Stage) :
    Prop where
  audited : st.Audited (audited i w.trace)
  segments : st.Segments (own i w.trace).length
  recorded : ∀ output, st = .replaying output → Recorded x w.shared c

/-- The invariant of all calls. -/
structure OutcomeInv (x : ToolExecutor) (w : ToolWorld) (pool : Pool ToolCall Stage) : Prop where
  calls : ∀ i c st, pool i = some (c, st) → CallInv x w i c st
  fresh : ∀ i, pool i = none → own i w.trace = []

section Frame

variable {x : ToolExecutor} {w : ToolWorld} {s' : ToolState} {l : ToolLabel} {i : ℕ}

theorem audited_push : audited l.thread (w.push s' l).trace =
    audited l.thread w.trace ++ (recordedOutcome l).toList := by
  rw [audited, World.push_trace, own_append_self, List.filterMap_append]
  cases h : recordedOutcome l <;> simp [audited, h]

theorem segments_push :
    (own l.thread (w.push s' l).trace).length = (own l.thread w.trace).length + 1 := by
  rw [World.push_trace, own_append_self]
  simp

theorem Recorded.extends {s : ToolState} {c : ToolCall} (h : Recorded x s c)
    (hs : Extends s s') : Recorded x s' c := by
  rcases h with ⟨key, existing, hkey, hrecord, hdigest⟩
  rcases hs.records _ _ hrecord with ⟨record', hrecord', hdigest'⟩
  exact ⟨key, record', hkey, hrecord', hdigest'.trans hdigest⟩

/-- What other calls do leaves the invariant of a call alone. -/
theorem CallInv.frame {c : ToolCall} {st : Stage} (h : CallInv x w i c st)
    (hs : Extends w.shared s') (hl : l.thread ≠ i) : CallInv x (w.push s' l) i c st := by
  have hown : own i (w.push s' l).trace = own i w.trace := own_append_ne _ hl
  refine ⟨?_, ?_, ?_⟩
  · rw [Tools.audited, hown]
    exact h.audited
  · rw [hown]
    exact h.segments
  · intro output hst
    exact (h.recorded output hst).extends hs

/-- One segment: the call it belongs to has to be looked at, and no other. -/
theorem OutcomeInv.push {pool : Pool ToolCall Stage} (h : OutcomeInv x w pool) {c : ToolCall}
    {st : Stage} (hs : Extends w.shared s') (hl : l.thread = i)
    (haudited : st.Audited (audited i w.trace ++ (recordedOutcome l).toList))
    (hsegments : st.Segments ((own i w.trace).length + 1))
    (hrecorded : ∀ output, st = .replaying output → Recorded x s' c) :
    OutcomeInv x (w.push s' l) (pool.put i c st) := by
  subst hl
  refine ⟨?_, ?_⟩
  · intro j d u hj
    rcases Pool.put_eq_some.1 hj with ⟨rfl, rfl, rfl⟩ | ⟨hne, hj⟩
    · refine ⟨?_, ?_, hrecorded⟩
      · rwa [audited_push]
      · rwa [segments_push]
    · exact (h.calls j d u hj).frame hs (Ne.symm hne)
  · intro j hj
    -- the call of the segment has a stage from now on
    by_cases hji : j = l.thread
    · subst hji
      simp at hj
    · rw [Pool.put_of_ne _ hji] at hj
      exact (own_append_ne _ (Ne.symm hji)).trans (h.fresh j hj)

end Frame

/-- The steps of the runs in which all is well. -/
structure OutcomeStep (x : ToolExecutor) (t : ToolSys) (step : Step ToolCall Question Answer) :
    Prop where
  served : Served x step
  unclaimed : Unclaimed x t step

section Keeps

variable {x : ToolExecutor} {t : ToolSys} {pool : Pool ToolCall Stage} {i : ℕ} {c : ToolCall}

theorem OutcomeInv.start (h : OutcomeInv x t.toWorld pool) (hi : pool i = none) {s' : ToolState}
    {st : Stage} (hvalid : x.contractValidator.validateRequest c.request = true)
    (hbegins : Begins x c t.shared s' st) :
    OutcomeInv x (t.toWorld.push s' ((staging x).label i c .start st)) (pool.put i c st) := by
  have hown := h.fresh i hi
  cases hbegins with
  | invalid hinvalid => exact absurd hvalid hinvalid
  | valid =>
      refine h.push (Extends.refl _) rfl ?_ ?_ fun output hst => by cases hst
      · rw [audited, hown]
        rfl
      · rw [hown]
        rfl

/-- A turn that nothing disturbs adds to the audit trail what its stage says. -/
theorem Turn.audited {s s' : ToolState} {st st' : Stage} {q : Question} {a : Answer q}
    {k : Answer q → ToolOp ToolExecutionOutcome} (hturn : Turn x c s st ⟨q, a⟩ s' st')
    (hnow : st.now x c = .awaiting q k) (hraised : ∀ e, st' ≠ .raised e) {trail : List String} (htrail : st.Audited trail)
    {l : ToolLabel} (hl : l.input = .answer ⟨q, a⟩) :
    st'.Audited (trail ++ (recordedOutcome l).toList) := by
  simp only [recordedOutcome, hl]
  cases hturn with
  | unrecorded => exact absurd rfl (hraised _)
  | refused hverdict =>
      cases hnow
      obtain rfl : trail = [] := htrail
      refine ⟨?_, rfl⟩
      -- a refusal is told as DENIED or as a conflict
      rcases verdict_error_status hverdict with h | h <;> simp [h]
  | fresh =>
      cases hnow
      obtain rfl : trail = [] := htrail
      rfl
  | conflict =>
      cases hnow
      obtain rfl : trail = [] := htrail
      exact ⟨by decide, rfl⟩
  | known =>
      cases hnow
      obtain rfl : trail = [] := htrail
      rfl
  | invalidVerdict => exact absurd rfl (hraised _)
  | timedOut =>
      obtain rfl : trail = ["REQUESTED"] := htrail
      exact ⟨by decide, rfl⟩
  | failed =>
      obtain rfl : trail = ["REQUESTED"] := htrail
      exact ⟨by decide, rfl⟩
  | executed =>
      obtain rfl : trail = ["REQUESTED"] := htrail
      rfl
  | invalidFailure => exact absurd rfl (hraised _)
  | invalidSuccess => exact absurd rfl (hraised _)
  | closed =>
      cases hnow
      obtain ⟨-, rfl⟩ := htrail
      exact .inl rfl
  | unkeyed =>
      cases hnow
      obtain rfl : trail = ["REQUESTED"] := htrail
      exact .inl rfl
  | stored =>
      cases hnow
      obtain rfl : trail = ["REQUESTED"] := htrail
      exact .inl rfl
  | taken => exact absurd rfl (hraised _)
  | recorded =>
      cases hnow
      obtain rfl : trail = ["REQUESTED"] := htrail
      rfl
  | replayed =>
      cases hnow
      obtain rfl : trail = ["REQUESTED", "SUCCESS"] := htrail
      exact .inr ⟨rfl, rfl⟩

/-- A call that has not raised is at most three segments from its end. -/
theorem Turn.segments {s s' : ToolState} {st st' : Stage} {y : Exchange Question Answer}
    (hturn : Turn x c s st y s' st') (hraised : ∀ e, st' ≠ .raised e) {n : ℕ}
    (hn : st.Segments n) : st'.Segments (n + 1) := by
  cases hturn with
  | unrecorded => exact absurd rfl (hraised _)
  | invalidVerdict => exact absurd rfl (hraised _)
  | invalidFailure => exact absurd rfl (hraised _)
  | invalidSuccess => exact absurd rfl (hraised _)
  | taken => exact absurd rfl (hraised _)
  | _ => simp only [Stage.Segments] at hn ⊢ <;> omega

theorem Turn.replays {s s' : ToolState} {st st' : Stage} {y : Exchange Question Answer}
    (hturn : Turn x c s st y s' st') {output : Json} (hst : st' = .replaying output) :
    Recorded x s' c := by
  subst hst
  cases hturn with
  | known _ hkey hrecord hdigest => exact ⟨_, _, hkey, hrecord, hdigest⟩

/-- Where a turn can raise when the collaborators do not fail: in the `put`. -/
theorem Turn.keyTaken {s s' : ToolState} {st : Stage} {q : Question} {a : Answer q} {e : ExecuteError}
    (hturn : Turn x c s st ⟨q, a⟩ s' (.raised e))
    (happends : ∀ record, q = .append record → HEq a Appended.returned)
    (hresults : ∀ result, x.contractValidator.validateResult result = true) :
    ∃ output key, st = .storing output ∧ c.request.key = some key ∧
      Taken s (cacheKey c.request key) (requestDigest x c.request) := by
  cases hturn with
  | unrecorded => cases happends _ rfl
  | invalidVerdict h => exact absurd (hresults _) h
  | invalidFailure h => exact absurd (hresults _) h
  | invalidSuccess h => exact absurd (hresults _) h
  | taken hkey htaken => exact ⟨_, _, rfl, hkey, htaken⟩

/-- Every later segment keeps the invariant. -/
theorem OutcomeInv.turn (h : OutcomeInv x t.toWorld pool)
    (hpool : (staging x).Describes t pool)
    (hresults : ∀ result, x.contractValidator.validateResult result = true)
    {reply : (q : Question) → Answer q} (hstep : OutcomeStep x t (.resume i reply))
    {st st' : Stage} {q : Question} {k : Answer q → ToolOp ToolExecutionOutcome} {a : Answer q}
    {s' : ToolState} (hi : pool i = some (c, st)) (hnow : st.now x c = .awaiting q k)
    (ha : reply q = a) (hturn : Turn x c t.shared st ⟨q, a⟩ s' st') :
    OutcomeInv x (t.toWorld.push s' ((staging x).label i c (.answer ⟨q, a⟩) st'))
      (pool.put i c st') := by
  have hold := h.calls i c st hi
  have hthread : t.threads i = some ⟨c, .awaiting q k⟩ := by
    rw [← hnow]
    exact hpool.thread_some hi
  have hraised : ∀ e, st' ≠ .raised e := by
    rintro e rfl
    have happends : ∀ record, q = .append record → HEq a Appended.returned := by
      rintro record rfl
      rw [← ha, hstep.served record]
    -- a call raises at a taken key only, which the condition shuts out
    rcases hturn.keyTaken happends hresults with ⟨output, key, rfl, hkey, htaken⟩
    cases hnow
    exact hstep.unclaimed i reply c _ _ key rfl hthread rfl hkey htaken
  exact h.push hturn.extends rfl (hturn.audited hnow hraised hold.audited rfl)
    (hturn.segments hraised hold.segments) fun output hst => hturn.replays hst

theorem outcomeInv_keeps (hresults : ∀ result, x.contractValidator.validateResult result = true) :
    (staging x).Keeps (OutcomeStep x) (OutcomeInv x) where
  start := by
    rintro t pool i c s' st - h hstep hi hbegins
    exact h.start hi hstep.served hbegins
  turn := by
    rintro t pool i reply c st q k a s' st' hpool h hstep hi hnow ha hturn
    exact h.turn hpool hresults hstep hi hnow ha hturn

end Keeps

/-! ## The result -/

section Result

variable {x : ToolExecutor} {s : ToolState} {t : ToolSys} {xs : List (Step ToolCall Question Answer)}

theorem value_eq_success {status : ToolStatus} : status.value = "SUCCESS" ↔ status = .success := by
  cases status <;> decide

theorem CallInv.canonical {w : ToolWorld} {i : ℕ} {c : ToolCall} {st : Stage}
    (h : CallInv x w i c st) : Canonical i w.trace ⟨c, st.now x c⟩ := by
  have htrail := h.audited
  have hsegments := h.segments
  refine ⟨?_, ?_, ?_⟩
  · intro e he
    -- what a call has audited follows its stage: a success once it is stored or replayed
    cases st with
    | raised e' => exact htrail
    | _ => cases he
  · intro hlength
    cases st with
    | returned outcome => exact ⟨outcome, rfl⟩
    | raised e => exact absurd htrail id
    | _ =>
        simp only [Stage.Segments] at hsegments
        omega
  · intro outcome ho
    cases st with
    | returned outcome' =>
        cases ho
        rcases htrail with htrail | ⟨hstatus, htrail⟩
        · rw [htrail, ← value_eq_success]
          simp [eq_comm]
        · simp [htrail, hstatus]
    | _ => cases ho

theorem outcomeInv_run (hresults : ∀ result, x.contractValidator.validateResult result = true)
    (hserved : ∀ step ∈ xs, Served x step)
    (hunclaimed : Along (ToolCall.prog x) (Unclaimed x) (init s) xs) :
    (staging x).Staged (OutcomeInv x) (run (ToolCall.prog x) (init s) xs) := by
  have hsteps : Along (ToolCall.prog x) (OutcomeStep x) (init s) xs := by
    intro pre step post hxs
    exact ⟨hserved step (by simp [hxs]), hunclaimed pre step post hxs⟩
  apply (outcomeInv_keeps hresults).run_inv (staging_follows x) _ xs hsteps
  refine ⟨fun _ => none, Staging.describes_init s, ?_⟩
  exact ⟨fun i c st h => (by cases h), fun i _ => rfl⟩

theorem allCanonical_of_staged (h : (staging x).Staged (OutcomeInv x) t) : AllCanonical t := by
  rcases h with ⟨pool, hpool, hinv⟩
  rintro i ⟨c, y⟩ hi
  rcases hpool.stage hi with ⟨st, hst, hnow⟩
  simp only at hst hnow
  subst hnow
  exact (hinv.calls i c st hst).canonical

/-- A success that is recorded while its key is taken makes its call raise. -/
theorem raised_of_taken {i : ℕ} {c : ToolCall} {output : Json} {key : String}
    {reply : (q : Question) → Answer q} {pool : Pool ToolCall Stage}
    (hpool : (staging x).Describes t pool) (hi : pool i = some (c, .storing output))
    (happends : ∀ record, reply (.append record) = .returned) (hkey : c.request.key = some key)
    (htaken : Taken t.shared (cacheKey c.request key) (requestDigest x c.request)) :
    (next (ToolCall.prog x) t (.resume i reply)).threads i = some ⟨c, .raised .keyTaken⟩ := by
  have hnow : (Stage.storing output).now x c = .awaiting (.append (auditRecord c.request "SUCCESS"))
      _ := rfl
  have hthread := hpool.thread_some hi
  rcases (staging_follows x).turns c (.storing output) _ _ hnow .returned t.shared with
    ⟨s', st', hturn, hadvance⟩
  rw [next_resume hthread, happends, hadvance]
  have hturn' : Turn x c t.shared (.storing output) _ s' st' := hturn
  -- `put` finds the other digest after the success was recorded
  cases hturn' with
  | unkeyed hkey' =>
      rw [hkey] at hkey'
      cases hkey'
  | stored hkey' hfree =>
      rw [hkey] at hkey'
      cases hkey'
      exact absurd htaken hfree
  | taken => rfl

/-- In a run that is well so far, all is well after a step only if it meets the
condition. -/
theorem unclaimed_of_canonical (h : (staging x).Staged (OutcomeInv x) t)
    {step : Step ToolCall Question Answer} (hserved : Served x step)
    (hnext : AllCanonical (next (ToolCall.prog x) t step)) : Unclaimed x t step := by
  rcases h with ⟨pool, hpool, hinv⟩
  rintro i reply c record k key rfl hthread houtcome hkey htaken
  rcases hpool.stage hthread with ⟨st, hst, hnow⟩
  have hcall := hinv.calls i c st hst
  simp only at hst hnow
  cases st with
  | requested =>
      cases hnow
      simp [auditRecord] at houtcome
  | closing refusal =>
      cases hnow
      exact hcall.audited.1 (value_eq_success.1 houtcome)
  | running => cases hnow
  | storing output =>
      -- the key is taken when the output is stored: the call raises
      have hraised := raised_of_taken hpool hst hserved hkey htaken
      exact (hnext i _ hraised).not_raised _ rfl
  | replaying output =>
      rcases hcall.recorded output rfl with ⟨key', existing, hkey', hrecord, hdigest⟩
      rw [hkey] at hkey'
      cases hkey'
      simp only [Taken, hrecord] at htaken
      exact htaken hdigest
  | replayed output =>
      cases hnow
      simp [auditRecord] at houtcome
  | returned outcome => cases hnow
  | raised e => cases hnow

/-- Overlapping calls of valid requests, when nothing outside fails: at every
point every call is well, exactly when no success is recorded while another
request has taken its key. -/
theorem canonical_iff (x : ToolExecutor) (s : ToolState) (xs : List (Step ToolCall Question Answer))
    (hresults : ∀ result, x.contractValidator.validateResult result = true)
    (hserved : ∀ step ∈ xs, Served x step) :
    (∀ pre, pre <+: xs → AllCanonical (run (ToolCall.prog x) (init s) pre)) ↔
      Along (ToolCall.prog x) (Unclaimed x) (init s) xs := by
  constructor
  · intro h
    induction xs using List.reverseRecOn with
    | nil =>
        intro pre step post hxs
        simp at hxs
    | append_singleton xs step ih =>
        have hxs : Along (ToolCall.prog x) (Unclaimed x) (init s) xs := by
          apply ih
          · exact fun y hy => hserved y (by simp [hy])
          · exact fun pre hpre => h pre (hpre.trans (List.prefix_append ..))
        -- the last step leads to a state in which every call is well
        apply hxs.snoc
        apply unclaimed_of_canonical
        · exact outcomeInv_run hresults (fun y hy => hserved y (by simp [hy])) hxs
        · exact hserved step (by simp)
        · rw [← run_snoc]
          exact h _ (List.prefix_refl _)
  · rintro h pre ⟨post, rfl⟩
    apply allCanonical_of_staged
    exact outcomeInv_run hresults (fun y hy => hserved y (by simp [hy])) h.of_append

end Result

/-! ## Two payloads under one key -/

/-- Two requests with one key and different payloads: the second one's success
is recorded when the first one's output is stored already. -/
def clashing : List (Step ToolCall Question Answer) :=
  [.call 0 (diagnosticCall "corr_tool_001" "hello from GENESIS"),
    .call 1 (diagnosticCall "corr_tool_002" "a different payload"),
    .resume 0 diagnosticAnswers, .resume 1 diagnosticAnswers,
    .resume 0 diagnosticAnswers, .resume 1 diagnosticAnswers,
    .resume 0 diagnosticAnswers, .resume 1 diagnosticAnswers]

theorem clashing_served : ∀ step ∈ clashing, Served diagnosticExecutor step := by
  simp only [clashing, List.mem_cons, List.not_mem_nil, or_false, forall_eq_or_imp, forall_eq]
  exact ⟨rfl, rfl, fun _ => rfl, fun _ => rfl, fun _ => rfl, fun _ => rfl, fun _ => rfl,
    fun _ => rfl⟩

theorem canonical_iff_clashing :
    (∀ pre, pre <+: clashing →
      AllCanonical (run (ToolCall.prog diagnosticExecutor) (init diagnosticState) pre)) ↔
    Along (ToolCall.prog diagnosticExecutor) (Unclaimed diagnosticExecutor) (init diagnosticState)
      clashing :=
  canonical_iff diagnosticExecutor diagnosticState clashing (fun _ => rfl) clashing_served

/-- The second call raises. -/
theorem clashing_raises : (∀ step ∈ clashing, Served diagnosticExecutor step) ∧
    ¬ AllCanonical (run (ToolCall.prog diagnosticExecutor) (init diagnosticState) clashing) := by
  refine ⟨clashing_served, fun h => ?_⟩
  have hraised : ((run (ToolCall.prog diagnosticExecutor) (init diagnosticState)
      clashing).threads 1).any (fun th => match th.now with
        | .raised _ => true
        | _ => false) = true := by
    decide +kernel
  rcases (Option.any_eq_true _ _).1 hraised with ⟨th, hth, hmatch⟩
  have hcanonical := h 1 th hth
  split at hmatch
  · rename_i e he
    exact hcanonical.not_raised e he
  · cases hmatch

end Alos.Tools
