import Alos.Tools.Diagnostic
import Alos.Tools.Stages

/-! # One execution for one key

Overlapping calls with one idempotency key and one digest. The store is read
before the adapter is called and written after its result is recorded, so two
calls can both find nothing and both execute. When no call looks its key up
while another one is between its lookup and its write, and no success is lost
before it is stored, the adapter succeeds at most once.

* `Phase` is the invariant: nobody has succeeded, one call has and is about to
  store its output, or an output is stored;
* `executed_once` is the result for such runs;
* `executed_twice` is a run of two overlapping calls.
-/

namespace Alos.Tools

open Coop

/-- The output that the adapter has answered the call with. -/
def executedOutput (l : ToolLabel) : Option Json :=
  match l.input with
  | .answer ⟨.execute _ _ _, .returned output⟩ => some output
  | _ => none

/-- The output of the successful result that the call has returned. -/
def succeededOutput (l : ToolLabel) : Option Json :=
  match l.stop with
  | .returned outcome => if outcome.result.status = .success then outcome.result.output else none
  | _ => none

/-- What the adapter has answered, in order. -/
def executedOutputs (trace : List ToolLabel) : List Json := trace.filterMap executedOutput

/-- What the callers have got as successes, in order. -/
def succeededOutputs (trace : List ToolLabel) : List Json := trace.filterMap succeededOutput

/-- The call waits for the adapter, or for the append of its success. -/
def InFlight (th : Thread ToolCall ToolState Question Answer ExecuteError ToolExecutionOutcome) :
    Prop :=
  match th.now with
  | .awaiting (.append record) _ => record.outcome = "SUCCESS"
  | .awaiting (.execute _ _ _) _ => True
  | _ => False

/-- The call carries this key and this digest. -/
structure SameKey (x : ToolExecutor) (key : CacheKey) (digest : String) (c : ToolCall) : Prop where
  key : ∃ k, c.request.key = some k ∧ cacheKey c.request k = key
  digest : requestDigest x c.request = digest

/-- The step is taken without a race, and loses no success: a call that gets to
the adapter, after the append of `REQUESTED`, does so with no other call in
flight; a success of the adapter has a valid result, and its append returns. -/
structure Orderly (x : ToolExecutor) (t : ToolSys) (step : Step ToolCall Question Answer) :
    Prop where
  lookup : ∀ i reply c record k, step = .resume i reply →
    t.threads i = some ⟨c, .awaiting (.append record) k⟩ → record.outcome = "REQUESTED" →
    Fresh x t.shared c → ∀ j th, j ≠ i → t.threads j = some th → ¬ InFlight th
  valid : ∀ i reply c toolId arguments context k output, step = .resume i reply →
    t.threads i = some ⟨c, .awaiting (.execute toolId arguments context) k⟩ →
    reply (.execute toolId arguments context) = .returned output →
    x.contractValidator.validateResult (successResult c.request output) = true
  recorded : ∀ i reply c record k, step = .resume i reply →
    t.threads i = some ⟨c, .awaiting (.append record) k⟩ → record.outcome = "SUCCESS" →
    reply (.append record) = .returned

/-! ## The invariant -/

/-- The call is not between its lookup and its answer. -/
def Stage.Idle : Stage → Prop
  | .requested | .closing _ | .returned _ | .raised _ => True
  | _ => False

/-- How far the calls under one key are. -/
inductive Phase (s : ToolState) (key : CacheKey) (w : ToolWorld) (pool : Pool ToolCall Stage) :
    Prop where
  /-- Nobody has succeeded, and at most one call is at the adapter. -/
  | vacant (hnone : w.shared.records key = none) (hexecuted : executedOutputs w.trace = [])
      (hsucceeded : succeededOutputs w.trace = [])
      (hstages : ∀ i c st, pool i = some (c, st) → st.Idle ∨ st = .running)
      (hone : ∀ i j c d, pool i = some (c, .running) → pool j = some (d, .running) → i = j)
  /-- The adapter has succeeded, and its output is about to be stored. -/
  | pending {i : ℕ} {c : ToolCall} {output : Json} (hnone : w.shared.records key = none)
      (hexecuted : executedOutputs w.trace = [output]) (hsucceeded : succeededOutputs w.trace = [])
      (hi : pool i = some (c, .storing output))
      (hstages : ∀ j d st, j ≠ i → pool j = some (d, st) → st.Idle)
  /-- An output is stored. -/
  | settled {record : IdempotencyRecord} (hrecord : w.shared.records key = some record)
      (hexecuted : executedOutputs w.trace = [record.output] ∨
        executedOutputs w.trace = [] ∧ s.records key = some record)
      (hsucceeded : ∀ output ∈ succeededOutputs w.trace, output = record.output)
      (hstages : ∀ i c st, pool i = some (c, st) →
        st.Idle ∨ st = .replaying record.output ∨ st = .replayed record.output)

section Phase

variable {s s' : ToolState} {key : CacheKey} {w : ToolWorld} {pool : Pool ToolCall Stage}

/-- A segment without an output, after which the call is idle. -/
theorem Phase.idle (h : Phase s key w pool) {i : ℕ} {c : ToolCall} {st : Stage} {l : ToolLabel}
    (hst : st.Idle) (hrecords : s'.records key = w.shared.records key)
    (hexecuted : executedOutput l = none) (hsucceeded : succeededOutput l = none)
    (hi : ∀ output d, pool i ≠ some (d, .storing output)) :
    Phase s key (w.push s' l) (pool.put i c st) := by
  have hexecuted' : executedOutputs (w.push s' l).trace = executedOutputs w.trace := by
    simp [executedOutputs, hexecuted]
  have hsucceeded' : succeededOutputs (w.push s' l).trace = succeededOutputs w.trace := by
    simp [succeededOutputs, hsucceeded]
  -- the phase stays as it is; the vacant one may lose the call that was at the adapter
  cases h with
  | vacant hnone hout hsucc hstages hone =>
      refine .vacant (hrecords.trans hnone) (hexecuted'.trans hout) (hsucceeded'.trans hsucc) ?_ ?_
      · intro j d u hj
        rcases Pool.put_eq_some.1 hj with ⟨-, -, rfl⟩ | ⟨-, hj⟩
        · exact .inl hst
        · exact hstages j d u hj
      · intro j k d e hj hk
        rcases Pool.put_eq_some.1 hj with ⟨-, -, rfl⟩ | ⟨-, hj⟩
        · exact absurd hst id
        rcases Pool.put_eq_some.1 hk with ⟨-, -, rfl⟩ | ⟨-, hk⟩
        · exact absurd hst id
        exact hone j k d e hj hk
  | @pending j d output hnone hout hsucc hstoring hstages =>
      have hne : j ≠ i := by
        rintro rfl
        exact hi output d hstoring
      refine .pending (hrecords.trans hnone) (hexecuted'.trans hout) (hsucceeded'.trans hsucc)
        ((Pool.put_of_ne _ hne ..).trans hstoring) ?_
      intro k e u hk hk'
      rcases Pool.put_eq_some.1 hk' with ⟨-, -, rfl⟩ | ⟨-, hk'⟩
      · exact hst
      · exact hstages k e u hk hk'
  | settled hrecord hout hsucc hstages =>
      refine .settled (hrecords.trans hrecord) ?_ ?_ ?_
      · rwa [hexecuted']
      · rwa [hsucceeded']
      · intro j d u hj
        rcases Pool.put_eq_some.1 hj with ⟨-, -, rfl⟩ | ⟨-, hj⟩
        · exact .inl hst
        · exact hstages j d u hj

/-- A segment of a call that answers with the stored output. -/
theorem Phase.answer (h : Phase s key w pool) {i : ℕ} {c : ToolCall} {st : Stage} {l : ToolLabel}
    {record : IdempotencyRecord} (hrecord : w.shared.records key = some record)
    (hst : st.Idle ∨ st = .replaying record.output ∨ st = .replayed record.output)
    (hexecuted : executedOutput l = none)
    (hsucceeded : ∀ output, succeededOutput l = some output → output = record.output) :
    Phase s key (w.push w.shared l) (pool.put i c st) := by
  -- an output that is given back from the store presupposes that one is stored
  cases h with
  | vacant hnone =>
      rw [hrecord] at hnone
      cases hnone
  | pending hnone =>
      rw [hrecord] at hnone
      cases hnone
  | settled hrecord' hout hsucc hstages =>
      rw [hrecord] at hrecord'
      cases hrecord'
      refine .settled hrecord ?_ ?_ ?_
      · simpa [executedOutputs, hexecuted] using hout
      · intro output houtput
        simp only [succeededOutputs, World.filterMap_push, List.mem_append,
          Option.mem_toList] at houtput
        rcases houtput with hold | hnew
        · exact hsucc output hold
        · exact hsucceeded output hnew
      · intro j d u hj
        rcases Pool.put_eq_some.1 hj with ⟨-, -, rfl⟩ | ⟨-, hj⟩
        · exact hst
        · exact hstages j d u hj

/-- Nobody else is in flight while a call is at the adapter. -/
theorem Phase.running (h : Phase s key w pool) {i : ℕ} {c : ToolCall}
    (hi : pool i = some (c, .running)) :
    w.shared.records key = none ∧ executedOutputs w.trace = [] ∧ succeededOutputs w.trace = [] ∧
      ∀ j d st, j ≠ i → pool j = some (d, st) → st.Idle := by
  cases h with
  | vacant hnone hout hsucc hstages hone =>
      refine ⟨hnone, hout, hsucc, ?_⟩
      intro j d st hj hpool
      rcases hstages j d st hpool with hidle | rfl
      · exact hidle
      · exact absurd (hone j i d c hpool hi) hj
  -- while one call is about to store, no other is at the adapter
  | @pending j _ _ _ _ _ hstoring hstages =>
      have hij : i ≠ j := by
        rintro rfl
        rw [hi] at hstoring
        cases hstoring
      exact absurd (hstages i c .running hij hi) id
  | settled _ _ _ hstages => rcases hstages i c .running hi with h | h | h <;> cases h

/-- The adapter answers the only call that is at it. -/
theorem Phase.returns (h : Phase s key w pool) {i : ℕ} {c : ToolCall} {output : Json}
    {l : ToolLabel} (hi : pool i = some (c, .running)) (hexecuted : executedOutput l = some output)
    (hsucceeded : succeededOutput l = none) :
    Phase s key (w.push w.shared l) (pool.put i c (.storing output)) := by
  rcases h.running hi with ⟨hnone, hout, hsucc, hstages⟩
  refine .pending hnone ?_ ?_ (Pool.put_self ..) ?_
  · simp only [executedOutputs, World.filterMap_push, hexecuted] at hout ⊢
    rw [hout]
    rfl
  · simp only [succeededOutputs, World.filterMap_push, hsucceeded] at hsucc ⊢
    rw [hsucc]
    rfl
  · intro j d u hj hpool
    rw [Pool.put_of_ne _ hj] at hpool
    exact hstages j d u hj hpool

/-- Nor while a call is about to store an output. -/
theorem Phase.storing (h : Phase s key w pool) {i : ℕ} {c : ToolCall} {output : Json}
    (hi : pool i = some (c, .storing output)) :
    w.shared.records key = none ∧ executedOutputs w.trace = [output] ∧
      succeededOutputs w.trace = [] ∧
      ∀ j d st, j ≠ i → pool j = some (d, st) → st.Idle := by
  cases h with
  | vacant _ _ _ hstages => rcases hstages i c _ hi with h | h <;> cases h
  | @pending j _ _ hnone hout hsucc hstoring hstages =>
      have hij : i = j := by
        by_contra hne
        exact hstages i c _ hne hi
      subst hij
      rw [hi] at hstoring
      cases hstoring
      exact ⟨hnone, hout, hsucc, hstages⟩
  | settled _ _ _ hstages => rcases hstages i c _ hi with h | h | h <;> cases h

/-- The only call with an output stores it, and is done. -/
theorem Phase.stores (h : Phase s key w pool) {i : ℕ} {c : ToolCall} {st : Stage} {l : ToolLabel}
    {record : IdempotencyRecord} (hi : pool i = some (c, .storing record.output))
    (hrecord : s'.records key = some record) (hst : st.Idle)
    (hexecuted : executedOutput l = none) (hsucceeded : succeededOutput l = some record.output) :
    Phase s key (w.push s' l) (pool.put i c st) := by
  -- the one output of the adapter becomes the record of the key
  rcases h.storing hi with ⟨-, hout, hsucc, hstages⟩
  refine .settled hrecord (.inl ?_) ?_ ?_
  · simp only [executedOutputs, World.filterMap_push, hexecuted] at hout ⊢
    rw [hout]
    rfl
  · simp only [succeededOutputs, World.filterMap_push, hsucceeded] at hsucc ⊢
    rw [hsucc]
    intro v hv
    exact List.mem_singleton.1 hv
  · intro j d u hj
    rcases Pool.put_eq_some.1 hj with ⟨-, -, rfl⟩ | ⟨hne, hj⟩
    · exact .inl hst
    · exact .inl (hstages j d u hne hj)

/-- A call that replays has the stored output. -/
theorem Phase.replaying (h : Phase s key w pool) {i : ℕ} {c : ToolCall} {output : Json}
    (hi : pool i = some (c, .replaying output) ∨ pool i = some (c, .replayed output)) :
    ∃ record, w.shared.records key = some record ∧ output = record.output := by
  -- only what is stored is replayed
  cases h with
  | vacant _ _ _ hstages =>
      rcases hi with hi | hi <;> rcases hstages i c _ hi with h | h <;> cases h
  | @pending j _ _ _ _ _ hstoring hstages =>
      have hij : i ≠ j := by
        rintro rfl
        rcases hi with hi | hi <;> rw [hi] at hstoring <;> cases hstoring
      rcases hi with hi | hi <;> exact absurd (hstages i c _ hij hi) id
  | @settled record hrecord _ _ hstages =>
      refine ⟨record, hrecord, ?_⟩
      rcases hi with hi | hi <;> rcases hstages i c _ hi with h | h | h <;> cases h <;> rfl

end Phase

section Turn

variable {x : ToolExecutor} {s : ToolState} {key : CacheKey} {digest : String} {t : ToolSys}
  {pool : Pool ToolCall Stage} {i : ℕ} {c : ToolCall}

theorem SameKey.cacheKey_eq (h : SameKey x key digest c) {k : String}
    (hk : c.request.key = some k) : cacheKey c.request k = key := by
  rcases h.key with ⟨k', hk', hkey⟩
  rw [hk] at hk'
  cases hk'
  exact hkey

/-- Only one call is in flight when a call looks its key up. -/
theorem Phase.lookup (hpool : (staging x).Describes t pool) (h : Phase s key t.toWorld pool)
    (hnone : t.shared.records key = none) (hi : pool i = some (c, .requested))
    (hflight : ∀ j th, j ≠ i → t.threads j = some th → ¬ InFlight th) {l : ToolLabel}
    (hexecuted : executedOutput l = none) (hsucceeded : succeededOutput l = none) :
    Phase s key (t.toWorld.push t.shared l) (pool.put i c .running) := by
  have hothers : ∀ j d st, j ≠ i → pool j = some (d, st) → ¬ InFlight ⟨d, st.now x d⟩ :=
    fun j d st hj hpool' => hflight j _ hj (hpool.thread_some hpool')
  have hexecuted' : executedOutputs (t.toWorld.push t.shared l).trace =
      executedOutputs t.trace := by
    simp [executedOutputs, hexecuted]
  have hsucceeded' : succeededOutputs (t.toWorld.push t.shared l).trace =
      succeededOutputs t.trace := by
    simp [succeededOutputs, hsucceeded]
  -- no other call is in flight, so that a key without a record is vacant
  cases h with
  | vacant _ hout hsucc hstages hone =>
      refine .vacant hnone (hexecuted'.trans hout) (hsucceeded'.trans hsucc) ?_ ?_
      · intro j d u hj
        rcases Pool.put_eq_some.1 hj with ⟨-, -, rfl⟩ | ⟨-, hj⟩
        · exact .inr rfl
        · exact hstages j d u hj
      · intro j k d e hj hk
        rcases Pool.put_eq_some.1 hj with ⟨rfl, -, -⟩ | ⟨hji, hj⟩
        · rcases Pool.put_eq_some.1 hk with ⟨rfl, -, -⟩ | ⟨hki, hk⟩
          · rfl
          · exact absurd trivial (hothers k e .running hki hk)
        · exact absurd trivial (hothers j d .running hji hj)
  | @pending j d output _ _ _ hstoring _ =>
      have hj : j ≠ i := by
        rintro rfl
        rw [hi] at hstoring
        cases hstoring
      exact absurd rfl (hothers j d (.storing output) hj hstoring)
  | settled hrecord =>
      rw [hnone] at hrecord
      cases hrecord

/-- Every later segment keeps the phase. -/
theorem Phase.turn (hpool : (staging x).Describes t pool) (h : Phase s key t.toWorld pool)
    (hsame : SameKey x key digest c) {reply : (q : Question) → Answer q}
    (horderly : t.shared.records key = none → Orderly x t (.resume i reply)) {st st' : Stage}
    {q : Question} {k : Answer q → ToolOp ToolExecutionOutcome} {a : Answer q} {s' : ToolState}
    (hi : pool i = some (c, st)) (hnow : st.now x c = .awaiting q k) (ha : reply q = a)
    (hturn : Turn x c t.shared st ⟨q, a⟩ s' st') :
    Phase s key (t.toWorld.push s' ((staging x).label i c (.answer ⟨q, a⟩) st'))
      (pool.put i c st') := by
  have hthread : t.threads i = some ⟨c, .awaiting q k⟩ := by
    rw [← hnow]
    exact hpool.thread_some hi
  have hidle : (∀ output, st ≠ .storing output) → st'.Idle → s' = t.shared →
      executedOutput ((staging x).label i c (.answer ⟨q, a⟩) st') = none →
      succeededOutput ((staging x).label i c (.answer ⟨q, a⟩) st') = none →
      Phase s key (t.toWorld.push s' ((staging x).label i c (.answer ⟨q, a⟩) st'))
        (pool.put i c st') := by
    rintro hst hst' rfl hexecuted hsucceeded
    refine h.idle hst' rfl hexecuted hsucceeded fun output d hstoring => ?_
    rw [hi] at hstoring
    cases hstoring
    exact hst output rfl
  cases hturn with
  | unrecorded =>
      -- a call that stores an output has its success recorded
      refine hidle ?_ trivial rfl rfl rfl
      rintro output rfl
      have hnone := (h.storing hi).1
      cases hnow
      have hrecorded := (horderly hnone).recorded i reply c _ _ rfl hthread rfl
      rw [ha] at hrecorded
      cases hrecorded
  | refused => exact hidle (by simp) trivial rfl rfl rfl
  | fresh hfresh =>
      rcases hsame.key with ⟨k', hk', hkey⟩
      have hnone : t.shared.records key = none := by
        rw [← hkey]
        exact hfresh.unrecorded k' hk'
      cases hnow
      exact h.lookup hpool hnone hi ((horderly hnone).lookup i reply c _ _ rfl hthread rfl hfresh) rfl
        rfl
  | conflict => exact hidle (by simp) trivial rfl rfl rfl
  | known hverdict hkey hrecord heq =>
      rw [hsame.cacheKey_eq hkey] at hrecord
      exact h.answer hrecord (.inr (.inl rfl)) rfl fun output houtput => by cases houtput
  | invalidVerdict => exact hidle (by simp) trivial rfl rfl rfl
  | timedOut => exact hidle (by simp) trivial rfl rfl rfl
  | failed => exact hidle (by simp) trivial rfl rfl rfl
  | executed => exact h.returns hi rfl rfl
  | @invalidFailure _ _ _ answer _ _ hanswer =>
      refine hidle (by simp) trivial rfl ?_ rfl
      cases answer with
      | returned output => exact absurd rfl (hanswer output)
      | timedOut => rfl
      | raised => rfl
  | invalidSuccess hresult =>
      -- what the adapter returns in an orderly run is a valid result
      have hnone := (h.running hi).1
      exact absurd ((horderly hnone).valid i reply c _ _ _ _ _ rfl hthread ha) hresult
  | @closed record refusal =>
      refine hidle (by simp) trivial rfl rfl ?_
      simp [succeededOutput, Staging.label, staging, Stage.now, Yield.stop, ToolCall.refused,
        ToolCall.outcome, errorResult, baseResult]
  | unkeyed hkey =>
      rcases hsame.key with ⟨k', hk', -⟩
      rw [hkey] at hk'
      cases hk'
  | @stored record output k' hkey hfree =>
      have hrecord : (t.shared.setRecord (cacheKey c.request k')
          ⟨requestDigest x c.request, output⟩).records key =
            some ⟨requestDigest x c.request, output⟩ := by
        rw [hsame.cacheKey_eq hkey]
        exact Function.update_self ..
      exact h.stores hi hrecord trivial rfl rfl
  | taken hkey htaken =>
      have hnone := (h.storing hi).1
      rw [hsame.cacheKey_eq hkey] at htaken
      simp [Taken, hnone] at htaken
  | recorded =>
      rcases h.replaying (.inl hi) with ⟨record, hrecord, rfl⟩
      exact h.answer hrecord (.inr (.inr rfl)) rfl fun output houtput => by cases houtput
  | replayed =>
      rcases h.replaying (.inr hi) with ⟨record, hrecord, rfl⟩
      exact h.answer hrecord (.inl trivial) rfl fun output houtput => by cases houtput; rfl

end Turn

/-! ## The result -/

/-- The adapter has succeeded at most once, and the callers that have got a
success have its output, or the output that was stored before the run. -/
def ExecutedOnce (s : ToolState) (key : CacheKey) (trace : List ToolLabel) : Prop :=
  (executedOutputs trace).length ≤ 1 ∧ ∀ output ∈ succeededOutputs trace,
    executedOutputs trace = [output] ∨ ∃ record, s.records key = some record ∧
      record.output = output

theorem Phase.executedOnce {s : ToolState} {key : CacheKey} {w : ToolWorld}
    {pool : Pool ToolCall Stage} (h : Phase s key w pool) : ExecutedOnce s key w.trace := by
  cases h with
  | vacant _ hout hsucc => simp [ExecutedOnce, hout, hsucc]
  | pending _ hout hsucc => simp [ExecutedOnce, hout, hsucc]
  | @settled record _ hout hsucc =>
      refine ⟨?_, fun output houtput => ?_⟩
      · rcases hout with hout | ⟨hout, -⟩ <;> simp [hout]
      · cases hsucc output houtput
        rcases hout with hout | ⟨-, hrecord⟩
        · exact .inl hout
        · exact .inr ⟨record, hrecord, rfl⟩

/-- The calls carry the key, and are in one of the phases. -/
structure KeyInv (x : ToolExecutor) (s : ToolState) (key : CacheKey) (digest : String)
    (w : ToolWorld) (pool : Pool ToolCall Stage) : Prop where
  sameKey : ∀ i c st, pool i = some (c, st) → SameKey x key digest c
  phase : Phase s key w pool

/-- The steps considered: calls with the key, in order while nothing is stored. -/
structure KeyStep (x : ToolExecutor) (key : CacheKey) (digest : String) (t : ToolSys)
    (step : Step ToolCall Question Answer) : Prop where
  sameKey : ∀ i c, step = .call i c → SameKey x key digest c
  orderly : t.shared.records key = none → Orderly x t step

theorem keyInv_keeps (x : ToolExecutor) (s : ToolState) (key : CacheKey) (digest : String) :
    (staging x).Keeps (KeyStep x key digest) (KeyInv x s key digest) where
  start := by
    rintro t pool i c s' st - h hstep hi hbegins
    refine ⟨?_, ?_⟩
    · intro j d u hj
      rcases Pool.put_eq_some.1 hj with ⟨-, rfl, -⟩ | ⟨-, hj⟩
      · exact hstep.sameKey i d rfl
      · exact h.sameKey j d u hj
    · have hnew : ∀ output d, pool i ≠ some (d, .storing output) := by
        intro output d h
        rw [hi] at h
        cases h
      have hbegins' : Begins x c t.shared s' st := hbegins
      -- no branch of the start reaches the adapter without asking the store
      cases hbegins' with
      | invalid => exact h.phase.idle trivial rfl rfl rfl hnew
      | valid => exact h.phase.idle trivial rfl rfl rfl hnew
  turn := by
    rintro t pool i reply c st q k a s' st' hpool h hstep hi hnow ha hturn
    refine ⟨?_, ?_⟩
    · intro j d u hj
      rcases Pool.put_eq_some.1 hj with ⟨-, rfl, -⟩ | ⟨-, hj⟩
      · exact h.sameKey i d st hi
      · exact h.sameKey j d u hj
    · exact h.phase.turn hpool (h.sameKey i c st hi) hstep.orderly hi hnow ha hturn

theorem keyInv_init (x : ToolExecutor) (s : ToolState) (key : CacheKey) (digest : String) :
    (staging x).Staged (KeyInv x s key digest) (init s) := by
  refine ⟨fun _ => none, Staging.describes_init s, ⟨fun i c st h => (by cases h), ?_⟩⟩
  cases hrecord : s.records key with
  | none =>
      exact .vacant hrecord rfl rfl (fun i c st h => by cases h) fun i j c d h => by cases h
  | some record =>
      exact .settled hrecord (.inr ⟨rfl, hrecord⟩) (fun output h => by cases h)
        fun i c st h => by cases h

/-- Overlapping calls with one key and one digest, in a run whose steps are in
order while nothing is stored under the key: one execution serves them all. -/
theorem executed_once (x : ToolExecutor) (s : ToolState) (key : CacheKey) (digest : String)
    (xs : List (Step ToolCall Question Answer))
    (hcalls : ∀ i c, .call i c ∈ xs → SameKey x key digest c)
    (horderly : Along (ToolCall.prog x)
      (fun t step => t.shared.records key = none → Orderly x t step) (init s) xs) :
    ExecutedOnce s key (run (ToolCall.prog x) (init s) xs).trace := by
  have hsteps : Along (ToolCall.prog x) (KeyStep x key digest) (init s) xs := by
    intro pre step post hxs
    refine ⟨?_, horderly pre step post hxs⟩
    rintro i c rfl
    exact hcalls i c (by simp [hxs])
  rcases (keyInv_keeps x s key digest).run_inv (staging_follows x) (keyInv_init x s key digest) xs
    hsteps with ⟨pool, -, h⟩
  exact h.phase.executedOnce

/-! ## Checking a given run -/

section Among

variable (x : ToolExecutor) (js : List ℕ) (t : ToolSys)

instance (th : Thread ToolCall ToolState Question Answer ExecuteError ToolExecutionOutcome) :
    Decidable (InFlight th) :=
  match th with
  | ⟨_, .awaiting (.append record) _⟩ => inferInstanceAs (Decidable (record.outcome = "SUCCESS"))
  | ⟨_, .awaiting (.execute _ _ _) _⟩ => inferInstanceAs (Decidable True)
  | ⟨_, .returned _⟩ | ⟨_, .raised _⟩ => inferInstanceAs (Decidable False)

/-- What `Orderly` asks of an answer to the thread `i`, where only the threads `js` have
started. -/
def AnsweredInOrder (i : ℕ) (c : ToolCall) : Exchange Question Answer → Prop
  | ⟨.append record, answer⟩ =>
      (record.outcome = "REQUESTED" → ∀ j ∈ js, j ≠ i → ∀ th ∈ t.threads j, ¬ InFlight th) ∧
        (record.outcome = "SUCCESS" → answer = Appended.returned)
  | ⟨.execute _ _ _, answer⟩ => ∀ output, answer = Executed.returned output →
      x.contractValidator.validateResult (successResult c.request output) = true

instance (i : ℕ) (c : ToolCall) : (y : Exchange Question Answer) →
    Decidable (AnsweredInOrder x js t i c y)
  | ⟨.append _, answer⟩ => inferInstanceAs (Decidable ((_ → ∀ j ∈ js, _ → ∀ th ∈ t.threads j, _) ∧
      (_ → answer = Appended.returned)))
  | ⟨.execute _ _ _, .returned output⟩ =>
      decidable_of_iff (x.contractValidator.validateResult (successResult c.request output) = true)
        ⟨fun h _ houtput => by cases houtput; exact h, fun h => h output rfl⟩
  | ⟨.execute _ _ _, .timedOut⟩ | ⟨.execute _ _ _, .raised⟩ =>
      isTrue fun _ houtput => by cases houtput

/-- `Orderly`, where only the threads `js` have started. -/
def OrderlyAmong : Step ToolCall Question Answer → Prop
  | .call _ _ => True
  | .resume i reply => ∀ th ∈ t.threads i, ∀ q ∈ th.now.stop.question?,
      AnsweredInOrder x js t i th.call ⟨q, reply q⟩

instance (step : Step ToolCall Question Answer) : Decidable (OrderlyAmong x js t step) := by
  cases step <;> unfold OrderlyAmong <;> infer_instance

variable {x t}

theorem orderly_of_among {step : Step ToolCall Question Answer} (h : OrderlyAmong x js t step)
    (hjs : ∀ j, j ∉ js → t.threads j = none) : Orderly x t step where
  lookup := by
    rintro i reply c record k rfl hi hrequested - j th hj hth hflight
    have hchecked := (h _ hi (.append record) rfl).1 hrequested
    by_cases hmem : j ∈ js
    · exact hchecked j hmem hj th hth hflight
    · rw [hjs j hmem] at hth
      cases hth
  valid := by
    rintro i reply c toolId arguments context k output rfl hi houtput
    exact h _ hi (.execute toolId arguments context) rfl output houtput
  recorded := by
    rintro i reply c record k rfl hi hsuccess
    exact (h _ hi (.append record) rfl).2 hsuccess

end Among

def diagnosticKey : CacheKey :=
  (DiagnosticPrincipalResolver.tenantId, "diagnostic.echo", "idempotency-001")

def helloDigest : String := "8477611f2bb13ecdf5c79c34bfe07f629fe3d74754889638d8659066b53bfac7"

theorem sameKey_hello (correlationId : String) : SameKey diagnosticExecutor diagnosticKey
    helloDigest (diagnosticCall correlationId "hello from GENESIS") where
  key := ⟨_, rfl, rfl⟩
  digest := requestDigest_hello correlationId

/-- The diagnostic call, from its start to its end. -/
def lone : List (Step ToolCall Question Answer) :=
  [.call 0 (diagnosticCall "corr_tool_001" "hello from GENESIS"), .resume 0 diagnosticAnswers,
    .resume 0 diagnosticAnswers, .resume 0 diagnosticAnswers]

/-! ## Two overlapping calls -/

/-- The sink never fails, and the adapter counts its calls. -/
def counting (calls : Int) : (q : Question) → Answer q
  | .append _ => .returned
  | .execute _ _ _ => .returned (.int calls)

/-- The call and its retry: both look the key up before either has stored
anything. -/
def racing : List (Step ToolCall Question Answer) :=
  [.call 0 (diagnosticCall "corr_tool_001" "hello from GENESIS"),
    .call 1 (diagnosticCall "corr_tool_replay_002" "hello from GENESIS"),
    .resume 0 (counting 0), .resume 1 (counting 0), .resume 0 (counting 1), .resume 1 (counting 2),
    .resume 0 (counting 0), .resume 1 (counting 0)]

theorem executed_twice :
    (∀ i c, .call i c ∈ racing → SameKey diagnosticExecutor diagnosticKey helloDigest c) ∧
      ¬ ExecutedOnce diagnosticState diagnosticKey
        (run (ToolCall.prog diagnosticExecutor) (init diagnosticState) racing).trace := by
  constructor
  · intro i c hc
    simp only [racing, List.mem_cons, Step.call.injEq, reduceCtorEq, List.not_mem_nil, or_false] at hc
    rcases hc with ⟨-, rfl⟩ | ⟨-, rfl⟩ <;> exact sameKey_hello _
  · rintro ⟨hlength, -⟩
    have htwo : (executedOutputs (run (ToolCall.prog diagnosticExecutor) (init diagnosticState)
        racing).trace).length = 2 := by
      decide +kernel
    omega

/-- The same two calls: the retry has started, and looks the key up when the output of
the first call is stored. -/
def waiting : List (Step ToolCall Question Answer) :=
  [.call 0 (diagnosticCall "corr_tool_001" "hello from GENESIS"),
    .call 1 (diagnosticCall "corr_tool_replay_002" "hello from GENESIS"),
    .resume 0 (counting 0), .resume 0 (counting 1), .resume 0 (counting 0), .resume 1 (counting 0),
    .resume 1 (counting 2), .resume 1 (counting 0)]

theorem sameKey_waiting {i : ℕ} {c : ToolCall} (h : .call i c ∈ waiting) :
    SameKey diagnosticExecutor diagnosticKey helloDigest c := by
  simp only [waiting, List.mem_cons, Step.call.injEq, reduceCtorEq, List.not_mem_nil,
    or_false] at h
  rcases h with ⟨-, rfl⟩ | ⟨-, rfl⟩ <;> exact sameKey_hello _

theorem executed_once_waiting :
    let trace := (run (ToolCall.prog diagnosticExecutor) (init diagnosticState) waiting).trace
    ExecutedOnce diagnosticState diagnosticKey trace ∧
      (executedOutputs trace).length = 1 ∧ (succeededOutputs trace).length = 2 := by
  intro trace
  refine ⟨?_, ?_⟩
  · apply executed_once diagnosticExecutor diagnosticState diagnosticKey helloDigest waiting
    · exact fun _ _ => sameKey_waiting
    · have hchecked : Along (ToolCall.prog diagnosticExecutor)
          (OrderlyAmong diagnosticExecutor [0, 1]) (init diagnosticState) waiting := by
        decide +kernel
      intro pre step post hxs _
      apply orderly_of_among [0, 1] (hchecked pre step post hxs)
      intro j hj
      apply run_threads_none rfl
      intro c hc
      have hmem : .call j c ∈ waiting := by simp [hxs, hc]
      simp only [waiting, List.mem_cons, Step.call.injEq, reduceCtorEq, List.not_mem_nil,
        or_false] at hmem
      rcases hmem with ⟨rfl, -⟩ | ⟨rfl, -⟩ <;> exact hj (by simp)
  · decide +kernel

end Alos.Tools
