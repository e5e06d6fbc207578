import Alos.Tools.Digest
import Alos.Tools.Once

/-! # Where a replayed output comes from

Overlapping calls of any requests, from an empty store. A call that succeeds
without the adapter has the output of an earlier execution of the same request,
and the first request that succeeds under a key keeps it.

* `ReplayInv`: every stored output, and every output on its way, has its
  execution in the trace;
* `LateInv`: what a later request under a taken key can come to;
* `replays_and_conflicts` is the result.
-/

namespace Alos.Tools

open Coop

/-- The call carries the key. -/
def HasKey (c : ToolCall) (key : CacheKey) : Prop :=
  ∃ k, c.request.key = some k ∧ cacheKey c.request k = key

/-- The adapter has answered the call's own question with `output`. -/
def Delivers (l : ToolLabel) (output : Json) : Prop :=
  l.input = .answer ⟨.execute l.call.request.toolId l.call.request.arguments
    l.call.request.executionContext, .returned output⟩

/-- The call goes to the adapter. -/
def CallsOut (l : ToolLabel) : Prop :=
  ∃ toolId arguments context, l.stop = .awaiting (.execute toolId arguments context)

/-- The call is answered by a replay: with a success, and without having gone
to the adapter. -/
structure Replayed (pre : List ToolLabel) (l : ToolLabel) (output : Json) : Prop where
  success : succeededOutput l = some output
  quiet : ∀ l' ∈ own l.thread pre, ¬ CallsOut l'

/-- An execution of a request with this digest has given `output`. -/
def Produced (x : ToolExecutor) (trace : List ToolLabel) (output : Json) (digest : String) : Prop :=
  ∃ l ∈ trace, Delivers l output ∧ requestDigest x l.call.request = digest

/-! ## The invariant -/

/-- Where the outputs that a call at the stage deals with come from. -/
def Stage.Sourced (x : ToolExecutor) (trace : List ToolLabel) (i : ℕ) (c : ToolCall) :
    Stage → Prop
  | .running => ∃ l ∈ own i trace, CallsOut l
  | .storing output => (∃ l ∈ own i trace, CallsOut l) ∧
      ∃ l ∈ trace, Delivers l output ∧ l.call = c
  | .replaying output | .replayed output =>
      Produced x trace output (requestDigest x c.request)
  | _ => True

structure ReplayInv (x : ToolExecutor) (w : ToolWorld) (pool : Pool ToolCall Stage) : Prop where
  records : ∀ key record, w.shared.records key = some record →
    ∃ l ∈ w.trace, Delivers l record.output ∧ HasKey l.call key ∧
      requestDigest x l.call.request = record.requestDigest
  stages : ∀ i c st, pool i = some (c, st) → st.Sourced x w.trace i c
  replays : ∀ pre l post, w.trace = pre ++ l :: post → ∀ output, Replayed pre l output →
    Produced x pre output (requestDigest x l.call.request)

section Turn

variable {x : ToolExecutor} {t : ToolSys} {w : ToolWorld} {pool : Pool ToolCall Stage} {i : ℕ}
  {c : ToolCall}

/-- What was produced stays produced. -/
theorem Produced.mono {trace : List ToolLabel} {output : Json} {digest : String}
    (h : Produced x trace output digest) (more : List ToolLabel) :
    Produced x (trace ++ more) output digest := by
  rcases h with ⟨l, hl, h⟩
  exact ⟨l, List.mem_append_left _ hl, h⟩

/-- A stage that has its source keeps it. -/
theorem Stage.Sourced.mono {trace : List ToolLabel} {st : Stage} (h : st.Sourced x trace i c)
    (more : List ToolLabel) : st.Sourced x (trace ++ more) i c := by
  have hcalls : (∃ l ∈ own i trace, CallsOut l) → ∃ l ∈ own i (trace ++ more), CallsOut l := by
    rintro ⟨l, hl, hout⟩
    rw [mem_own] at hl
    exact ⟨l, mem_own.2 ⟨List.mem_append_left _ hl.1, hl.2⟩, hout⟩
  cases st with
  | running => exact hcalls h
  | storing output =>
      rcases h with ⟨hout, l, hl, hexecuted⟩
      exact ⟨hcalls hout, l, List.mem_append_left _ hl, hexecuted⟩
  | replaying output => exact Produced.mono h more
  | replayed output => exact Produced.mono h more
  | _ => trivial

/-- One segment: only what is new has to be looked at. -/
theorem ReplayInv.push (h : ReplayInv x w pool) {s' : ToolState} {st : Stage} {l : ToolLabel}
    (hrecords : ∀ key record, s'.records key = some record → w.shared.records key = some record ∨
      ∃ l' ∈ w.trace, Delivers l' record.output ∧ HasKey l'.call key ∧
        requestDigest x l'.call.request = record.requestDigest)
    (hstage : st.Sourced x (w.trace ++ [l]) i c)
    (hreplay : ∀ output, Replayed w.trace l output →
      Produced x w.trace output (requestDigest x l.call.request)) :
    ReplayInv x (w.push s' l) (pool.put i c st) := by
  refine ⟨?_, ?_, ?_⟩
  · intro key record hrecord
    have hsource : ∃ l' ∈ w.trace, Delivers l' record.output ∧ HasKey l'.call key ∧
        requestDigest x l'.call.request = record.requestDigest := by
      -- the origin of an earlier record stays where it is in the trace
      rcases hrecords key record hrecord with hold | hnew
      · exact h.records key record hold
      · exact hnew
    rcases hsource with ⟨l', hl', hexecuted⟩
    exact ⟨l', List.mem_append_left _ hl', hexecuted⟩
  · intro j d u hj
    rcases Pool.put_eq_some.1 hj with ⟨rfl, rfl, rfl⟩ | ⟨-, hj⟩
    · exact hstage
    · exact (h.stages j d u hj).mono _
  · intro pre y post htrace output hy
    rcases snoc_split htrace with ⟨rfl, rfl⟩ | ⟨post', htrace'⟩
    · exact hreplay output hy
    · exact h.replays pre y post' htrace' output hy

/-- A call that is answered from the store has not called the adapter. -/
theorem not_callsOut {pre : List ToolLabel} {l : ToolLabel} {output : Json}
    (h : Replayed pre l output) : ¬ ∃ l' ∈ own l.thread pre, CallsOut l' := by
  rintro ⟨l', hl', hout⟩
  exact h.quiet l' hl' hout

/-- Every later segment keeps the invariant. -/
theorem ReplayInv.turn (h : ReplayInv x t.toWorld pool) {st st' : Stage} {q : Question}
    {k : Answer q → ToolOp ToolExecutionOutcome} {a : Answer q} {s' : ToolState}
    (hi : pool i = some (c, st)) (hnow : st.now x c = .awaiting q k)
    (hturn : Turn x c t.shared st ⟨q, a⟩ s' st') :
    ReplayInv x (t.toWorld.push s' ((staging x).label i c (.answer ⟨q, a⟩) st'))
      (pool.put i c st') := by
  have hold := h.stages i c st hi
  -- a segment that neither stores nor answers with an output
  have hquiet : s' = t.shared →
      st'.Sourced x (t.trace ++ [(staging x).label i c (.answer ⟨q, a⟩) st']) i c →
      succeededOutput ((staging x).label i c (.answer ⟨q, a⟩) st') = none →
      ReplayInv x (t.toWorld.push s' ((staging x).label i c (.answer ⟨q, a⟩) st'))
        (pool.put i c st') := by
    rintro rfl hst' hnone
    refine h.push (fun _ _ => .inl) hst' fun output hreplayed => ?_
    rw [hreplayed.success] at hnone
    cases hnone
  cases hturn with
  | unrecorded => exact hquiet rfl trivial rfl
  | refused => exact hquiet rfl trivial rfl
  | fresh =>
      refine hquiet rfl ⟨_, mem_own.2 ⟨List.mem_append_right _ (List.mem_singleton_self _), rfl⟩, ?_⟩
        rfl
      exact ⟨_, _, _, rfl⟩
  | conflict => exact hquiet rfl trivial rfl
  | known hverdict hkey hrecord hdigest =>
      rcases h.records _ _ hrecord with ⟨l, hl, hexecuted, -, hl'⟩
      refine hquiet rfl (Produced.mono ?_ _) rfl
      exact ⟨l, hl, hexecuted, hl'.trans hdigest⟩
  | invalidVerdict => exact hquiet rfl trivial rfl
  | timedOut => exact hquiet rfl trivial rfl
  | failed => exact hquiet rfl trivial rfl
  | executed =>
      cases hnow
      have hrunning : Stage.running.Sourced x t.trace i c := hold
      refine hquiet rfl ⟨hrunning.mono _, ?_⟩ rfl
      exact ⟨_, List.mem_append_right _ (List.mem_singleton_self _), rfl, rfl⟩
  | invalidFailure => exact hquiet rfl trivial rfl
  | invalidSuccess => exact hquiet rfl trivial rfl
  | closed =>
      refine hquiet rfl trivial ?_
      simp [succeededOutput, Staging.label, staging, Stage.now, Yield.stop, ToolCall.refused,
        ToolCall.outcome, errorResult, baseResult]
  | unkeyed =>
      refine h.push (fun _ _ => .inl) trivial fun output hreplayed => ?_
      exact absurd hold.1 (not_callsOut hreplayed)
  | stored hkey hfree =>
      rename_i record v key
      refine h.push (fun key' record' hrecord => ?_) trivial fun output hreplayed => ?_
      · by_cases hk : key' = cacheKey c.request key
        · subst hk
          rw [setRecord_records, Function.update_self] at hrecord
          cases hrecord
          rcases hold.2 with ⟨l, hl, hdelivers, rfl⟩
          exact .inr ⟨l, hl, hdelivers, ⟨key, hkey, rfl⟩, rfl⟩
        · rw [setRecord_records, Function.update_of_ne hk] at hrecord
          exact .inl hrecord
      · exact absurd hold.1 (not_callsOut hreplayed)
  | taken => exact hquiet rfl trivial rfl
  | recorded => exact hquiet rfl (Produced.mono hold _) rfl
  | replayed =>
      refine h.push (fun _ _ => .inl) trivial fun output hreplayed => ?_
      cases hreplayed.success
      exact hold

/-- Each step keeps every stored output traced back to the call that made it. -/
theorem replayInv_keeps (x : ToolExecutor) :
    (staging x).Keeps (fun _ _ => True) (ReplayInv x) where
  start := by
    rintro t pool i c s' st - h - - hbegins
    have hbegins' : Begins x c t.shared s' st := hbegins
    cases hbegins' with
    | invalid =>
        refine h.push (fun _ _ => .inl) trivial fun output hreplayed => ?_
        cases hreplayed.success
    | valid =>
        refine h.push (fun _ _ => .inl) trivial fun output hreplayed => ?_
        cases hreplayed.success
  turn := by
    rintro t pool i reply c st q k a s' st' - h - hi hnow - hturn
    exact h.turn hi hnow hturn

end Turn

/-! ## Later requests under a taken key -/

/-- What a request is answered that differs from the stored one. -/
def answerTo (x : ToolExecutor) (s : ToolState) (c : ToolCall) : Refusal :=
  match c.verdict x s with
  | .error refusal => refusal
  | .ok _ => idempotencyConflict

/-- What such a request can come to. -/
def Stage.Late (x : ToolExecutor) (s : ToolState) (c : ToolCall) : Stage → Prop
  | .requested | .raised _ => True
  | .closing refusal => refusal = answerTo x s c
  | .returned outcome => outcome = c.refused (answerTo x s c)
  | _ => False

/-- The segment does not go to the adapter, and answers with nothing but the
refusal. -/
structure Refused (x : ToolExecutor) (s : ToolState) (l : ToolLabel) : Prop where
  quiet : ¬ CallsOut l
  answer : ∀ outcome, l.stop = .returned outcome → outcome = l.call.refused (answerTo x s l.call)

/-- Since the state `t`, in which `key` belongs to the request with this
digest, the calls that carry the key and another digest have been refused. -/
structure LateInv (x : ToolExecutor) (t : ToolSys) (key : CacheKey) (digest : String)
    (w : ToolWorld) (pool : Pool ToolCall Stage) : Prop where
  extends' : Extends t.shared w.shared
  stages : ∀ i c st, pool i = some (c, st) → t.threads i = none → HasKey c key →
    requestDigest x c.request ≠ digest → st.Late x t.shared c
  labels : ∀ l ∈ w.trace, t.threads l.thread = none → HasKey l.call key →
    requestDigest x l.call.request ≠ digest → Refused x t.shared l

/-- The checks before the store depend on the registry alone. -/
theorem verdict_congr {x : ToolExecutor} {s s' : ToolState} (h : s'.registry = s.registry)
    (c : ToolCall) : c.verdict x s' = c.verdict x s := by
  simp only [ToolCall.verdict, checks, h]

section Late

variable {x : ToolExecutor} {t u : ToolSys} {key : CacheKey} {digest : String}
  {pool : Pool ToolCall Stage} {i : ℕ} {c : ToolCall}

/-- A stage that a late request can come to is reached by a refused segment. -/
theorem Stage.Late.refused {st : Stage} {s : ToolState} (h : st.Late x s c)
    (input : Input Question Answer) : Refused x s ((staging x).label i c input st) := by
  refine ⟨?_, ?_⟩
  · rintro ⟨toolId, arguments, context, hstop⟩
    cases st with
    | running => exact h
    | _ => cases hstop
  · intro outcome hstop
    cases st with
    | returned outcome' =>
        cases hstop
        exact h
    | _ => cases hstop

/-- One step more keeps a call with a used key late. -/
theorem LateInv.push (h : LateInv x t key digest u.toWorld pool) {s' : ToolState}
    (hs : Extends u.shared s') {st : Stage} {input : Input Question Answer}
    (hstage : t.threads i = none → HasKey c key → requestDigest x c.request ≠ digest →
      st.Late x t.shared c) :
    LateInv x t key digest (u.toWorld.push s' ((staging x).label i c input st))
      (pool.put i c st) := by
  refine ⟨h.extends'.trans hs, ?_, ?_⟩
  · intro j d v hj hnone hkey hdigest
    rcases Pool.put_eq_some.1 hj with ⟨rfl, rfl, rfl⟩ | ⟨-, hj⟩
    · exact hstage hnone hkey hdigest
    · exact h.stages j d v hj hnone hkey hdigest
  · intro l hl hnone hkey hdigest
    rw [World.push_trace, List.mem_append, List.mem_singleton] at hl
    rcases hl with hl | rfl
    · exact h.labels l hl hnone hkey hdigest
    · exact (hstage hnone hkey hdigest).refused input

/-- A late request is refused by a gate, or for the taken key. -/
theorem LateInv.late (h : LateInv x t key digest u.toWorld pool) {record : IdempotencyRecord}
    (hrecord : t.shared.records key = some record) (hdigest : record.requestDigest = digest)
    (hkey : HasKey c key) (hne : requestDigest x c.request ≠ digest) {st st' : Stage}
    {y : Exchange Question Answer} {s' : ToolState} (hst : st.Late x t.shared c)
    (hturn : Turn x c u.shared st y s' st') : st'.Late x t.shared c := by
  rcases hkey with ⟨k, hk, rfl⟩
  -- the record may have been stored again, with the same digest
  rcases h.extends'.records _ _ hrecord with ⟨record', hrecord', hdigest'⟩
  have hverdict := verdict_congr (x := x) h.extends'.registry c
  cases hturn with
  | unrecorded => trivial
  | refused hrefused =>
      rw [hverdict] at hrefused
      simp [Stage.Late, answerTo, hrefused]
  | fresh hfresh =>
      rw [hfresh.unrecorded k hk] at hrecord'
      cases hrecord'
  | conflict hok =>
      rw [hverdict] at hok
      simp [Stage.Late, answerTo, hok]
  | known _ hk' hrecord'' heq =>
      rw [hk] at hk'
      cases hk'
      rw [hrecord'] at hrecord''
      cases hrecord''
      -- a replay needs the digest of the record
      exact absurd (heq.symm.trans (hdigest'.trans hdigest)) hne
  | invalidVerdict => trivial
  | closed =>
      obtain rfl := hst
      rfl
  | _ => exact absurd hst id

/-- Once a record is stored, every call with its key comes too late to execute. -/
theorem lateInv_keeps {record : IdempotencyRecord} (hrecord : t.shared.records key = some record)
    (hdigest : record.requestDigest = digest) :
    (staging x).Keeps (fun _ _ => True) (LateInv x t key digest) where
  start := by
    rintro u pool i c s' st - h - - hbegins
    have hbegins' : Begins x c u.shared s' st := hbegins
    cases hbegins' with
    | invalid => exact h.push (Extends.refl _) fun _ _ _ => trivial
    | valid => exact h.push (Extends.refl _) fun _ _ _ => trivial
  turn := by
    rintro u pool i reply c st q k a s' st' - h - hi hnow - hturn
    refine h.push (Turn.extends hturn) fun hnone hkey hne => ?_
    exact h.late hrecord hdigest hkey hne (h.stages i c st hi hnone hkey hne) hturn

end Late

/-! ## The result -/

section Result

variable {x : ToolExecutor} {registry : ToolRegistry} {xs : List (Step ToolCall Question Answer)}

/-- No record is stored yet. -/
def emptyStore (registry : ToolRegistry) : ToolState := ⟨registry, fun _ => none⟩

/-- The system after a schedule, from an empty store. -/
def served (x : ToolExecutor) (registry : ToolRegistry) (xs : List (Step ToolCall Question Answer)) :
    ToolSys :=
  run (ToolCall.prog x) (init (emptyStore registry)) xs

/-- SHA-256 does not collide on the requests of the run. -/
def CollisionFree (x : ToolExecutor) (xs : List (Step ToolCall Question Answer)) : Prop :=
  ∀ i c j d, .call i c ∈ xs → .call j d ∈ xs →
    requestDigest x c.request = requestDigest x d.request →
    Json.dumps (immutable c.request) = Json.dumps (immutable d.request)

/-- Where digests do not collide, equal digests mean the same request. -/
theorem CollisionFree.sameRequest (h : CollisionFree x xs) {l l' : ToolLabel}
    (hl : .call l.thread l.call ∈ xs) (hl' : .call l'.thread l'.call ∈ xs)
    (hdigest : requestDigest x l.call.request = requestDigest x l'.call.request) :
    SameRequest l.call.request l'.call.request :=
  dumps_immutable_iff.1 (h _ _ _ _ hl hl' hdigest)

/-- So it is after any run. -/
theorem replayInv_run (x : ToolExecutor) (registry : ToolRegistry)
    (xs : List (Step ToolCall Question Answer)) :
    (staging x).Staged (ReplayInv x) (served x registry xs) := by
  apply (replayInv_keeps x).run_inv (staging_follows x) _ xs fun _ _ _ _ => trivial
  refine ⟨fun _ => none, Staging.describes_init _, ?_, ?_, ?_⟩
  · intro key record hrecord
    cases hrecord
  · intro i c st hi
    cases hi
  · intro pre l post htrace
    simp [init] at htrace

/-- A recorded step belongs to a call of the run. -/
theorem call_of_mem {l : ToolLabel} (h : l ∈ (served x registry xs).trace) :
    .call l.thread l.call ∈ xs := by
  have hstarted := run_started (ToolCall.prog x) (emptyStore registry) xs
  rcases hstarted.trace l h with ⟨th, hth, hcall⟩
  rw [← hcall]
  exact hstarted.threads _ th hth

/-- A replayed output was produced by an earlier execution of the same request,
and with the same authority. -/
theorem replay_origin (hcollision : CollisionFree x xs) {pre post : List ToolLabel} {l : ToolLabel}
    (htrace : (served x registry xs).trace = pre ++ l :: post) {output : Json}
    (hreplayed : Replayed pre l output) :
    ∃ l' ∈ pre, Delivers l' output ∧ SameRequest l'.call.request l.call.request ∧
      SameAuthority l'.call.request.executionContext l.call.request.executionContext := by
  rcases replayInv_run x registry xs with ⟨pool, -, hinv⟩
  rcases hinv.replays pre l post htrace output hreplayed with ⟨l', hl', hdelivers, hdigest⟩
  have hpre : l' ∈ (served x registry xs).trace := by
    rw [htrace]
    exact List.mem_append_left _ hl'
  have hmem : l ∈ (served x registry xs).trace := by
    rw [htrace]
    exact List.mem_append_right _ List.mem_cons_self
  have hsame : SameRequest l'.call.request l.call.request :=
    hcollision.sameRequest (call_of_mem hpre) (call_of_mem hmem) hdigest
  exact ⟨l', hl', hdelivers, hsame, hsame.authority⟩

/-- What holds from a state on in which a record is stored. -/
theorem later_refused {pre : List (Step ToolCall Question Answer)} {key : CacheKey}
    {record : IdempotencyRecord}
    (hrecord : (served x registry pre).shared.records key = some record)
    (post : List (Step ToolCall Question Answer)) :
    (∃ record', (served x registry (pre ++ post)).shared.records key = some record' ∧
      record'.requestDigest = record.requestDigest) ∧
      ∀ l ∈ (served x registry (pre ++ post)).trace,
        (served x registry pre).threads l.thread = none → HasKey l.call key →
        requestDigest x l.call.request ≠ record.requestDigest →
        Refused x (emptyStore registry) l := by
  rcases replayInv_run x registry pre with ⟨pool, hpool, -⟩
  have hstarted := run_started (ToolCall.prog x) (emptyStore registry) pre
  have hextends : Extends (emptyStore registry) (served x registry pre).shared :=
    run_extends (Staging.describes_init (emptyStore registry)) pre
  have hrun : served x registry (pre ++ post) =
      run (ToolCall.prog x) (served x registry pre) post := run_append ..
  rw [hrun]
  refine ⟨(run_extends hpool post).records key record hrecord, ?_⟩
  -- nothing has happened since: no late call has made a step
  have hbase : LateInv x (served x registry pre) key record.requestDigest
      (served x registry pre).toWorld pool := by
    refine ⟨Extends.refl _, ?_, ?_⟩
    · intro i c st hi hnone
      rw [hpool.thread_none.1 hnone] at hi
      cases hi
    · intro l hl hnone
      rcases hstarted.trace l hl with ⟨th, hth, -⟩
      rw [show (run (ToolCall.prog x) (init (emptyStore registry)) pre).threads l.thread = none
        from hnone] at hth
      cases hth
  rcases (lateInv_keeps hrecord rfl).run_inv (staging_follows x) ⟨pool, hpool, hbase⟩ post
    fun _ _ _ _ => trivial with ⟨pool', -, hinv⟩
  intro l hl hnone hkey hdigest
  have hrefused := hinv.labels l hl hnone hkey hdigest
  refine ⟨hrefused.quiet, ?_⟩
  -- what a call is refused for does not depend on the store
  have hanswer : answerTo x (served x registry pre).shared l.call =
      answerTo x (emptyStore registry) l.call := by
    rw [answerTo, answerTo, verdict_congr hextends.registry]
  rw [← hanswer]
  exact hrefused.answer

/-- The execution that a stored output comes from. -/
structure Origin (x : ToolExecutor) (trace : List ToolLabel) (key : CacheKey)
    (record : IdempotencyRecord) (l : ToolLabel) : Prop where
  mem : l ∈ trace
  delivers : Delivers l record.output
  hasKey : HasKey l.call key
  digest : requestDigest x l.call.request = record.requestDigest

/-- What the store is for, in the run of a schedule. -/
structure Idempotent (x : ToolExecutor) (registry : ToolRegistry)
    (xs : List (Step ToolCall Question Answer)) : Prop where
  /-- A replayed output comes from an earlier execution of the same request,
  with the same authority. -/
  origin : ∀ pre l post output, (served x registry xs).trace = pre ++ l :: post →
    Replayed pre l output → ∃ l' ∈ pre, Delivers l' output ∧
      SameRequest l'.call.request l.call.request ∧
      SameAuthority l'.call.request.executionContext l.call.request.executionContext
  /-- A stored record keeps its digest. -/
  kept : ∀ pre post key record, xs = pre ++ post →
    (served x registry pre).shared.records key = some record →
    ∃ record', (served x registry xs).shared.records key = some record' ∧
      record'.requestDigest = record.requestDigest
  /-- It has an origin, and a later request with its key that is not the same
  as that of its origin never goes to the adapter. It is refused by the first
  gate that it does not pass, and for the taken key when it passes them all. -/
  later : ∀ pre post key record, xs = pre ++ post →
    (served x registry pre).shared.records key = some record →
    ∃ l₀, Origin x (served x registry pre).trace key record l₀ ∧
      ∀ l ∈ (served x registry xs).trace, (served x registry pre).threads l.thread = none →
        HasKey l.call key → ¬ SameRequest l₀.call.request l.call.request →
        Refused x (emptyStore registry) l

/-- Every stored record has a call it comes from. -/
theorem exists_origin {key : CacheKey} {record : IdempotencyRecord}
    (hrecord : (served x registry xs).shared.records key = some record) :
    ∃ l₀, Origin x (served x registry xs).trace key record l₀ := by
  rcases replayInv_run x registry xs with ⟨pool, -, hinv⟩
  rcases hinv.records key record hrecord with ⟨l₀, hmem, hdelivers, hkey, hdigest⟩
  exact ⟨l₀, hmem, hdelivers, hkey, hdigest⟩

/-- Overlapping calls of any requests, from an empty store, are idempotent. -/
theorem replays_and_conflicts (x : ToolExecutor) (registry : ToolRegistry)
    (xs : List (Step ToolCall Question Answer)) (hcollision : CollisionFree x xs) :
    Idempotent x registry xs where
  origin := fun _ _ _ _ htrace hreplayed => replay_origin hcollision htrace hreplayed
  kept := by
    rintro pre post key record rfl hrecord
    exact (later_refused hrecord post).1
  later := by
    rintro pre post key record rfl hrecord
    rcases exists_origin hrecord with ⟨l₀, horigin⟩
    refine ⟨l₀, horigin, ?_⟩
    intro l hl hnone hkey hdiffers
    apply (later_refused hrecord post).2 l hl hnone hkey
    intro hdigest
    apply hdiffers
    -- equal digests come of equal requests, as no two of the run collide
    apply hcollision.sameRequest _ (call_of_mem hl) (horigin.digest.trans hdigest.symm)
    exact List.mem_append_left _ (call_of_mem horigin.mem)

end Result

/-- The two diagnostic requests are different ones. -/
theorem diagnosticRequest_differs (correlationId other : String) :
    ¬ SameRequest (diagnosticRequest correlationId "hello from GENESIS")
      (diagnosticRequest other "a different payload") := by
  intro h
  have harguments := h.arguments
  simp [diagnosticRequest, Json.Fields.Same, Json.Same, Json.sortKeys, Json.sortKeysItems,
    Json.sortItems, Json.insertByKey] at harguments

/-- The digest of the request with another argument. -/
theorem requestDigest_different (correlationId : String) :
    requestDigest diagnosticExecutor (diagnosticRequest correlationId "a different payload") =
      "d5d2025f4f9b0e9c5879ff85212915be43896a5a3c74a9d60379d7c3e91ed28d" := by
  have hne : Json.dumps (immutable (diagnosticRequest "corr_tool_001" "a different payload")) ≠
      Json.dumps (immutable (diagnosticRequest "corr_tool_001" "hello from GENESIS")) := by
    intro h
    exact diagnosticRequest_differs _ _ (dumps_immutable_iff.1 h.symm)
  rw [requestDigest, immutable_diagnosticRequest _ "corr_tool_001"]
  simp only [diagnosticExecutor, diagnosticSha256, hne, ↓reduceIte]

/-- A call, its retry, and another payload under the same key. -/
def retried : List (Step ToolCall Question Answer) :=
  lone ++ [.call 1 (diagnosticCall "corr_tool_replay_002" "hello from GENESIS"),
    .resume 1 diagnosticAnswers, .resume 1 diagnosticAnswers, .resume 1 diagnosticAnswers,
    .call 2 (diagnosticCall "corr_tool_conflict_003" "a different payload"),
    .resume 2 diagnosticAnswers, .resume 2 diagnosticAnswers]

/-- The two digests of the run differ. -/
theorem collisionFree_retried : CollisionFree diagnosticExecutor retried := by
  have hcalls : ∀ i c, .call i c ∈ retried →
      (∃ a, c.request = diagnosticRequest a "hello from GENESIS") ∨
        ∃ a, c.request = diagnosticRequest a "a different payload" := by
    intro i c hc
    simp only [retried, lone, List.mem_append, List.mem_cons, Step.call.injEq, reduceCtorEq,
      List.not_mem_nil, or_false, false_or] at hc
    rcases hc with ⟨-, rfl⟩ | ⟨-, rfl⟩ | ⟨-, rfl⟩
    · exact .inl ⟨_, rfl⟩
    · exact .inl ⟨_, rfl⟩
    · exact .inr ⟨_, rfl⟩
  intro i c j d hc hd hdigest
  -- two payloads in all, whose digests are evaluated
  rcases hcalls i c hc with ⟨a, ha⟩ | ⟨a, ha⟩ <;> rcases hcalls j d hd with ⟨b, hb⟩ | ⟨b, hb⟩ <;>
    rw [ha, hb] at hdigest ⊢
  · rw [immutable_diagnosticRequest a b]
  · rw [requestDigest_hello, requestDigest_different] at hdigest
    exact absurd hdigest (by decide)
  · rw [requestDigest_hello, requestDigest_different] at hdigest
    exact absurd hdigest (by decide)
  · rw [immutable_diagnosticRequest a b]

/-- A call that is repeated, and one that uses its key for something else. -/
theorem replays_and_conflicts_retried :
    Idempotent diagnosticExecutor (getToolRegistry true) retried :=
  replays_and_conflicts diagnosticExecutor (getToolRegistry true) retried collisionFree_retried

/-! ## A later request that a gate refuses -/

/-- Every later request that differs from the stored one is answered
`IDEMPOTENCY_CONFLICT`. -/
def AnswersConflict (x : ToolExecutor) (registry : ToolRegistry)
    (xs : List (Step ToolCall Question Answer)) : Prop :=
  ∀ pre post key record l₀, xs = pre ++ post →
    (served x registry pre).shared.records key = some record →
    Origin x (served x registry pre).trace key record l₀ →
    ∀ l ∈ (served x registry xs).trace, (served x registry pre).threads l.thread = none →
      HasKey l.call key → ¬ SameRequest l₀.call.request l.call.request →
      ∀ outcome, l.stop = .returned outcome → outcome = l.call.refused idempotencyConflict

/-- Another payload under the same key, from nobody that is known. -/
def strangerCall : ToolCall :=
  { diagnosticCall "corr_tool_stranger_002" "a different payload" with principal := none }

/-- A call of another actor with the key that is in use. -/
def intruded : List (Step ToolCall Question Answer) :=
  lone ++ [.call 1 strangerCall, .resume 1 diagnosticAnswers, .resume 1 diagnosticAnswers]

/-- The segment answers `AUTHORIZATION_DENIED`. -/
def deniedAuthorization (l : ToolLabel) : Bool :=
  match l.stop with
  | .returned outcome => outcome.result.error.map ToolError.code = some "AUTHORIZATION_DENIED"
  | _ => false

/-- It is denied for its authority, not for the key. -/
theorem stranger_denied : ¬ AnswersConflict diagnosticExecutor (getToolRegistry true) intruded := by
  intro h
  have hstored : ((served diagnosticExecutor (getToolRegistry true) lone).shared.records
      diagnosticKey).isSome = true := by
    decide +kernel
  have hdenied : (served diagnosticExecutor (getToolRegistry true) intruded).trace.any
      (fun l => l.thread = 1 ∧ deniedAuthorization l = true) = true := by
    decide +kernel
  rcases Option.isSome_iff_exists.1 hstored with ⟨record, hrecord⟩
  rcases exists_origin hrecord with ⟨l₀, horigin⟩
  rcases List.any_eq_true.1 hdenied with ⟨l, hl, hl'⟩
  simp only [decide_eq_true_eq] at hl'
  -- the record is that of the first caller
  have hcall₀ : l₀.call = diagnosticCall "corr_tool_001" "hello from GENESIS" := by
    have hmem := call_of_mem horigin.mem
    simp only [lone, List.mem_cons, Step.call.injEq, reduceCtorEq, List.not_mem_nil,
      or_false] at hmem
    exact hmem.2
  have hcall : l.call = strangerCall := by
    have hmem := call_of_mem hl
    simp only [intruded, lone, List.mem_append, List.mem_cons, Step.call.injEq, reduceCtorEq,
      List.not_mem_nil, or_false, hl'.1] at hmem
    simpa using hmem
  -- the stranger starts after the record is stored
  have hnone : (served diagnosticExecutor (getToolRegistry true) lone).threads l.thread = none := by
    apply run_threads_none rfl
    intro c hc
    simp [lone, hl'.1] at hc
  have hanswer := h lone _ diagnosticKey record l₀ rfl hrecord horigin l hl hnone
    (by rw [hcall]; exact ⟨_, rfl, rfl⟩)
    (by rw [hcall₀, hcall]; exact diagnosticRequest_differs _ _)
  have hdeny := hl'.2
  simp only [deniedAuthorization] at hdeny
  split at hdeny
  · rename_i outcome hstop
    rw [hanswer outcome hstop] at hdeny
    simp [ToolCall.refused, ToolCall.outcome, errorResult, idempotencyConflict, rejected] at hdeny
  · cases hdeny

end Alos.Tools
