import Alos.Tools.Replays

/-! # What an output may be

Overlapping calls of any requests, from an empty store. What the adapters answer
to the calls that pass the checks may be said of every success of a run, when it
carries over to another call of the same digest: a replay has no other output.

* `Upheld` is what has to be shown of the checks and of the adapters;
* `Upholding` is the invariant of the run, for the calls under way and for what
  is stored;
* `upheld_run` is the result.
-/

namespace Alos.Tools

open Coop

/-- The calls that pass are `Passed`, and what the adapters answer to them is
`Good`. -/
structure Upheld (x : ToolExecutor) (registry : ToolRegistry)
    (xs : List (Step ToolCall Question Answer)) (Passed : ToolCall → Prop)
    (Good : ToolCall → Json → Prop) : Prop where
  checked : ∀ i c s registration, .call i c ∈ xs → s.registry = registry →
    c.verdict x s = .ok registration → Passed c
  answered : ∀ i reply c output, .resume i reply ∈ xs → Passed c →
    reply (.execute c.request.toolId c.request.arguments c.request.executionContext) =
      .returned output → Good c output
  /-- What is good for a call is good for another one of the same digest. -/
  same : ∀ i a j c output, .call i a ∈ xs → .call j c ∈ xs →
    requestDigest x a.request = requestDigest x c.request → Passed c →
    Good a output → Good c output

section Upheld

variable {x : ToolExecutor} {registry : ToolRegistry} {xs : List (Step ToolCall Question Answer)}
  {Passed : ToolCall → Prop} {Good : ToolCall → Json → Prop}

/-! ## The invariant -/

variable (Passed Good) in
/-- What is known of a call at a stage. -/
def Stage.Upholds (c : ToolCall) : Stage → Prop
  | .running => Passed c
  | .storing output | .replaying output | .replayed output => Passed c ∧ Good c output
  | .returned outcome => ∀ output, outcome.result.output = some output → Passed c ∧ Good c output
  | _ => True

variable (Passed Good) in
/-- What is known of a segment. -/
structure Told (l : ToolLabel) : Prop where
  executed : CallsOut l → Passed l.call
  succeeded : ∀ output, succeededOutput l = some output → Passed l.call ∧ Good l.call output

variable (x registry xs Passed Good) in
structure Upholding (w : ToolWorld) (pool : Pool ToolCall Stage) : Prop where
  registry : w.shared.registry = registry
  sent : ∀ i c st, pool i = some (c, st) → ∃ j, .call j c ∈ xs
  stages : ∀ i c st, pool i = some (c, st) → st.Upholds Passed Good c
  -- what is stored is good for a call with the digest
  records : ∀ key record, w.shared.records key = some record → ∃ j a, .call j a ∈ xs ∧
    requestDigest x a.request = record.requestDigest ∧ Good a record.output
  labels : ∀ l ∈ w.trace, Told Passed Good l

section Turns

variable {w : ToolWorld} {pool : Pool ToolCall Stage} {i : ℕ} {c : ToolCall}

theorem told_of_upholds {input : Input Question Answer} {st : Stage}
    (h : st.Upholds Passed Good c) : Told Passed Good ((staging x).label i c input st) where
  executed := by
    rintro ⟨toolId, arguments, context, hstop⟩
    -- an output leaves the executor with the answer of the call
    cases st with
    | running => exact h
    | _ => cases hstop
  succeeded := by
    intro output houtput
    cases st with
    | returned outcome =>
        apply h output
        have hresult : (if outcome.result.status = .success then outcome.result.output else none) =
            some output := houtput
        split at hresult
        · exact hresult
        · cases hresult
    | _ => cases houtput

/-- One segment: only what is new has to be looked at. -/
theorem Upholding.push (h : Upholding x registry xs Passed Good w pool) {s' : ToolState}
    {st : Stage} {input : Input Question Answer} {j : ℕ} (hsent : .call j c ∈ xs)
    (hregistry : s'.registry = w.shared.registry)
    (hrecords : ∀ key record, s'.records key = some record → w.shared.records key = some record ∨
      (requestDigest x c.request = record.requestDigest ∧ Good c record.output))
    (hstage : st.Upholds Passed Good c) :
    Upholding x registry xs Passed Good (w.push s' ((staging x).label i c input st))
      (pool.put i c st) := by
  refine ⟨hregistry.trans h.registry, ?_, ?_, ?_, ?_⟩
  · intro k d u hk
    rcases Pool.put_eq_some.1 hk with ⟨-, rfl, -⟩ | ⟨-, hk⟩
    · exact ⟨j, hsent⟩
    · exact h.sent k d u hk
  · intro k d u hk
    rcases Pool.put_eq_some.1 hk with ⟨-, rfl, rfl⟩ | ⟨-, hk⟩
    · exact hstage
    · exact h.stages k d u hk
  · intro key record hrecord
    -- a record is an earlier one, or what this call has just stored
    rcases hrecords key record hrecord with hold | ⟨hdigest, hgood⟩
    · exact h.records key record hold
    · exact ⟨j, c, hsent, hdigest, hgood⟩
  · intro l hl
    rcases List.mem_append.1 hl with hl | hl
    · exact h.labels l hl
    · rw [List.mem_singleton.1 hl]
      exact told_of_upholds hstage

/-- What is stored under the digest of a call is good for it. -/
theorem Upholding.good_stored (h : Upholding x registry xs Passed Good w pool)
    (hupheld : Upheld x registry xs Passed Good) {j : ℕ} (hsent : .call j c ∈ xs)
    (hpassed : Passed c) {key : CacheKey} {record : IdempotencyRecord}
    (hrecord : w.shared.records key = some record)
    (hdigest : record.requestDigest = requestDigest x c.request) : Good c record.output := by
  rcases h.records key record hrecord with ⟨k, a, ha, hsame, hgood⟩
  exact hupheld.same k a j c record.output ha hsent (hsame.trans hdigest) hpassed hgood

/-- Every segment keeps the invariant. -/
theorem upholding_keeps (hupheld : Upheld x registry xs Passed Good) :
    (staging x).Keeps (fun _ step => step ∈ xs) (Upholding x registry xs Passed Good) where
  start := by
    intro t pool i c s' st hpool h hstep hi hbegins
    have hbegins' : Begins x c t.shared s' st := hbegins
    cases hbegins' with
    | invalid => exact h.push hstep rfl (fun _ _ => .inl) trivial
    | valid => exact h.push hstep rfl (fun _ _ => .inl) trivial
  turn := by
    intro t pool i reply c st q k a s' st' hpool h hstep hi hnow hreply hturn
    rcases h.sent i c st hi with ⟨j, hsent⟩
    have hold := h.stages i c st hi
    have hturn' : Turn x c t.shared st ⟨q, a⟩ s' st' := hturn
    -- a segment that stores nothing
    have hquiet : s' = t.shared → st'.Upholds Passed Good c →
        Upholding x registry xs Passed Good
          (t.toWorld.push s' ((staging x).label i c (.answer ⟨q, a⟩) st')) (pool.put i c st') := by
      rintro rfl hstage
      exact h.push hsent rfl (fun _ _ => .inl) hstage
    have hchecked : ∀ {registration}, c.verdict x t.shared = .ok registration → Passed c :=
      fun hverdict => hupheld.checked j c t.shared _ hsent h.registry hverdict
    cases hturn' with
    | fresh hfresh =>
        rcases hfresh.verdict with ⟨registration, hverdict⟩
        exact hquiet rfl (hchecked hverdict)
    | known hverdict hkey hrecord hdigest =>
        have hpassed := hchecked hverdict
        exact hquiet rfl ⟨hpassed, h.good_stored hupheld hsent hpassed hrecord hdigest⟩
    | executed =>
        cases hnow
        exact hquiet rfl ⟨hold, hupheld.answered i reply c _ hstep hold hreply⟩
    | closed =>
        refine hquiet rfl fun output houtput => ?_
        cases houtput
    | unkeyed hkey =>
        refine hquiet rfl fun output houtput => ?_
        cases houtput
        exact hold
    | stored hkey hfree =>
        rename_i record output key
        refine h.push hsent rfl (fun key' record' hrecord' => ?_) fun output' houtput => ?_
        · rw [setRecord_records] at hrecord'
          by_cases hkey' : key' = cacheKey c.request key
          · subst hkey'
            rw [Function.update_self] at hrecord'
            cases hrecord'
            exact .inr ⟨rfl, hold.2⟩
          · rw [Function.update_of_ne hkey'] at hrecord'
            exact .inl hrecord'
        · cases houtput
          exact hold
    | recorded => exact hquiet rfl hold
    | replayed =>
        refine hquiet rfl fun output houtput => ?_
        cases houtput
        exact hold
    | _ => exact hquiet rfl trivial

end Turns

/-! ## Every run -/

/-- Nothing goes to an adapter that has not passed, and every success has an
output that is good for it, be it executed or replayed. -/
theorem upheld_run (hupheld : Upheld x registry xs Passed Good) :
    ∀ l ∈ (served x registry xs).trace, Told Passed Good l := by
  have hstaged : (staging x).Staged (Upholding x registry xs Passed Good)
      (served x registry xs) := by
    -- at the start no call runs and nothing is recorded
    apply (upholding_keeps hupheld).run_inv (staging_follows x)
    · refine ⟨fun _ => none, Staging.describes_init _, rfl, ?_, ?_, ?_, ?_⟩
      · intro i c st hi
        cases hi
      · intro i c st hi
        cases hi
      · intro key record hrecord
        cases hrecord
      · intro l hl
        cases hl
    · intro pre step post hsteps
      simp [hsteps]
  rcases hstaged with ⟨pool, -, hinv⟩
  exact hinv.labels

end Upheld

end Alos.Tools
