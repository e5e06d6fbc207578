import Alos.Coop.Serial
import Alos.Releases.Alone
import Alos.Releases.Gates

/-! # Overlapping activations, kill switches and rollbacks

`activate`, `activate_kill_switch`, `clear_kill_switch` and `rollback` take the
lock for each of their writes and release it while they await an append, so
they overlap. A suspended call has the releases `held` in its hands. As long
as no step touches a release in the hands of another call (`Undisturbed`), the
calls commit at their writes to the index, and what is left when all of them
have finished is what the calls that returned leave one after the other
(`undisturbed_serializes`). Without that the code does not protect them
(`lost_supersession`).
-/

namespace Alos.Releases

open Coop

/-! ## Who holds what -/

/-- The releases that a call outside the gates reads and writes first. -/
def Call.touches : Call → List String
  | .activate r _ _ | .activateKillSwitch r _ _ _ | .clearKillSwitch r _ _ _ => [r]
  | .rollback r t _ _ _ => [r, t]
  | _ => []

/-- The releases in the hands of a call that awaits the append of an event:
`activate` first its own and then also the one it supersedes, `rollback` both
until it has written its target back. -/
def held : Call → AuditEvent → List String
  | .activate r _ _, event => if event.outcome = "ACTIVE" then [r] else [r, event.entityId]
  | .activateKillSwitch r _ _ _, _ | .clearKillSwitch r _ _ _, _ => [r]
  | .rollback r t _ _ _, event => if event.eventType = "release.rolled_back" then [r, t] else []
  | _, _ => []

/-- A suspended call whose first record is published, and no more; or an
`activate` that has suspended another release and not yet written the index.
`served` is the state without the call. -/
inductive Pending (s served : InMemoryReleaseAuthority) :
    Call → AuditEvent → (Appended → Op GovernedRelease) → Prop where
  | opened {c o} (hc : ¬ c.IsGate) (ho : c.opening served = some o)
      (hr : s.releases o.releaseId = some o.release)
      (hothers : ∀ r ∈ c.touches, r ≠ o.releaseId → s.releases r = served.releases r) :
      Pending s served c o.event fun answer => (settle answer).bind fun _ => o.rest
  | superseding {r a corr o other old} (ho : (Call.activate r a corr).opening served = some o)
      (hr : s.releases r = some o.release) (hne : other ≠ r)
      (hold : served.releases other = some old) (hactive : old.state = .active)
      (hkeyed : old.releaseId = other)
      (hother : s.releases other = some (old.moved .suspended corr supersededOptions)) :
      Pending s served (.activate r a corr)
        (transitionEvent old (old.moved .suspended corr supersededOptions) a supersededOptions)
        fun answer => (settle answer).bind fun _ =>
          writeIndex o.release.subjectKey (some r) o.release

/-- A rollback that has written its target back and awaits its last append. -/
inductive Settled : Call → AuditEvent → (Appended → Op GovernedRelease) → Prop where
  | restored {r t a reason corr target release} :
      Settled (.rollback r t a reason corr)
        (auditEvent (GovernedRelease.restored target corr) a "release.rollback_target_activated"
          "ACTIVE" .human reason [])
        fun answer => (settle answer).bind fun _ => .ret release

/-- The checks of a call look at the releases it touches. -/
theorem opening_congr {s s' : InMemoryReleaseAuthority} {c : Call} (hc : ¬ c.IsGate)
    (h : ∀ r ∈ c.touches, s'.releases r = s.releases r) : c.opening s' = c.opening s := by
  cases c with
  | activate r a c => simp only [Call.opening, opens, h r (by simp [Call.touches])]
  | activateKillSwitch r a reason c =>
      simp only [Call.opening, opens, h r (by simp [Call.touches])]
  | clearKillSwitch r a reason c =>
      simp only [Call.opening, opens, h r (by simp [Call.touches])]
  | rollback r t a reason c =>
      simp only [Call.opening, opens, h r (by simp [Call.touches]), h t (by simp [Call.touches])]
  | _ => exact absurd trivial hc

/-- Outside the gates, a call first writes one of the releases it touches, and has them all in its
hands while the first event is appended. -/
theorem opening_touches {s : InMemoryReleaseAuthority} {c : Call} {o : Opening}
    (hc : ¬ c.IsGate) (ho : c.opening s = some o) :
    o.releaseId ∈ c.touches ∧ held c o.event = c.touches := by
  -- the first write is of the release that the call names
  cases c with
  | activate r a c =>
      rw [Call.opening] at ho
      obtain ⟨current, -, -, rfl⟩ := opens_eq_some ho
      exact ⟨by simp [Call.touches], rfl⟩
  | activateKillSwitch r a reason c =>
      rw [Call.opening] at ho
      obtain ⟨current, -, -, rfl⟩ := opens_eq_some ho
      exact ⟨by simp [Call.touches], rfl⟩
  | clearKillSwitch r a reason c =>
      rw [Call.opening] at ho
      obtain ⟨current, -, -, rfl⟩ := opens_eq_some ho
      exact ⟨by simp [Call.touches], rfl⟩
  | rollback r t a reason c =>
      rw [Call.opening] at ho
      split at ho
      · cases ho
      · obtain ⟨current, -, -, rfl⟩ := opens_eq_some ho
        exact ⟨by simp [Call.touches], rfl⟩
  | _ => exact absurd trivial hc

/-- While the release before is being suspended, both are in the call's hands. -/
theorem held_superseding (r a corr : String) (old : GovernedRelease) :
    held (.activate r a corr)
        (transitionEvent old (old.moved .suspended corr supersededOptions) a supersededOptions) =
      [r, old.releaseId] := rfl

/-- What is pending depends on the releases in the call's hands, and on no other. -/
theorem pending_congr {s s' served served' : InMemoryReleaseAuthority} {c : Call}
    {event : AuditEvent} {k : Appended → Op GovernedRelease} (h : Pending s served c event k)
    (hsame : ∀ r, r ∈ held c event → s'.releases r = s.releases r ∧
      served'.releases r = served.releases r) : Pending s' served' c event k := by
  cases h with
  | @opened c o hc ho hr hothers =>
      obtain ⟨hid, hheld⟩ := opening_touches hc ho
      rw [hheld] at hsame
      refine .opened hc ?_ ?_ ?_
      · rw [opening_congr hc fun r hr => (hsame r hr).2]
        exact ho
      · rw [(hsame _ hid).1]
        exact hr
      · intro r hmem hne
        rw [(hsame r hmem).1, (hsame r hmem).2]
        exact hothers r hmem hne
  | @superseding r a corr o other old ho hr hne hold hactive hkeyed hother =>
      rw [held_superseding, hkeyed] at hsame
      -- both the release and the one that it replaces are held
      have hsr := hsame r (by simp)
      have hso := hsame other (by simp)
      refine .superseding ?_ (hsr.1.trans hr) hne (hso.2.trans hold) hactive hkeyed
        (hso.1.trans hother)
      have hgate : ¬ (Call.activate r a corr).IsGate := fun hgate => hgate
      rw [opening_congr hgate]
      · exact ho
      · intro r' hr'
        simp only [Call.touches, List.mem_singleton] at hr'
        exact hr' ▸ hsr.2

/-- The ledger of the four operations. -/
def ledger : Ledger Call InMemoryReleaseAuthority AuditEvent (fun _ => Appended) ReleaseError
    GovernedRelease String (Option GovernedRelease) (SubjectKey → Option String) where
  cell s := s.releases
  rest s := s.activeBySubject
  serve s c := (perform s c.prog quiet).1
  Inv := WellKeyed
  holds c event r := r ∈ held c event
  Pending := Pending
  Settled := Settled
  pending_congr h hsame := pending_congr h hsame
  settled_free := by
    rintro _ _ _ ⟨⟩ r hr
    simp [held, auditEvent] at hr

@[simp] theorem ledger_cell (s : InMemoryReleaseAuthority) (r : String) :
    ledger.cell s r = s.releases r := rfl

@[simp] theorem ledger_rest (s : InMemoryReleaseAuthority) :
    ledger.rest s = s.activeBySubject := rfl

@[simp] theorem ledger_serve (s : InMemoryReleaseAuthority) (c : Call) :
    ledger.serve s c = (perform s c.prog quiet).1 := rfl

@[simp] theorem ledger_holds (c : Call) (event : AuditEvent) (r : String) :
    ledger.holds c event r ↔ r ∈ held c event := Iff.rfl

/-! ## Undisturbed steps -/

abbrev ReleaseSys :=
  Sys Call InMemoryReleaseAuthority AuditEvent (fun _ => Appended) ReleaseError GovernedRelease

/-- A step of a run of overlapping calls. -/
abbrev ReleaseStep := Step Call AuditEvent fun _ => Appended

/-- What an `activate` finds when it goes on after an append: first the
release that the index names, which it must be able to suspend; then the index
as it left it. -/
def Finds (t : ReleaseSys) : Call → AuditEvent → Prop
  | .activate r _ _, event =>
      ∀ current, t.shared.releases r = some current →
        if event.outcome = "ACTIVE" then
          ∀ other, t.shared.activeBySubject current.subjectKey = some other → other ≠ r →
            ledger.Free t other ∧
              ∃ old, t.shared.releases other = some old ∧ old.state = .active
        else t.shared.activeBySubject current.subjectKey = some event.entityId
  | _, _ => True

/-- The step does not meet another call at work: a call that passes its checks
touches no release in the hands of another one, no append fails, and `activate`
finds the index and the indexed release as it needs them. -/
def Undisturbed (t : ReleaseSys) : ReleaseStep → Prop
  | .call _ c => c.Accepted t.shared → ∀ r ∈ c.touches, ledger.Free t r
  | .resume i reply => ∀ c event k, t.threads i = some ⟨c, .awaiting event k⟩ →
      reply event = .returned ∧ Finds t c event

/-- The first write of a call keeps every release under its own id. -/
theorem opening_keyed {s : InMemoryReleaseAuthority} {c : Call} {o : Opening}
    (hc : ¬ c.IsGate) (h : WellKeyed s) (ho : c.opening s = some o) :
    WellKeyed (s.setRelease o.releaseId o.release) := by
  -- the first write is of the release that the call names
  cases c with
  | activate r a c =>
      rw [Call.opening] at ho
      exact opens_keyed h ho
  | activateKillSwitch r a reason c =>
      rw [Call.opening] at ho
      exact opens_keyed h ho
  | clearKillSwitch r a reason c =>
      rw [Call.opening] at ho
      exact opens_keyed h ho
  | rollback r t a reason c =>
      rw [Call.opening] at ho
      split at ho
      · cases ho
      · exact opens_keyed h ho
  | _ => exact absurd trivial hc

section Moves

variable {t : ReleaseSys} {served : InMemoryReleaseAuthority}

/-- The first segment. -/
theorem start_move {c : Call} (hc : ¬ c.IsGate) (hagrees : ledger.Agrees t served)
    (hkeyed : WellKeyed t.shared)
    (hfree : c.Accepted t.shared → ∀ r ∈ c.touches, ledger.Free t r) :
    WellKeyed (c.prog.advance t.shared).1 ∧
      ledger.Move t served c (fun _ => False) (c.prog.advance t.shared) := by
  have hbegins := prog_begins c t.shared
  cases ho : c.opening t.shared with
  | none =>
      rw [ho] at hbegins
      rcases hbegins with ⟨e, he⟩
      rw [he]
      exact ⟨hkeyed, .refuse fun _ => id⟩
  | some o =>
      rw [ho] at hbegins
      rw [show c.prog.advance t.shared = _ from hbegins]
      have hfree' := hfree (by simp [Call.Accepted, ho])
      -- what the call reads is free, so it is as in the serial state
      have hsame : ∀ r ∈ c.touches, t.shared.releases r = served.releases r :=
        fun r hr => hagrees.cell r (hfree' r hr)
      have hserved : c.opening served = some o := by
        rw [← ho]
        exact opening_congr hc fun r hr => (hsame r hr).symm
      obtain ⟨hid, hheld⟩ := opening_touches hc ho
      refine ⟨opening_keyed hc hkeyed ho, .hold ?_ rfl ?_ (fun _ => False.elim) ?_⟩
      · refine .opened hc hserved (by simp) ?_
        intro r hr hne
        simpa [hne] using hsame r hr
      · intro r hr
        have hne : r ≠ o.releaseId := by
          rintro rfl
          exact hr (show _ ∈ held c o.event by rw [hheld]; exact hid)
        exact Function.update_of_ne hne _ _
      · intro r hr
        have hmem : r ∈ c.touches := hheld ▸ hr
        exact .inr (hfree' r hmem)

/-- `activate` after its first append. -/
theorem activate_move {r a c : String} {o : Opening} (hagrees : ledger.Agrees t served)
    (hkeyed : WellKeyed t.shared) (ho : (Call.activate r a c).opening served = some o)
    (hr : t.shared.releases r = some o.release) (hfinds : Finds t (.activate r a c) o.event) :
    WellKeyed ((supersede o.release r a c).advance t.shared).1 ∧
      ledger.Move t served (.activate r a c) (· ∈ [r])
        ((supersede o.release r a c).advance t.shared) := by
  have hindex_eq : t.shared.activeBySubject = served.activeBySubject := hagrees.rest
  rcases supersede_cases t.shared o.release r with hindex | ⟨other, hindex, hne⟩
  · -- nothing to suspend: the call commits
    rw [supersede_advance hindex]
    have hserve := perform_activate ho (hindex_eq ▸ hindex)
    refine ⟨hkeyed, .commit ?_ ?_ ?_ (.inl ⟨_, rfl⟩)⟩
    · rw [ledger_serve, hserve]
      simp [hindex_eq]
    · intro x hx
      obtain rfl := List.mem_singleton.1 hx
      rw [ledger_serve, hserve]
      simpa using hr
    · intro x hx
      rw [ledger_serve, hserve]
      exact ⟨rfl, Function.update_of_ne (by simpa using hx) _ _⟩
  · -- the indexed release is suspended
    have hphase : o.event.outcome = "ACTIVE" := by
      rw [Call.opening] at ho
      obtain ⟨current, -, -, rfl⟩ := opens_eq_some ho
      rfl
    have hfound := hfinds o.release hr
    rw [if_pos hphase] at hfound
    obtain ⟨hfree, old, hold, hactive⟩ := hfound other hindex hne
    have hbegins := supersede_begins a c hindex hne
    simp only [opens, hold, hactive, if_true] at hbegins
    rw [show (supersede o.release r a c).advance t.shared = _ from hbegins]
    have hid : old.releaseId = other := hkeyed other old hold
    have hheld := held_superseding r a c old
    rw [hid] at hheld
    refine ⟨hkeyed.setRelease hid, .hold ?_ rfl ?_ ?_ ?_⟩
    · refine .superseding ho ?_ hne ?_ hactive hid (by simp)
      · simpa [Ne.symm hne] using hr
      · exact (hagrees.cell other hfree).symm.trans hold
    · intro x hx
      have hx' : x ∉ [r, other] := hheld ▸ hx
      exact Function.update_of_ne (by simp at hx'; exact hx'.2) _ _
    · intro x hx
      rw [ledger_holds, hheld]
      obtain rfl := List.mem_singleton.1 hx
      simp
    · intro x hx
      rw [ledger_holds, hheld] at hx
      simp only [List.mem_cons, List.not_mem_nil, or_false] at hx
      rcases hx with rfl | rfl
      · exact .inl (by simp)
      · exact .inr hfree

/-- `activate` after it has suspended another release. -/
theorem superseding_move {r a c other : String} {o : Opening} {old : GovernedRelease}
    (hagrees : ledger.Agrees t served) (hkeyed : WellKeyed t.shared)
    (ho : (Call.activate r a c).opening served = some o)
    (hr : t.shared.releases r = some o.release) (hne : other ≠ r)
    (hold : served.releases other = some old) (hactive : old.state = .active)
    (hother : t.shared.releases other = some (old.moved .suspended c supersededOptions))
    (hindex : t.shared.activeBySubject o.release.subjectKey = some other) :
    WellKeyed ((writeIndex o.release.subjectKey (some r) o.release).advance t.shared).1 ∧
      ledger.Move t served (.activate r a c) (· ∈ [r, other])
        ((writeIndex o.release.subjectKey (some r) o.release).advance t.shared) := by
  have hindex_eq : t.shared.activeBySubject = served.activeBySubject := hagrees.rest
  -- served alone, the call suspends the same release
  have hserve := perform_activate_other ho (hindex_eq ▸ hindex) hne hold hactive
  refine ⟨hkeyed, .commit ?_ ?_ ?_ (.inl ⟨_, rfl⟩)⟩
  · rw [ledger_serve, hserve]
    simp [hindex_eq]
  · -- both releases are as the call leaves them
    intro x hx
    rw [ledger_serve, hserve]
    simp only [List.mem_cons, List.not_mem_nil, or_false] at hx
    rcases hx with rfl | rfl
    · simpa [Ne.symm hne] using hr
    · simpa using hother
  · intro x hx
    simp only [List.mem_cons, List.not_mem_nil, or_false, not_or] at hx
    rw [ledger_serve, hserve]
    refine ⟨rfl, ?_⟩
    simp [hx.1, hx.2]

/-- A call that has only the index left to write. -/
theorem writeIndex_move {c : Call} {o : Opening} {key : SubjectKey} {v : Option String}
    {r : String} (hagrees : ledger.Agrees t served) (hkeyed : WellKeyed t.shared)
    (hr : t.shared.releases r = some o.release)
    (hserve : (perform served c.prog quiet).1 = (served.setRelease r o.release).setActive key v) :
    WellKeyed ((writeIndex key v o.release).advance t.shared).1 ∧
      ledger.Move t served c (· ∈ [r]) ((writeIndex key v o.release).advance t.shared) := by
  -- nobody has written the entry of the index since the call opened
  have hindex_eq : t.shared.activeBySubject = served.activeBySubject := hagrees.rest
  refine ⟨hkeyed, .commit ?_ ?_ ?_ (.inl ⟨_, rfl⟩)⟩
  · rw [ledger_serve, hserve]
    simp [hindex_eq]
  · intro x hx
    obtain rfl := List.mem_singleton.1 hx
    rw [ledger_serve, hserve]
    simpa using hr
  · intro x hx
    rw [ledger_serve, hserve]
    exact ⟨rfl, Function.update_of_ne (by simpa using hx) _ _⟩

/-- `rollback` after its first append. -/
theorem rollback_move {r target_id a reason c : String} {o : Opening} {target : GovernedRelease}
    (hagrees : ledger.Agrees t served) (hkeyed : WellKeyed t.shared)
    (ho : (Call.rollback r target_id a reason c).opening served = some o)
    (hrest : o.rest = restore o.release target target_id a reason c)
    (hr : t.shared.releases r = some o.release) (hne : target_id ≠ r)
    (htarget : t.shared.releases target_id = some target) :
    WellKeyed ((restore o.release target target_id a reason c).advance t.shared).1 ∧
      ledger.Move t served (.rollback r target_id a reason c) (· ∈ [r, target_id])
        ((restore o.release target target_id a reason c).advance t.shared) := by
  have hindex_eq : t.shared.activeBySubject = served.activeBySubject := hagrees.rest
  have hserve := perform_rollback ho hrest
  -- a restored record is filed under its own id
  have hid : (target.restored c).releaseId = target_id := hkeyed target_id target htarget
  refine ⟨hkeyed.setRelease hid, .commit ?_ ?_ ?_ (.inr ⟨_, _, rfl, .restored⟩)⟩
  · rw [ledger_serve, hserve]
    simp [hindex_eq]
  · intro x hx
    rw [ledger_serve, hserve]
    simp only [List.mem_cons, List.not_mem_nil, or_false] at hx
    rcases hx with rfl | rfl
    · simpa [Ne.symm hne] using hr
    · simp
  · intro x hx
    simp only [List.mem_cons, List.not_mem_nil, or_false, not_or] at hx
    rw [ledger_serve, hserve]
    simp [hx.1, hx.2]

/-- Every later segment of a call that has not committed. -/
theorem resume_move {c : Call} {event : AuditEvent} {k : Appended → Op GovernedRelease}
    (hagrees : ledger.Agrees t served) (hkeyed : WellKeyed t.shared)
    (hpending : Pending t.shared served c event k) (hfinds : Finds t c event) :
    WellKeyed ((k .returned).advance t.shared).1 ∧
      ledger.Move t served c (· ∈ held c event) ((k .returned).advance t.shared) := by
  cases hpending with
  | @opened c o hc ho hr hothers =>
      obtain ⟨-, hheld⟩ := opening_touches hc ho
      rw [hheld]
      -- its append has returned: what is left is the rest of the opening
      change WellKeyed (o.rest.advance t.shared).1 ∧
        ledger.Move t served c (· ∈ c.touches) (o.rest.advance t.shared)
      cases c with
      | activate r a c =>
          obtain ⟨hid, hrest, -⟩ := activate_opening ho
          rw [hrest]
          exact activate_move hagrees hkeyed ho (hid ▸ hr) hfinds
      | activateKillSwitch r a reason c =>
          obtain ⟨hid, hrest, -⟩ := kill_opening ho
          rw [hrest]
          exact writeIndex_move hagrees hkeyed (hid ▸ hr) (perform_kill ho)
      | clearKillSwitch r a reason c =>
          obtain ⟨hid, hrest, -⟩ := clear_opening ho
          rw [hrest]
          exact writeIndex_move hagrees hkeyed (hid ▸ hr) (perform_clear ho)
      | rollback r target_id a reason c =>
          obtain ⟨hid, current, target, -, htarget, hreplaceable, hrest, -⟩ := rollback_opening ho
          have hne : target_id ≠ r := hreplaceable.2.2.1
          rw [hrest]
          apply rollback_move hagrees hkeyed ho hrest (hid ▸ hr) hne
          rw [hothers target_id (by simp [Call.touches]) (by simpa [hid] using hne)]
          exact htarget
      | _ => exact absurd trivial hc
  | @superseding r a c o other old ho hr hne hold hactive hid hother =>
      rw [held_superseding, hid]
      have hfound := hfinds o.release hr
      -- the second event is that of the suspended release
      have hphase : (transitionEvent old (old.moved .suspended c supersededOptions) a
          supersededOptions).outcome ≠ "ACTIVE" := (by decide : "SUSPENDED" ≠ "ACTIVE")
      rw [if_neg hphase] at hfound
      have hindex : t.shared.activeBySubject o.release.subjectKey = some other := by
        rw [hfound]
        exact congrArg some hid
      exact superseding_move hagrees hkeyed ho hr hne hold hactive hother hindex

end Moves

/-- The segments of the four operations keep the ledger. -/
theorem ledger_kept :
    ledger.Keeps Call.prog fun t x => Undisturbed t x ∧ ∀ i c, x = .call i c → ¬ c.IsGate where
  start := by
    rintro t i c served hagrees hkeyed ⟨hfree, hcall⟩ -
    exact start_move (hcall i c rfl) hagrees hkeyed hfree
  resume := by
    rintro t i reply served c event k hagrees hkeyed ⟨hstep, -⟩ hi hpending
    obtain ⟨hreply, hfinds⟩ := hstep c event k hi
    rw [hreply]
    exact resume_move hagrees hkeyed hpending hfinds
  settled := by
    rintro t i reply c event k ⟨hstep, -⟩ hi hsettled
    obtain ⟨hreply, -⟩ := hstep c event k hi
    -- a call whose second write comes after its event
    cases hsettled with
    | @restored r target_id a reason c target release =>
        refine ⟨release, ?_⟩
        rw [hreply]
        rfl

/-! ## Runs -/

/-- The states, the kill flags and the index are the same. -/
def SameView (s s' : InMemoryReleaseAuthority) : Prop :=
  (∀ r, (s.releases r).map (fun release => (release.state, release.killSwitchActive)) =
    (s'.releases r).map fun release => (release.state, release.killSwitchActive)) ∧
  s.activeBySubject = s'.activeBySubject

/-- All calls have returned or raised. -/
def Finished (t : ReleaseSys) : Prop :=
  ∀ i th, t.threads i = some th → (∃ release, th.now = .returned release) ∨ ∃ e, th.now = .raised e

/-- `t` is what the calls that returned leave, one after the other, from `s`;
`order` lists their threads. -/
def SerializedBy (s : InMemoryReleaseAuthority) (t : ReleaseSys) (order : List (ℕ × Call)) :
    Prop :=
  (order.map Prod.fst).Nodup ∧
  (∀ i c, (i, c) ∈ order ↔ ∃ release, t.threads i = some ⟨c, .returned release⟩) ∧
  SameView t.shared (order.foldl (fun s x => (perform s x.2.prog quiet).1) s)

/-- From any state that the service can reach, a run of the four operations in
which no step is disturbed leaves, once all calls have finished, what the calls
that returned leave in the order of their commits. -/
theorem undisturbed_serializes (ys xs : List ReleaseStep)
    (hcalls : ∀ i c, .call i c ∈ xs → ¬ c.IsGate)
    (hundisturbed : Along Call.prog Undisturbed
      (init (run Call.prog (init .empty) ys).shared) xs)
    (hfinished : Finished (run Call.prog (init (run Call.prog (init .empty) ys).shared) xs)) :
    ∃ order, SerializedBy (run Call.prog (init .empty) ys).shared
      (run Call.prog (init (run Call.prog (init .empty) ys).shared) xs) order := by
  have hkeyed : WellKeyed (run Call.prog (init .empty) ys).shared := (gateInv_run ys).keyed
  obtain ⟨order, hnodup, hmem, hindex, hreleases⟩ :=
    ledger.serializes ledger_kept hkeyed xs
      (fun pre x post hxs => ⟨hundisturbed pre x post hxs, fun i c hx =>
        hcalls i c (by simp [hxs, hx])⟩)
      hfinished
  refine ⟨order, hnodup, hmem, ?_, hindex⟩
  intro r
  exact congrArg _ (hreleases r)

/-! ## Checking a given run -/

section Among

variable (js : List ℕ) (t : ReleaseSys)

instance (th : Thread Call InMemoryReleaseAuthority AuditEvent (fun _ => Appended) ReleaseError
    GovernedRelease) (r : String) : Decidable (ledger.Holds th r) :=
  match th with
  | ⟨c, .awaiting event _⟩ => inferInstanceAs (Decidable (r ∈ held c event))
  | ⟨_, .returned _⟩ => inferInstanceAs (Decidable False)
  | ⟨_, .raised _⟩ => inferInstanceAs (Decidable False)

instance (r : String) : Decidable (ledger.FreeAmong js t r) :=
  inferInstanceAs (Decidable (∀ j ∈ js, ∀ th ∈ t.threads j, ¬ ledger.Holds th r))

/-- `Finds`, where only the threads `js` have started. -/
def FindsAmong : Call → AuditEvent → Prop
  | .activate r _ _, event =>
      ∀ current ∈ t.shared.releases r,
        if event.outcome = "ACTIVE" then
          ∀ other ∈ t.shared.activeBySubject current.subjectKey, other ≠ r →
            ledger.FreeAmong js t other ∧ ∃ old ∈ t.shared.releases other, old.state = .active
        else t.shared.activeBySubject current.subjectKey = some event.entityId
  | _, _ => True

instance (c : Call) (event : AuditEvent) : Decidable (FindsAmong js t c event) := by
  cases c <;> unfold FindsAmong <;> infer_instance

/-- `Undisturbed`, where only the threads `js` have started. -/
def UndisturbedAmong : ReleaseStep → Prop
  | .call _ c => ∀ r ∈ c.touches, ledger.FreeAmong js t r
  | .resume i reply => ∀ th ∈ t.threads i, ∀ event ∈ th.now.stop.question?,
      reply event = .returned ∧ FindsAmong js t th.call event

instance (x : ReleaseStep) : Decidable (UndisturbedAmong js t x) := by
  cases x <;> unfold UndisturbedAmong <;> infer_instance

variable {js t}

/-- Threads that never started disturb nobody, so that it is enough to look at those of the run. -/
theorem undisturbed_of_among {x : ReleaseStep} (h : UndisturbedAmong js t x)
    (hjs : ∀ j, j ∉ js → t.threads j = none) : Undisturbed t x := by
  cases x with
  | call i c => exact fun _ r hr => ledger.free_of_among (h r hr) hjs
  | resume i reply =>
      intro c event k hi
      rcases h _ hi event rfl with ⟨hreply, hfinds⟩
      refine ⟨hreply, ?_⟩
      cases c with
      | activate r a corr =>
          intro current hcurrent
          have hchecked := hfinds current hcurrent
          -- the call is at its first event, or at that of the superseded release
          by_cases houtcome : event.outcome = "ACTIVE"
          · rw [if_pos houtcome] at hchecked ⊢
            intro other hother hne
            rcases hchecked other hother hne with ⟨hfree, old, hold, hactive⟩
            exact ⟨ledger.free_of_among hfree hjs, old, hold, hactive⟩
          · rw [if_neg houtcome] at hchecked ⊢
            exact hchecked
      | _ => trivial

variable (js) in
/-- On a given schedule it is enough to look at the threads that the schedule starts. -/
theorem undisturbed_of_schedule {s : InMemoryReleaseAuthority} {xs : List ReleaseStep}
    (h : Along Call.prog (UndisturbedAmong js) (init s) xs)
    (hjs : ∀ x ∈ xs, x.thread ∈ js) : Along Call.prog Undisturbed (init s) xs := by
  intro pre x post hxs
  apply undisturbed_of_among (h pre x post hxs)
  intro j hj
  apply run_threads_none rfl
  intro c hc
  exact hj (hjs (.call j c) (by simp [hxs, hc]))

variable (js) in
/-- A run in which every thread has come to its end leaves nobody waiting. -/
theorem finished_of_schedule {s : InMemoryReleaseAuthority} {xs : List ReleaseStep}
    (h : ∀ j ∈ js, ∀ th ∈ (run Call.prog (init s) xs).threads j, th.now.stop.question? = none)
    (hjs : ∀ x ∈ xs, x.thread ∈ js) : Finished (run Call.prog (init s) xs) := by
  intro i th hth
  by_cases hi : i ∈ js
  · have hstop := h i hi th hth
    rcases th with ⟨c, y⟩
    cases y with
    | returned release => exact .inl ⟨release, rfl⟩
    | raised e => exact .inr ⟨e, rfl⟩
    | awaiting event k => cases hstop
  · rw [run_threads_none rfl xs fun c hc => hi (hjs _ hc)] at hth
    cases hth

end Among

/-- Two activations, each of which is suspended when the other one begins or goes on; the
second one looks the index up when the first one has written it. -/
def overlappingSteps : List ReleaseStep :=
  let reply : AuditEvent → Appended := fun _ => .returned
  [.call 0 (.activate "release-2" "it-1" "correlation-1"),
    .call 1 (.activate "release-3" "it-1" "correlation-1"),
    .resume 0 reply, .resume 0 reply, .resume 1 reply, .resume 1 reply]

theorem undisturbed_overlapping :
    let ys := oneByOne (toReleased "release-1" "1" ++ toReleased "release-2" "2" ++
      toReleased "release-3" "3" ++ [.activate "release-1" "it-1" "correlation-1"])
    let s := (run Call.prog (init .empty) ys).shared
    (∃ order, SerializedBy s (run Call.prog (init s) overlappingSteps) order) ∧
      (∀ i ∈ [0, 1], ((run Call.prog (init s) (overlappingSteps.take 3)).threads i).map
        (fun th => th.now.stop.question?.isSome) = some true) ∧
      ["release-1", "release-2", "release-3"].map
        (fun r => ((run Call.prog (init s) overlappingSteps).shared.releases r).map
          GovernedRelease.state) = [some .suspended, some .suspended, some .active] := by
  intro ys s
  -- the order in which the two calls are served is that of their starts
  refine ⟨undisturbed_serializes ys overlappingSteps ?_ ?_ ?_, ?_, ?_⟩
  · intro i c hmem
    simp only [overlappingSteps, List.mem_cons, Step.call.injEq, List.not_mem_nil, or_false,
      reduceCtorEq] at hmem
    rcases hmem with ⟨-, rfl⟩ | ⟨-, rfl⟩ <;> exact id
  · apply undisturbed_of_schedule [0, 1]
    · decide +kernel
    · decide +kernel
  · apply finished_of_schedule [0, 1]
    · decide +kernel
    · decide +kernel
  · decide +kernel
  · decide +kernel

/-- Two activations overlap: the second finds the indexed release suspended by
the first and raises, but its own release stays active. -/
theorem lost_supersession :
    let ys := oneByOne (toReleased "release-1" "1" ++ toReleased "release-2" "2" ++
      toReleased "release-3" "3" ++ [.activate "release-1" "it-1" "correlation-1"])
    let reply : AuditEvent → Appended := fun _ => .returned
    let xs : List ReleaseStep :=
      [.call 0 (.activate "release-2" "it-1" "correlation-1"),
        .call 1 (.activate "release-3" "it-1" "correlation-1"),
        .resume 0 reply, .resume 1 reply, .resume 0 reply]
    Finished (run Call.prog (init (run Call.prog (init .empty) ys).shared) xs) ∧
      ¬ ∃ order, SerializedBy (run Call.prog (init .empty) ys).shared
        (run Call.prog (init (run Call.prog (init .empty) ys).shared) xs) order := by
  intro ys reply xs
  have hfirst : ((run Call.prog (init (run Call.prog (init .empty) ys).shared) xs).threads 0).map
      (fun th => match th with | ⟨.activate r a c, .returned _⟩ => some (r, a, c) | _ => none) =
        some (some ("release-2", "it-1", "correlation-1")) := by
    decide +kernel
  have hsecond : ((run Call.prog (init (run Call.prog (init .empty) ys).shared) xs).threads 1).map
      (fun th => match th.now with | .raised _ => true | _ => false) = some true := by
    decide +kernel
  have hothers : ∀ i, i ≠ 0 → i ≠ 1 →
      (run Call.prog (init (run Call.prog (init .empty) ys).shared) xs).threads i = none :=
    fun i h₀ h₁ => run_threads_none rfl xs (by simp [xs, h₀, h₁])
  obtain ⟨release, hfirst⟩ : ∃ release,
      (run Call.prog (init (run Call.prog (init .empty) ys).shared) xs).threads 0 =
        some ⟨.activate "release-2" "it-1" "correlation-1", .returned release⟩ := by
    simp only [Option.map_eq_some_iff] at hfirst
    obtain ⟨⟨c, y⟩, hth, hcase⟩ := hfirst
    cases c <;> cases y <;> simp at hcase
    rename_i release
    obtain ⟨rfl, rfl, rfl⟩ := hcase
    exact ⟨release, hth⟩
  constructor
  · intro i th hth
    by_cases h₀ : i = 0
    · subst h₀
      rw [hfirst] at hth
      cases hth
      exact .inl ⟨release, rfl⟩
    · by_cases h₁ : i = 1
      · subst h₁
        rw [hth] at hsecond
        obtain ⟨c, ⟨_⟩ | ⟨e⟩ | _⟩ := th
        · simp at hsecond
        · exact .inr ⟨e, rfl⟩
        · simp at hsecond
      · rw [hothers i h₀ h₁] at hth
        cases hth
  · rintro ⟨order, hnodup, hmem, hview, -⟩
    -- only the first call returned
    have hall : ∀ x, x ∈ order ↔ x = (0, .activate "release-2" "it-1" "correlation-1") := by
      rintro ⟨i, c⟩
      rw [hmem, Prod.mk.injEq]
      constructor
      · rintro ⟨release', hth⟩
        by_cases h₀ : i = 0
        · subst h₀
          rw [hfirst] at hth
          cases hth
          exact ⟨rfl, rfl⟩
        · by_cases h₁ : i = 1
          · subst h₁
            simp [hth] at hsecond
          · rw [hothers i h₀ h₁] at hth
            cases hth
      · rintro ⟨rfl, rfl⟩
        exact ⟨release, hfirst⟩
    have horder : order = [(0, .activate "release-2" "it-1" "correlation-1")] := by
      apply List.perm_singleton.1
      rw [List.perm_ext_iff_of_nodup (List.Nodup.of_map _ hnodup) (List.nodup_singleton _)]
      intro x
      rw [hall, List.mem_singleton]
    subst horder
    -- the record that the second call left behind
    have hthird := hview "release-3"
    revert hthird
    decide +kernel

end Alos.Releases
