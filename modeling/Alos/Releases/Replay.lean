import Alos.Releases.Index
import Alos.Trail

/-! # Replaying the audit trail

Without interference and with a sink that never fails, the events of a release
say in which state it is and whether its kill switch is active.

* `fold` is what an event says, and `view` what the records say;
* `opens_told` and `prog_told`: a call appends events that tell exactly what it
  has done, and none if it raises;
* `Sound` is what this rests on: the records are filed under their own ids, and
  the index names active releases only, so that `activate` does not raise
  after its first event;
* `rebuilt_by_replay`: so does a run.
-/

namespace Alos.Releases

open Coop

/-! ## What the events say -/

def ReleaseState.ofValue? (value : String) : Option ReleaseState :=
  [draft, implemented, automatedAssurance, aiReviewed, readyForIt, itApproved, readyForDirector,
    directorApproved, released, active, revisionRequired, returned, rejected, hold, blocked,
    suspended, rolledBack].find? fun state => state.value = value

theorem ReleaseState.ofValue?_value (state : ReleaseState) : ofValue? state.value = some state := by
  cases state <;> rfl

/-- The state of a release and its kill flag. -/
abbrev Standing := ReleaseState × Bool

/-- The kill flag after an event of this type. -/
def killAfter (eventType : String) (kill : Bool) : Bool :=
  if eventType = "release.kill_switch_activated" then true
  else if eventType = "release.kill_switch_cleared" ∨
      eventType = "release.rollback_target_activated" then false
  else kill

/-- What an event makes of the standing of its release. -/
def fold (standing : Option Standing) (e : AuditEvent) : Option Standing :=
  if e.eventType = "release.created" then some (.draft, false)
  else
    match standing, ReleaseState.ofValue? e.outcome with
    | some (_, kill), some state => some (state, killAfter e.eventType kill)
    | _, _ => none

/-- What the records say. -/
def view (s : InMemoryReleaseAuthority) (releaseId : String) : Option Standing :=
  (s.releases releaseId).map fun release => (release.state, release.killSwitchActive)

/-- The `from` of an event is the state that is known before it. -/
def FromKnown (standing : Option Standing) (e : AuditEvent) : Prop :=
  ∀ value, e.metadata.get? "from" = some value →
    ∃ state kill, standing = some (state, kill) ∧ value = .str state.value

abbrev told (view : String → Option Standing) (es : List AuditEvent) : String → Option Standing :=
  Trail.told AuditEvent.entityId fold view es

abbrev Sourced (view : String → Option Standing) (es : List AuditEvent) : Prop :=
  Trail.Sourced AuditEvent.entityId fold FromKnown view es

/-! ## One transition -/

/-- The event type says what happens to the kill flag. -/
def Announces (o : Options) : Prop :=
  o.eventType ≠ "release.created" ∧
    ∀ kill, killAfter o.eventType kill = o.killSwitchActive.getD kill

theorem announces_default (o : Options) (h : o.eventType = "release.transitioned" ∨
    o.eventType = "release.rolled_back") (hkill : o.killSwitchActive = none) : Announces o := by
  rcases h with h | h
  · exact ⟨by rw [h]; decide, fun kill => by rw [h, hkill]; rfl⟩
  · exact ⟨by rw [h]; decide, fun kill => by rw [h, hkill]; rfl⟩

theorem view_setRelease (s : InMemoryReleaseAuthority) (r : String) (release : GovernedRelease) :
    view (s.setRelease r release) =
      Function.update (view s) r (some (release.state, release.killSwitchActive)) := by
  funext r'
  by_cases hr : r' = r
  · subst hr
    simp [view]
  · simp [view, hr]

@[simp] theorem view_setActive (s : InMemoryReleaseAuthority) (key : SubjectKey)
    (r : Option String) : view (s.setActive key r) = view s := rfl

/-- The events say what happened between the two states, and where from. -/
structure Tells (s s' : InMemoryReleaseAuthority) (es : List AuditEvent) : Prop where
  view : view s' = told (view s) es
  sourced : Sourced (Releases.view s) es

theorem Tells.refl {s s' : InMemoryReleaseAuthority} (h : Releases.view s' = Releases.view s) :
    Tells s s' [] := ⟨h, trivial⟩

theorem Tells.trans {s s' s'' : InMemoryReleaseAuthority} {es fs : List AuditEvent}
    (h : Tells s s' es) (h' : Tells s' s'' fs) : Tells s s'' (es ++ fs) := by
  constructor
  · rw [h'.view, h.view]
    exact (Trail.told_append _ es fs).symm
  · apply h.sourced.append
    have hsourced := h'.sourced
    rw [h.view] at hsourced
    exact hsourced

/-- The event of a transition tells what the transition does. -/
theorem transition_told {s : InMemoryReleaseAuthority} {r : String} {current : GovernedRelease}
    (hcurrent : s.releases r = some current) (hid : current.releaseId = r) {o : Options}
    (ho : Announces o) (target : ReleaseState) (actorId correlationId : String) :
    let updated := current.moved target correlationId o
    Tells s (s.setRelease r updated) [transitionEvent current updated actorId o] := by
  intro updated
  let event := transitionEvent current updated actorId o
  have hview : view s r = some (current.state, current.killSwitchActive) := by
    rw [view, hcurrent]
    rfl
  have hentity : event.entityId = r := hid
  have hstate : ReleaseState.ofValue? event.outcome = some target :=
    ReleaseState.ofValue?_value target
  have htype : event.eventType ≠ "release.created" := ho.1
  -- the event carries the new state and what became of the switch
  have hfold : fold (view s r) event = some (updated.state, updated.killSwitchActive) := by
    unfold fold
    rw [if_neg htype, hview, hstate]
    exact congrArg (fun kill => some (target, kill)) (ho.2 current.killSwitchActive)
  constructor
  · rw [view_setRelease, ← hfold, ← hentity]
    rfl
  · refine ⟨?_, trivial⟩
    intro value hvalue
    rw [hentity]
    exact ⟨_, _, hview, (Option.some.inj hvalue).symm⟩

/-! ## The first segment of a call -/

/-- The index names active releases only. -/
def Indexed (s : InMemoryReleaseAuthority) : Prop :=
  ∀ key r, s.activeBySubject key = some r → ActiveFor s key r

/-- What an opening publishes is filed under its id, and its event tells it. -/
structure Opening.Told (s : InMemoryReleaseAuthority) (o : Opening) : Prop where
  filed : o.release.releaseId = o.releaseId
  tells : Tells s (s.setRelease o.releaseId o.release) [o.event]

theorem opens_told {s : InMemoryReleaseAuthority} (hs : WellKeyed s) {r : String}
    {guard : GovernedRelease → Prop} [DecidablePred guard] {target : ReleaseState}
    {actorId correlationId : String} {options : Options}
    {rest : GovernedRelease → Op GovernedRelease} {o : Opening}
    (h : opens s r guard target actorId correlationId options rest = some o)
    (hoptions : Announces options) : o.Told s := by
  obtain ⟨current, hcurrent, -, rfl⟩ := opens_eq_some h
  have hid := hs r current hcurrent
  exact ⟨hid, transition_told hcurrent hid hoptions target actorId correlationId⟩

/-- Whatever a call publishes first, its event tells it. -/
theorem opening_told {s : InMemoryReleaseAuthority} (hs : WellKeyed s) {c : Call} {o : Opening}
    (h : c.opening s = some o) : o.Told s := by
  -- each call announces the state it writes
  cases c with
  | create r rv t o' w sub v m a c =>
      simp only [Call.opening] at h
      split at h
      · cases h
        refine ⟨rfl, ?_, ?_, trivial⟩
        · exact view_setRelease s r _
        · intro value hvalue
          cases hvalue
      · cases h
  | markImplemented => exact opens_told hs h (announces_default _ (.inl rfl) rfl)
  | recordAutomatedAssurance => exact opens_told hs h (announces_default _ (.inl rfl) rfl)
  | recordAiReviewPackage => exact opens_told hs h (announces_default _ (.inl rfl) rfl)
  | submitForIt => exact opens_told hs h (announces_default _ (.inl rfl) rfl)
  | recordItDecision => exact opens_told hs h (announces_default _ (.inl rfl) rfl)
  | submitForDirector => exact opens_told hs h (announces_default _ (.inl rfl) rfl)
  | recordDirectorDecision => exact opens_told hs h (announces_default _ (.inl rfl) rfl)
  | release => exact opens_told hs h (announces_default _ (.inl rfl) rfl)
  | activate =>
      rw [Call.opening] at h
      exact opens_told hs h (announces_default _ (.inl rfl) rfl)
  | activateKillSwitch =>
      rw [Call.opening] at h
      exact opens_told hs h ⟨by simp, fun _ => rfl⟩
  | clearKillSwitch =>
      rw [Call.opening] at h
      exact opens_told hs h ⟨by simp, fun _ => rfl⟩
  | rollback =>
      simp only [Call.opening] at h
      split at h
      · cases h
      · exact opens_told hs h (announces_default _ (.inr rfl) rfl)

/-! ## What follows the first append -/

/-- The answers of a sink that never fails. -/
abbrev quietly : Env AuditEvent (fun _ => Appended) := fun n _ => quiet n

/-- The events that a call appends. -/
def events (p : Op GovernedRelease) (s : InMemoryReleaseAuthority) : List AuditEvent :=
  (p.alone quietly s).log.map fun x => x.1

/-- From `s` on, `p` returns, and its events tell what it does. -/
structure Finishes (p : Op GovernedRelease) (s : InMemoryReleaseAuthority) : Prop where
  returns : ∃ release, (p.alone quietly s).result = .ok release
  tells : Tells s (p.alone quietly s).state (events p s)

theorem finishes_ret (release : GovernedRelease) (s : InMemoryReleaseAuthority) :
    Finishes (.ret release) s := ⟨⟨release, rfl⟩, .refl rfl⟩

theorem finishes_writeIndex (key : SubjectKey) (r : Option String) (release : GovernedRelease)
    (s : InMemoryReleaseAuthority) : Finishes (writeIndex key r release) s :=
  ⟨⟨release, rfl⟩, .refl rfl⟩

/-- An opening whose event tells it, and a rest that finishes. -/
theorem Finishes.opening {p : Op GovernedRelease} {s : InMemoryReleaseAuthority} {o : Opening}
    (hbegins : Begins s p (some o)) (ho : o.Told s)
    (hrest : Finishes o.rest (s.setRelease o.releaseId o.release)) : Finishes p s := by
  have halone : p.alone quietly s =
      (o.rest.alone quietly (s.setRelease o.releaseId o.release)).after ⟨o.event, .returned⟩ := by
    rw [Proc.alone_of_awaiting hbegins]
    rfl
  constructor
  · rw [halone]
    exact hrest.returns
  · have hevents : events p s =
        [o.event] ++ events o.rest (s.setRelease o.releaseId o.release) := by
      rw [events, halone]
      rfl
    rw [hevents, halone]
    exact ho.tells.trans hrest.tells

/-- The release that the index names is active, so it can be suspended. -/
theorem finishes_supersede {s : InMemoryReleaseAuthority} {r : String} {release : GovernedRelease}
    (a c : String) (hfiled : WellKeyed s) (hindexed : Indexed s) (hid : release.releaseId = r) :
    Finishes (supersede release r a c) (s.setRelease r release) := by
  rcases supersede_cases (s.setRelease r release) release r with hindex | ⟨other, hindex, hne⟩
  · have hadvance : (supersede release r a c).advance (s.setRelease r release) = _ :=
      supersede_advance hindex
    have halone := Proc.alone_of_returned hadvance quietly
    constructor
    · rw [halone]
      exact ⟨release, rfl⟩
    · rw [events, halone]
      exact .refl rfl
  · obtain ⟨current, hcurrent, -, hactive⟩ := hindexed _ other hindex
    -- the index names another release, which the first record left alone
    have hother : (s.setRelease r release).releases other = some current := by
      rw [InMemoryReleaseAuthority.setRelease_releases, Function.update_of_ne hne]
      exact hcurrent
    have hbegins := supersede_begins a c hindex hne
    cases hopen : opens (s.setRelease r release) other (fun other => other.state = .active)
        .suspended a c supersededOptions
        fun _ => writeIndex release.subjectKey (some r) release with
    | none => simp [opens, hother, hactive] at hopen
    | some o =>
        rw [hopen] at hbegins
        apply Finishes.opening hbegins
        · exact opens_told (hfiled.setRelease hid) hopen (announces_default _ (.inl rfl) rfl)
        · obtain ⟨_, _, _, rfl⟩ := opens_eq_some hopen
          exact finishes_writeIndex _ _ _ _

/-- The target of a rollback is known, and the second event tells that it is
active again. -/
theorem finishes_restore {s : InMemoryReleaseAuthority} {t : String} {target : GovernedRelease}
    {standing : Standing} (hview : view s t = some standing) (hid : target.releaseId = t)
    (rolledBack : GovernedRelease) (a reason c : String) :
    Finishes (restore rolledBack target t a reason c) s := by
  let event := auditEvent (target.restored c) a "release.rollback_target_activated" "ACTIVE" .human
    reason []
  have hentity : event.entityId = t := hid
  -- the event of the rollback tells both the state and the flag
  have hfold : fold (view s t) event = some (.active, false) := by
    rw [hview]
    rfl
  refine ⟨⟨rolledBack, rfl⟩, ?_, ?_, trivial⟩
  · change view ((s.setRelease t (target.restored c)).setActive _ _) = told (view s) [event]
    rw [view_setActive, view_setRelease]
    change Function.update (view s) t (some (.active, false)) =
      Function.update (view s) event.entityId (fold (view s event.entityId) event)
    rw [hentity, hfold]
  · intro value hvalue
    cases hvalue

/-- A call that passes its checks finishes. -/
theorem prog_finishes {s : InMemoryReleaseAuthority} (hfiled : WellKeyed s) (hindexed : Indexed s)
    {c : Call} {o : Opening} (ho : c.opening s = some o) : Finishes c.prog s := by
  have hbegins := prog_begins c s
  rw [ho] at hbegins
  have htold := opening_told hfiled ho
  apply Finishes.opening hbegins htold
  by_cases hgate : c.IsGate
  · rw [(gate_opening hgate ho).rest]
    exact finishes_ret _ _
  · cases c with
    | activate r a c =>
        obtain ⟨hr, hrest, -⟩ := activate_opening ho
        have hid := htold.filed
        rw [hr] at hid ⊢
        rw [hrest]
        exact finishes_supersede a c hfiled hindexed hid
    | activateKillSwitch r a reason c =>
        rw [(kill_opening ho).2.1]
        exact finishes_writeIndex _ _ _ _
    | clearKillSwitch r a reason c =>
        rw [(clear_opening ho).2.1]
        exact finishes_writeIndex _ _ _ _
    | rollback r t a reason c =>
        obtain ⟨hr, current, target, -, htarget, hreplaceable, hrest, -⟩ := rollback_opening ho
        rw [hrest, hr]
        -- the target is another release, and is as it was
        have hview : view (s.setRelease r o.release) t =
            some (target.state, target.killSwitchActive) := by
          rw [view_setRelease, Function.update_of_ne hreplaceable.2.2.1, view, htarget]
          rfl
        exact finishes_restore hview (hfiled t target htarget) _ _ _ _
    | _ => exact absurd trivial hgate

/-! ## What the trail rests on -/

/-- Only the index of one subject is written. -/
theorem Indexed.update {s s' : InMemoryReleaseAuthority} (h : Indexed s) (key : SubjectKey)
    (hindex : ∀ key', key' ≠ key → s'.activeBySubject key' = s.activeBySubject key')
    (hactive : ∀ key' r, key' ≠ key → ActiveFor s key' r → ActiveFor s' key' r)
    (hkey : ∀ r, s'.activeBySubject key = some r → ActiveFor s' key r) : Indexed s' := by
  intro key' r hr
  by_cases hk : key' = key
  · subst hk
    exact hkey r hr
  · rw [hindex key' hk] at hr
    exact hactive key' r hk (h key' r hr)

/-- Other subjects do not notice that a record is replaced. -/
theorem ActiveFor.setRelease_of_ne {s : InMemoryReleaseAuthority} {r r' : String}
    {release : GovernedRelease} {key : SubjectKey} (h : ActiveFor s key r')
    (hbefore : ∀ current, s.releases r = some current → current.subjectKey ≠ key) :
    ActiveFor (s.setRelease r release) key r' := by
  rw [activeFor_setRelease]
  split
  · rename_i hrr
    subst hrr
    obtain ⟨current, hcurrent, hkey, -⟩ := h
    exact absurd hkey (hbefore current hcurrent)
  · exact h

/-- A release of a subject is made active and named by the index. -/
theorem Indexed.promote {s : InMemoryReleaseAuthority} {r : String} {release : GovernedRelease}
    (h : Indexed s) (s' : InMemoryReleaseAuthority) (hstate : release.state = .active)
    (hindex : ∀ key, key ≠ release.subjectKey → s'.activeBySubject key = s.activeBySubject key)
    (hactive : ∀ key r', key ≠ release.subjectKey → ActiveFor s key r' → ActiveFor s' key r')
    (hbefore : ∀ current, s'.releases r = some current →
      current.subjectKey = release.subjectKey) :
    Indexed ((s'.setRelease r release).setActive release.subjectKey (some r)) := by
  apply h.update release.subjectKey
  · intro key hne
    have helsewhere := hindex key hne
    rw [← helsewhere]
    exact Function.update_of_ne hne _ _
  · intro key r' hne hr'
    rw [activeFor_setActive]
    apply (hactive key r' hne hr').setRelease_of_ne
    intro current hcurrent
    rw [hbefore current hcurrent]
    exact hne.symm
  · intro r' hr'
    -- no other release of the subject is active
    have hrr : r = r' := by simpa using hr'
    subst hrr
    rw [activeFor_setActive, activeFor_setRelease, if_pos rfl]
    exact ⟨rfl, hstate⟩

theorem WellKeyed.effect {s s' : InMemoryReleaseAuthority} {c : Call} {audits : Audits}
    {result : Except ReleaseError GovernedRelease} (h : WellKeyed s)
    (heffect : Effect s c audits s' result) : WellKeyed s' := by
  apply heffect.keeps h
  · intro t key releaseId ht
    exact ht
  · intro o ho
    exact h.setRelease (opening_told h ho).filed
  · intro t r current correlationId hcurrent ht
    exact ht.setRelease (h r current hcurrent)
  · intro t r target correlationId htarget ht
    exact ht.setRelease (h r target htarget)

theorem Indexed.effect {s s' : InMemoryReleaseAuthority} {c : Call} {audits : Audits}
    {result : Except ReleaseError GovernedRelease} (h : Indexed s)
    (hquiet : ∀ n, audits n = .returned) (heffect : Effect s c audits s' result) : Indexed s' := by
  cases heffect with
  | refused => exact h
  | unrecorded _ h0 => simp [hquiet] at h0
  | @gate c _ o hgate ho =>
      have hmove := gate_opening hgate ho
      intro key r' hr'
      have hactive := h key r' hr'
      rw [activeFor_setRelease]
      split
      · -- the index does not name a release that is idle
        rename_i hrr
        subst hrr
        obtain ⟨current, hcurrent, -, hstate⟩ := hactive
        exact absurd hstate (hmove.idle_before current hcurrent).1
      · exact hactive
  | @activated r a c _ o ho =>
      obtain ⟨-, -, current, hcurrent, -, hrelease⟩ := activate_opening ho
      apply h.promote s (by simp [hrelease]) (fun _ _ => rfl) (fun _ _ _ hactive => hactive)
      intro current' hcurrent'
      rw [hcurrent] at hcurrent'
      cases hcurrent'
      simp [hrelease]
  | @blocked r a c _ o other e ho _ hindex _ hother =>
      obtain ⟨current, hcurrent, -, hactive⟩ := h _ _ hindex
      exact absurd hactive (hother current hcurrent)
  | half _ _ _ _ _ _ h1 => simp [hquiet] at h1
  | @superseded r a c _ o other active ho _ hindex hne hother _ _ =>
      obtain ⟨-, -, current, hcurrent, -, hrelease⟩ := activate_opening ho
      obtain ⟨active', hactive', hkey, -⟩ := h _ _ hindex
      rw [hother] at hactive'
      cases hactive'
      rw [setRelease_comm _ _ _ (Ne.symm hne)]
      apply h.promote (s.setRelease other _) (by simp [hrelease]) (fun _ _ => rfl)
      · intro key r' hk hr'
        apply hr'.setRelease_of_ne
        intro active' hactive'
        rw [hother] at hactive'
        cases hactive'
        rw [hkey]
        exact hk.symm
      · intro current' hcurrent'
        rw [InMemoryReleaseAuthority.setRelease_releases, Function.update_of_ne (Ne.symm hne),
          hcurrent] at hcurrent'
        cases hcurrent'
        simp [hrelease]
  | @killed r a reason c _ o ho _ =>
      obtain ⟨-, -, current, hcurrent, -, hrelease⟩ := kill_opening ho
      apply h.update o.release.subjectKey
      · intro key hne
        exact Function.update_of_ne hne _ _
      · intro key r' hne hr'
        rw [activeFor_setActive]
        apply hr'.setRelease_of_ne
        intro current' hcurrent'
        rw [hcurrent] at hcurrent'
        cases hcurrent'
        rw [hrelease] at hne
        exact hne.symm
      · intro r' hr'
        simp at hr'
  | @cleared r a reason c _ o ho _ =>
      obtain ⟨-, -, -, current, hcurrent, -, -, hrelease⟩ := clear_opening ho
      apply h.promote s (by simp [hrelease]) (fun _ _ => rfl) (fun _ _ _ hactive => hactive)
      intro current' hcurrent'
      rw [hcurrent] at hcurrent'
      cases hcurrent'
      simp [hrelease]
  | @rolledBack r t a reason c _ o target ho _ htarget =>
      obtain ⟨-, current, target', hcurrent, htarget', ⟨-, -, hne, hkey, -⟩, -, hrelease⟩ :=
        rollback_opening ho
      rw [htarget] at htarget'
      cases htarget'
      apply h.promote (s.setRelease r o.release) rfl (fun _ _ => rfl)
      · intro key r' hk hr'
        apply hr'.setRelease_of_ne
        intro current' hcurrent'
        rw [hcurrent] at hcurrent'
        cases hcurrent'
        rw [hkey]
        exact hk.symm
      · intro target' htarget'
        rw [InMemoryReleaseAuthority.setRelease_releases, Function.update_of_ne hne, htarget]
          at htarget'
        cases htarget'
        rfl

/-! ## Runs -/

/-- The state of the service and the trail of its events. -/
structure Recorded where
  state : InMemoryReleaseAuthority
  trail : List AuditEvent

/-- One more call. -/
def Recorded.next (x : Recorded) (c : Call) : Recorded where
  state := (perform x.state c.prog quiet).1
  trail := x.trail ++ events c.prog x.state

/-- A sequential run with a sink that never fails. -/
def recorded (calls : List Call) : Recorded := calls.foldl Recorded.next ⟨.empty, []⟩

theorem recorded_snoc (calls : List Call) (c : Call) :
    recorded (calls ++ [c]) = (recorded calls).next c := by
  simp [recorded]

/-- What one call adds to the trail. -/
theorem next_tells {s : InMemoryReleaseAuthority} (hfiled : WellKeyed s) (hindexed : Indexed s)
    (c : Call) : Tells s (perform s c.prog quiet).1 (events c.prog s) ∧
      ∀ e, (perform s c.prog quiet).2 = .error e → events c.prog s = [] := by
  cases ho : c.opening s with
  | none =>
      have hbegins := prog_begins c s
      rw [ho] at hbegins
      obtain ⟨e, he⟩ := hbegins
      have halone := Proc.alone_of_raised he quietly
      -- a call that raises has appended nothing
      have hevents : events c.prog s = [] := by rw [events, halone]; rfl
      have hstate : (perform s c.prog quiet).1 = s := congrArg Proc.Finished.state halone
      rw [hevents, hstate]
      exact ⟨.refl rfl, fun _ _ => rfl⟩
  | some o =>
      have hfinishes := prog_finishes hfiled hindexed ho
      refine ⟨hfinishes.tells, ?_⟩
      intro e he
      obtain ⟨release, hrelease⟩ := hfinishes.returns
      change (c.prog.alone quietly s).result = .error e at he
      rw [hrelease] at he
      cases he

/-- The trail of a run tells its state. -/
structure Recorded.Faithful (x : Recorded) : Prop where
  filed : WellKeyed x.state
  indexed : Indexed x.state
  tells : Tells .empty x.state x.trail

theorem faithful_recorded (calls : List Call) : (recorded calls).Faithful := by
  induction calls using List.reverseRecOn with
  | nil =>
      refine ⟨?_, ?_, .refl rfl⟩
      · intro r release hr
        cases hr
      · intro key r hr
        cases hr
  | append_singleton calls c ih =>
      rw [recorded_snoc]
      have heffect := perform_effect (recorded calls).state c quiet
      exact {
        filed := ih.filed.effect heffect
        indexed := ih.indexed.effect (fun _ => rfl) heffect
        tells := ih.tells.trans (next_tells ih.filed ih.indexed c).1 }

/-- The events of a release, folded in the order in which they were appended. -/
def replay (trail : List AuditEvent) (releaseId : String) : Option Standing :=
  Trail.replay AuditEvent.entityId fold trail releaseId

/-- The trail can be replayed: it yields the state and the kill flag of every
release, every event goes on from what the events before it yield, and a call
that raises appends nothing. -/
structure Replays (calls : List Call) : Prop where
  standing : ∀ r, view (recorded calls).state r = replay (recorded calls).trail r
  source : ∀ pre e post, (recorded calls).trail = pre ++ e :: post →
    FromKnown (replay pre e.entityId) e
  silent : ∀ ys c zs e, calls = ys ++ c :: zs →
    (perform (recorded ys).state c.prog quiet).2 = .error e →
      (recorded (ys ++ [c])).trail = (recorded ys).trail

theorem rebuilt_by_replay (calls : List Call) : Replays calls := by
  have hfaithful := faithful_recorded calls
  constructor
  · intro r
    rw [hfaithful.tells.view]
    exact Trail.told_none (recorded calls).trail r
  · intro pre e post htrail
    have hsource := Trail.sourced_iff.1 hfaithful.tells.sourced pre e post htrail
    rwa [replay, ← Trail.told_none]
  · intro ys c zs e _ herror
    have hys := faithful_recorded ys
    have hnone := (next_tells hys.filed hys.indexed c).2 e herror
    rw [recorded_snoc, Recorded.next, hnone, List.append_nil]

example : replay (recorded (toReleased "release-1" "1")).trail "release-1" =
    some (.released, false) := by decide +kernel

end Alos.Releases
