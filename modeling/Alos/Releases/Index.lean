import Mathlib.Data.List.Infix
import Alos.Releases.Alone

/-! # The index of active releases

`_active_by_subject` is kept by hand next to the states of the records.
`Consistent` says that the two agree and that no subject has two active
releases. Over sequential runs with a sink that never fails:

* every operation but one keeps it (`consistent_step`);
* `clear_kill_switch` makes its release active without suspending the release
  that is active by then, as `activate` does (`revives_inconsistent`).
-/

namespace Alos.Releases

/-- `releaseId` is an active release of the subject `key`. -/
def ActiveFor (s : InMemoryReleaseAuthority) (key : SubjectKey) (releaseId : String) : Prop :=
  ∃ release, s.releases releaseId = some release ∧ release.subjectKey = key ∧
    release.state = .active

/-- At most one release of each subject is active, and the index names it. -/
structure Consistent (s : InMemoryReleaseAuthority) : Prop where
  unique : ∀ key r₁ r₂, ActiveFor s key r₁ → ActiveFor s key r₂ → r₁ = r₂
  indexed : ∀ key r, s.activeBySubject key = some r ↔ ActiveFor s key r

/-- A release under its kill switch is suspended. -/
def KillSuspends (s : InMemoryReleaseAuthority) : Prop :=
  ∀ r release, s.releases r = some release → release.killSwitchActive = true →
    release.state = .suspended

/-- The state after a sequential run with a sink that never fails. -/
def after (calls : List Call) : InMemoryReleaseAuthority :=
  performAll (calls.map fun c => (c, quiet))

theorem after_snoc (calls : List Call) (c : Call) :
    after (calls ++ [c]) = (perform (after calls) c.prog quiet).1 := by
  rw [after, List.map_append]
  exact performAll_snoc _ _

/-- `c` lifts the kill switch of a release while another release of its
subject is active. -/
def Revives (s : InMemoryReleaseAuthority) : Call → Prop
  | .clearKillSwitch r _ reason _ =>
      ¬ Py.Blank reason ∧ ∃ current, s.releases r = some current ∧
        current.killSwitchActive = true ∧ ∃ other, other ≠ r ∧ ActiveFor s current.subjectKey other
  | _ => False

/-! ## Single writes -/

theorem activeFor_setRelease {s : InMemoryReleaseAuthority} {r r' : String}
    {release : GovernedRelease} {key : SubjectKey} :
    ActiveFor (s.setRelease r release) key r' ↔
      if r' = r then release.subjectKey = key ∧ release.state = .active else ActiveFor s key r' := by
  by_cases h : r' = r
  · subst h
    simp [ActiveFor]
  · simp [ActiveFor, h]

@[simp] theorem activeFor_setActive {s : InMemoryReleaseAuthority} {key key' : SubjectKey}
    {r : String} {v : Option String} :
    ActiveFor (s.setActive key' v) key r ↔ ActiveFor s key r := Iff.rfl

theorem ActiveFor.of_active {s : InMemoryReleaseAuthority} {r : String}
    {release : GovernedRelease} (hr : s.releases r = some release)
    (hstate : release.state = .active) : ActiveFor s release.subjectKey r :=
  ⟨release, hr, rfl, hstate⟩

theorem not_activeFor {s : InMemoryReleaseAuthority} {r : String} {key : SubjectKey}
    (h : ∀ release, s.releases r = some release → release.state ≠ .active) :
    ¬ ActiveFor s key r := by
  rintro ⟨release, hr, -, hactive⟩
  exact h release hr hactive

/-- The index determines that active releases are unique. -/
theorem Consistent.of_indexed {s : InMemoryReleaseAuthority}
    (h : ∀ key r, s.activeBySubject key = some r ↔ ActiveFor s key r) : Consistent s where
  indexed := h
  unique := by
    intro key r₁ r₂ h₁ h₂
    have hindex₁ := (h key r₁).2 h₁
    have hindex₂ := (h key r₂).2 h₂
    rw [hindex₁] at hindex₂
    exact Option.some.inj hindex₂

/-- The operations concern one subject: elsewhere nothing changes. -/
theorem Consistent.update {s s' : InMemoryReleaseAuthority} (h : Consistent s) (key : SubjectKey)
    (hindex : ∀ key', key' ≠ key → s'.activeBySubject key' = s.activeBySubject key')
    (hactive : ∀ key' r, key' ≠ key → (ActiveFor s' key' r ↔ ActiveFor s key' r))
    (hkey : ∀ r, s'.activeBySubject key = some r ↔ ActiveFor s' key r) : Consistent s' := by
  apply Consistent.of_indexed
  intro key' r
  by_cases hk : key' = key
  · subst hk
    exact hkey r
  · rw [hindex key' hk, hactive key' r hk]
    exact h.indexed key' r

/-- A record that was not active is replaced by one that is not active. -/
theorem Consistent.setRelease {s : InMemoryReleaseAuthority} {r : String}
    {release : GovernedRelease} (h : Consistent s)
    (hbefore : ∀ current, s.releases r = some current → current.state ≠ .active)
    (hafter : release.state ≠ .active) : Consistent (s.setRelease r release) := by
  apply Consistent.of_indexed
  intro key r'
  rw [activeFor_setRelease]
  by_cases hr : r' = r
  · subst hr
    have hnot : ¬ s.activeBySubject key = some r' := fun hindex =>
      not_activeFor hbefore ((h.indexed key r').1 hindex)
    simp [hafter, hnot]
  · simpa [hr] using h.indexed key r'

/-- The only active release `r` of a subject stops being active. -/
theorem Consistent.retire {s : InMemoryReleaseAuthority} {r : String}
    {current release : GovernedRelease} (h : Consistent s) (hr : s.releases r = some current)
    (hactive : current.state = .active) (hstate : release.state ≠ .active) :
    ∀ key r', ActiveFor (s.setRelease r release) key r' ↔
      ActiveFor s key r' ∧ key ≠ current.subjectKey := by
  intro key r'
  rw [activeFor_setRelease]
  -- the release that is retired is active for nothing any more
  by_cases hrr : r' = r
  · subst hrr
    simp only [if_true, hstate, and_false, false_iff, not_and, not_not]
    rintro ⟨release', hr', hkey, -⟩
    rw [hr] at hr'
    cases hr'
    exact hkey.symm
  · simp only [hrr, if_false, iff_self_and]
    intro hactive' hkey
    subst hkey
    exact hrr (h.unique _ _ _ hactive' (.of_active hr hactive))

/-- A release becomes the active one of a subject that has none. -/
theorem Consistent.promote {s s' : InMemoryReleaseAuthority} {r : String}
    {release : GovernedRelease} (h : Consistent s)
    (hindex : ∀ key, key ≠ release.subjectKey → s'.activeBySubject key = s.activeBySubject key)
    (hnone : ∀ key r', r' ≠ r →
      (ActiveFor s' key r' ↔ ActiveFor s key r' ∧ key ≠ release.subjectKey))
    (hr : ∀ key, ActiveFor s key r → key = release.subjectKey) (hstate : release.state = .active) :
    Consistent ((s'.setRelease r release).setActive release.subjectKey (some r)) := by
  refine h.update release.subjectKey ?_ ?_ ?_
  · intro key hkey
    simp [Function.update_of_ne hkey, hindex key hkey]
  · intro key r' hkey
    rw [activeFor_setActive, activeFor_setRelease]
    -- the release that is promoted is the active one of its subject
    by_cases hrr : r' = r
    · subst hrr
      simp only [if_true, hstate, and_true]
      exact ⟨fun hk => absurd hk.symm hkey, fun hactive => (hr key hactive).symm⟩
    · simp [hrr, hnone key r' hrr, hkey]
  · intro r'
    rw [activeFor_setActive, activeFor_setRelease]
    by_cases hrr : r' = r
    · subst hrr
      simp [hstate]
    · simp [hrr, hnone _ r' hrr, Ne.symm hrr]

/-! ## The kill switch suspends -/

theorem KillSuspends.setRelease {s : InMemoryReleaseAuthority} {r : String}
    {release : GovernedRelease} (h : KillSuspends s)
    (hr : release.killSwitchActive = true → release.state = .suspended) :
    KillSuspends (s.setRelease r release) := by
  intro r' release' hr' hkill
  by_cases hrr : r' = r
  · subst hrr
    simp only [InMemoryReleaseAuthority.setRelease_releases, Function.update_self,
      Option.some.injEq] at hr'
    subst hr'
    exact hr hkill
  · rw [InMemoryReleaseAuthority.setRelease_releases, Function.update_of_ne hrr] at hr'
    exact h r' release' hr' hkill

theorem KillSuspends.not_killed {s : InMemoryReleaseAuthority} {r : String}
    {release : GovernedRelease} (h : KillSuspends s) (hr : s.releases r = some release)
    (hstate : release.state ≠ .suspended) : release.killSwitchActive = false := by
  by_contra hkill
  exact hstate (h r release hr (by simpa using hkill))

/-- The record that a call publishes first. -/
theorem KillSuspends.opening {s : InMemoryReleaseAuthority} {c : Call} {o : Opening}
    (h : KillSuspends s) (ho : c.opening s = some o) (hkill : o.release.killSwitchActive = true) :
    o.release.state = .suspended := by
  by_cases hgate : c.IsGate
  · -- a gate leaves the switch as it is
    have hmove := gate_opening hgate ho
    cases hcurrent : s.releases o.releaseId with
    | none => simp [hmove.fresh hcurrent] at hkill
    | some current =>
        rw [hmove.kill current hcurrent, h.not_killed hcurrent (hmove.idle_before _ hcurrent).2]
          at hkill
        cases hkill
  · cases c with
    | activate r a c =>
        obtain ⟨-, -, current, hcurrent, hstate, hrelease⟩ := activate_opening ho
        simp [hrelease, h.not_killed hcurrent (by simp [hstate])] at hkill
    | activateKillSwitch r a reason c =>
        obtain ⟨-, -, current, -, -, hrelease⟩ := kill_opening ho
        simp [hrelease]
    | clearKillSwitch r a reason c =>
        obtain ⟨-, -, -, current, -, -, -, hrelease⟩ := clear_opening ho
        simp [hrelease] at hkill
    | rollback r t a reason c =>
        obtain ⟨-, current, target, -, -, hreplaceable, -, hrelease⟩ := rollback_opening ho
        simp [hrelease, hreplaceable.1] at hkill
    | _ => exact absurd trivial hgate

/-- Whatever the audit sink answers, a call keeps killed releases suspended. -/
theorem KillSuspends.effect {s s' : InMemoryReleaseAuthority} {c : Call} {audits : Audits}
    {result : Except ReleaseError GovernedRelease} (h : KillSuspends s)
    (heffect : Effect s c audits s' result) : KillSuspends s' := by
  apply heffect.keeps h
  · intro t key releaseId ht
    exact ht
  · intro o ho
    exact h.setRelease (h.opening ho)
  · intro t r current correlationId _ ht
    exact ht.setRelease fun _ => rfl
  · intro t r target correlationId _ ht
    exact ht.setRelease (by simp [GovernedRelease.restored])

theorem killSuspends_performAll (steps : List (Call × Audits)) :
    KillSuspends (performAll steps) := by
  induction steps using List.reverseRecOn with
  | nil =>
      intro r release hr
      simp [performAll, InMemoryReleaseAuthority.empty] at hr
  | append_singleton steps x ih =>
      rw [performAll_snoc]
      exact ih.effect (perform_effect _ x.1 x.2)

/-! ## One call -/

theorem setRelease_comm (s : InMemoryReleaseAuthority) {r r' : String}
    (release release' : GovernedRelease) (h : r ≠ r') :
    (s.setRelease r release).setRelease r' release' =
      (s.setRelease r' release').setRelease r release := by
  simp [InMemoryReleaseAuthority.setRelease, Function.update_comm h]

/-- Any call but one that revives a killed release next to an active one. -/
theorem consistent_step {s s' : InMemoryReleaseAuthority} {c : Call} {audits : Audits}
    {result : Except ReleaseError GovernedRelease} (h : Consistent s) (hc : ¬ Revives s c)
    (hquiet : ∀ n, audits n = .returned) (heffect : Effect s c audits s' result) :
    Consistent s' := by
  cases heffect with
  | refused => exact h
  | unrecorded _ h0 => simp [hquiet] at h0
  | gate hgate ho =>
      have hmove := gate_opening hgate ho
      exact h.setRelease (fun current hcurrent => (hmove.idle_before current hcurrent).1)
        hmove.idle.1
  | @activated r a c _ o ho _ hindex =>
      obtain ⟨-, -, current, hcurrent, hstate, hrelease⟩ := activate_opening ho
      -- the release was not active, so nothing else is retired
      have hinactive : ∀ key, ¬ ActiveFor s key r := by
        intro key
        apply not_activeFor
        simp [hcurrent, hstate]
      apply h.promote (fun _ _ => rfl) _ (fun key hactive => absurd hactive (hinactive key))
        (by simp [hrelease])
      intro key r' hr'
      simp only [iff_self_and]
      rintro hactive rfl
      exact hr' (hindex r' ((h.indexed _ _).2 hactive))
  | @blocked r a c _ o other e ho _ hindex _ hother =>
      -- a consistent index names an active release
      obtain ⟨current, hcurrent, -, hactive⟩ := (h.indexed _ _).1 hindex
      exact absurd hactive (hother current hcurrent)
  | half _ _ _ _ _ _ h1 => simp [hquiet] at h1
  | @superseded r a c _ o other active ho _ hindex hne hother hactive _ =>
      obtain ⟨-, -, current, hcurrent, hstate, hrelease⟩ := activate_opening ho
      have hkey : active.subjectKey = o.release.subjectKey := by
        obtain ⟨active', hactive', hkey, -⟩ := (h.indexed _ _).1 hindex
        rw [hother] at hactive'
        cases hactive'
        exact hkey
      have hstopped : (active.moved .suspended c supersededOptions).state ≠ .active := by simp
      -- the release that was active makes room for the new one
      have hretire := h.retire hother hactive hstopped
      rw [setRelease_comm _ _ _ (Ne.symm hne)]
      refine h.promote ?_ ?_ ?_ (by simp [hrelease])
      · intro key _
        rfl
      · intro key r' hr'
        rw [hretire, hkey]
      · rintro key ⟨current', hcurrent', -, hactive'⟩
        rw [hcurrent] at hcurrent'
        cases hcurrent'
        simp [hstate] at hactive'
  | @killed r a reason c _ o ho _ =>
      obtain ⟨-, -, current, hcurrent, hactive, hrelease⟩ := kill_opening ho
      have hstopped : o.release.state ≠ .active := by simp [hrelease]
      have hretire := h.retire hcurrent hactive hstopped
      have hkey : o.release.subjectKey = current.subjectKey := by simp [hrelease]
      -- the killed release leaves the index, and nothing takes its place
      refine h.update o.release.subjectKey ?_ ?_ ?_
      · intro key hne
        simp [hne]
      · intro key r' hne
        rw [activeFor_setActive, hretire, ← hkey]
        simp [hne]
      · intro r'
        rw [activeFor_setActive, hretire, ← hkey]
        simp
  | @cleared r a reason c _ o ho _ =>
      obtain ⟨-, -, hreason, current, hcurrent, hkill, hstate, hrelease⟩ := clear_opening ho
      have hkey : o.release.subjectKey = current.subjectKey := by simp [hrelease]
      apply h.promote (fun _ _ => rfl) _ _ (by simp [hrelease])
      · intro key r' hr'
        simp only [iff_self_and]
        rintro hactive rfl
        -- a killed release comes back while another one is active
        exact hc ⟨hreason, current, hcurrent, hkill, r', hr', hkey ▸ hactive⟩
      · rintro key ⟨current', hcurrent', -, hactive⟩
        rw [hcurrent] at hcurrent'
        cases hcurrent'
        simp [hstate] at hactive
  | @rolledBack r t a reason c _ o target ho _ htarget =>
      obtain ⟨-, current, target', hcurrent, htarget', ⟨-, hactive, hne, hkey, -⟩, -, hrelease⟩ :=
        rollback_opening ho
      rw [htarget] at htarget'
      cases htarget'
      have hstopped : o.release.state ≠ .active := by simp [hrelease]
      have hretire := h.retire hcurrent hactive hstopped
      refine h.promote ?_ ?_ ?_ rfl
      · intro key _
        rfl
      · intro key r' hr'
        rw [hretire, hkey]
        rfl
      · rintro key ⟨target', htarget', hkey', -⟩
        rw [htarget] at htarget'
        cases htarget'
        exact hkey'.symm

theorem clear_accepted {s : InMemoryReleaseAuthority} {r a reason c : String}
    {current : GovernedRelease} (hcurrent : s.releases r = some current)
    (hkill : current.killSwitchActive = true) (hreason : ¬ Py.Blank reason)
    (hstate : current.state = .suspended) :
    (Call.clearKillSwitch r a reason c).opening s ≠ none := by
  simp [Call.opening, opens, hcurrent, hkill, hreason, hstate]

/-- Reviving a killed release next to an active one leaves two active. -/
theorem revives_inconsistent {s s' : InMemoryReleaseAuthority} {c : Call} {audits : Audits}
    {result : Except ReleaseError GovernedRelease} (h : KillSuspends s) (hc : Revives s c)
    (hquiet : ∀ n, audits n = .returned) (heffect : Effect s c audits s' result) :
    ¬ Consistent s' := by
  cases c with
  | clearKillSwitch r a reason c =>
      obtain ⟨hreason, current, hcurrent, hkill, other, hne, hother⟩ := hc
      have hstate : current.state = .suspended := h r current hcurrent hkill
      have haccepted := clear_accepted (a := a) (c := c) hcurrent hkill hreason hstate
      cases heffect with
      | refused ho => exact absurd ho haccepted
      | unrecorded _ h0 => simp [hquiet] at h0
      | gate hgate => exact hgate.elim
      | cleared ho =>
          obtain ⟨-, -, -, current', hcurrent', -, -, hrelease⟩ := clear_opening ho
          rw [hcurrent] at hcurrent'
          cases hcurrent'
          intro hconsistent
          -- both the revived release and the other one are active
          apply hne
          apply hconsistent.unique current.subjectKey
          · rw [activeFor_setActive, activeFor_setRelease]
            simpa [hne] using hother
          · rw [activeFor_setActive, activeFor_setRelease]
            simp [hrelease]
  | _ => exact hc.elim

/-! ## Runs -/

theorem consistent_after (calls : List Call)
    (h : ∀ ys c, ys ++ [c] <+: calls → ¬ Revives (after ys) c) : Consistent (after calls) := by
  induction calls using List.reverseRecOn with
  | nil =>
      apply Consistent.of_indexed
      simp [after, performAll, InMemoryReleaseAuthority.empty, ActiveFor]
  | append_singleton calls c ih =>
      -- on the calls: none of them revives a release, so each keeps the index
      have hcalls : Consistent (after calls) := by
        apply ih
        intro ys d hys
        exact h ys d (hys.trans (List.prefix_append _ _))
      rw [after_snoc]
      exact consistent_step hcalls (h calls c (List.prefix_refl _)) (fun _ => rfl)
        (perform_effect _ _ _)

/-- A run keeps one active release for each subject, and the index that names
it, after every operation if and only if no operation of the run lifts the
kill switch of a release while another release of its subject is active. -/
theorem index_agrees_iff (calls : List Call) :
    (∀ ys, ys <+: calls → Consistent (after ys)) ↔
      ∀ ys c, ys ++ [c] <+: calls → ¬ Revives (after ys) c := by
  constructor
  · intro h ys c hys hrevives
    have hconsistent := h (ys ++ [c]) hys
    rw [after_snoc] at hconsistent
    exact revives_inconsistent (killSuspends_performAll _) hrevives (fun _ => rfl)
      (perform_effect _ _ _) hconsistent
  · intro h ys hys
    apply consistent_after
    intro zs c hzs
    exact h zs c (hzs.trans hys)

/-- Version 1 is killed, version 2 takes its place, and then the kill switch
of version 1 is cleared: both are active. -/
theorem cleared_next_to_active :
    ¬ Consistent (after (toReleased "release-1" "1" ++ toReleased "release-2" "2" ++
      [.activate "release-1" "it-1" "correlation-1",
        .activateKillSwitch "release-1" "it-1" "incident" "correlation-1",
        .activate "release-2" "it-1" "correlation-1",
        .clearKillSwitch "release-1" "it-1" "resolved" "correlation-1"])) := by
  intro h
  have hne : "release-1" ≠ "release-2" := by decide
  apply hne
  apply h.unique ("tenant-1", "workspace-1", "agent-1")
  · exact ⟨_, rfl, by decide +kernel, by decide +kernel⟩
  · exact ⟨_, rfl, by decide +kernel, by decide +kernel⟩

end Alos.Releases
