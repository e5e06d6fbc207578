import Alos.Releases.Alone

/-! # What a failing call leaves behind

A record is published before its event is recorded, and `activate` and
`rollback` write more than one record. So a call that raises leaves the state
alone only when one of its own checks refused it. `unchanged_iff` says when an
operation, run alone from any state whatever, either returns or leaves the
state as it was.
-/

namespace Alos.Releases

/-- Every append of the call returns, and the release that `activate` finds in
the index, if it is another one, can be suspended. -/
def Completes (s : InMemoryReleaseAuthority) (c : Call) (audits : Audits) : Prop :=
  audits 0 = .returned ∧
    match c with
    | .activate r _ _ =>
        ∀ current other, s.releases r = some current →
          s.activeBySubject current.subjectKey = some other → other ≠ r →
            audits 1 = .returned ∧ ∃ old, s.releases other = some old ∧ old.state = .active
    | .rollback .. => audits 1 = .returned
    | _ => True

/-- The record that a call publishes first is in another state than before. -/
theorem opening_moves {s : InMemoryReleaseAuthority} {c : Call} {o : Opening}
    {current : GovernedRelease} (ho : c.opening s = some o)
    (hcurrent : s.releases o.releaseId = some current) : o.release.state ≠ current.state := by
  by_cases hgate : c.IsGate
  · exact (gate_opening hgate ho).moves current hcurrent
  · -- the record read is the one that is published
    have hsame : ∀ {r : String} {current' : GovernedRelease}, o.releaseId = r →
        s.releases r = some current' → current' = current := by
      intro r current' hr hcurrent'
      rw [hr, hcurrent'] at hcurrent
      exact Option.some.inj hcurrent
    cases c with
    | activate r a c =>
        obtain ⟨hr, -, current', hcurrent', hstate, hrelease⟩ := activate_opening ho
        simp [hrelease, ← hsame hr hcurrent', hstate]
    | activateKillSwitch r a reason c =>
        obtain ⟨hr, -, current', hcurrent', hstate, hrelease⟩ := kill_opening ho
        simp [hrelease, ← hsame hr hcurrent', hstate]
    | clearKillSwitch r a reason c =>
        obtain ⟨hr, -, -, current', hcurrent', -, hstate, hrelease⟩ := clear_opening ho
        simp [hrelease, ← hsame hr hcurrent', hstate]
    | rollback r t a reason c =>
        obtain ⟨hr, current', target, hcurrent', -, hreplaceable, -, hrelease⟩ :=
          rollback_opening ho
        simp [hrelease, ← hsame hr hcurrent', hreplaceable.2.1]
    | _ => exact absurd trivial hgate

/-- A state that still has the first published record is not the old one. -/
theorem opening_changes {s s' : InMemoryReleaseAuthority} {c : Call} {o : Opening}
    (ho : c.opening s = some o) (hs' : s'.releases o.releaseId = some o.release) : s' ≠ s := by
  rintro rfl
  exact opening_moves ho hs' rfl

theorem effect_unchanged_iff {s s' : InMemoryReleaseAuthority} {c : Call} {audits : Audits}
    {result : Except ReleaseError GovernedRelease} (h : Effect s c audits s' result) :
    (result.isOk = false → s' = s) ↔ ¬ c.Accepted s ∨ Completes s c audits := by
  have haccepted : ∀ o, c.opening s = some o → c.Accepted s := by
    intro o ho
    simp [Call.Accepted, ho]
  -- a call that returns completes, one that raises after its first write does not
  have hreturns : ∀ release, result = .ok release → Completes s c audits →
      ((result.isOk = false → s' = s) ↔ ¬ c.Accepted s ∨ Completes s c audits) := by
    rintro release rfl hcompletes
    simp [hcompletes, Except.isOk, Except.toBool]
  have hraises : ∀ o e, c.opening s = some o → result = .error e →
      s'.releases o.releaseId = some o.release → ¬ Completes s c audits →
      ((result.isOk = false → s' = s) ↔ ¬ c.Accepted s ∨ Completes s c audits) := by
    rintro o e ho rfl hs' hcompletes
    simp [haccepted o ho, hcompletes, opening_changes ho hs', Except.isOk, Except.toBool]
  cases h with
  | refused ho => simp [Call.Accepted, ho]
  | unrecorded ho h0 =>
      refine hraises _ _ ho rfl (by simp) ?_
      rintro ⟨hreturned, -⟩
      simp [h0] at hreturned
  | gate hgate ho h0 =>
      refine hreturns _ rfl ⟨h0, ?_⟩
      cases c <;> trivial
  | @activated r a c _ o ho h0 hindex =>
      refine hreturns _ rfl ⟨h0, ?_⟩
      intro current other hcurrent hother hne
      obtain ⟨-, -, current', hcurrent', -, hrelease⟩ := activate_opening ho
      rw [hcurrent] at hcurrent'
      cases hcurrent'
      exact absurd (hindex other (by simpa [hrelease] using hother)) hne
  | @blocked r a c _ o other e ho h0 hindex hne hother =>
      obtain ⟨hr, -, current, hcurrent, -, hrelease⟩ := activate_opening ho
      refine hraises _ _ ho rfl (by simp [hr]) ?_
      rintro ⟨-, hcompletes⟩
      obtain ⟨-, old, hold, hactive⟩ := hcompletes current other hcurrent
        (by simpa [hrelease] using hindex) hne
      exact hother old hold hactive
  | @half r a c _ o other old ho h0 hindex hne hother hactive h1 =>
      obtain ⟨hr, -, current, hcurrent, -, hrelease⟩ := activate_opening ho
      refine hraises _ _ ho rfl (by simp [hr, Ne.symm hne]) ?_
      rintro ⟨-, hcompletes⟩
      have hreturned := (hcompletes current other hcurrent (by simpa [hrelease] using hindex) hne).1
      simp [h1] at hreturned
  | @superseded r a c _ o other old ho h0 hindex hne hother hactive h1 =>
      refine hreturns _ rfl ⟨h0, ?_⟩
      intro current other' hcurrent hother' hne'
      obtain ⟨-, -, current', hcurrent', -, hrelease⟩ := activate_opening ho
      rw [hcurrent] at hcurrent'
      cases hcurrent'
      have hsame : other' = other := by simpa [hrelease, hother'] using hindex
      exact ⟨h1, old, hsame ▸ hother, hactive⟩
  | killed ho h0 => exact hreturns _ rfl ⟨h0, trivial⟩
  | cleared ho h0 => exact hreturns _ rfl ⟨h0, trivial⟩
  | @rolledBack r t a reason c _ o target ho h0 htarget =>
      obtain ⟨hr, current, target', -, -, hreplaceable, -⟩ := rollback_opening ho
      by_cases h1 : audits 1 = .returned
      · exact hreturns o.release (by simp [h1]) ⟨h0, h1⟩
      · refine hraises o .audit ho (by simp [h1]) ?_ ?_
        · simp [hr, Ne.symm hreplaceable.2.2.1]
        · rintro ⟨-, hreturned⟩
          exact h1 hreturned

/-- An operation run alone either returns or leaves the two dicts as they were,
if and only if its own checks refuse it or nothing fails after them. -/
theorem unchanged_iff (s : InMemoryReleaseAuthority) (c : Call) (audits : Audits) :
    ((perform s c.prog audits).2.isOk = false → (perform s c.prog audits).1 = s) ↔
      ¬ c.Accepted s ∨ Completes s c audits :=
  effect_unchanged_iff (perform_effect s c audits)

/-- The first operation of a service whose audit sink is down raises, and the
release exists. -/
theorem unrecorded_create :
    let create := Call.create "release-1" "review-1" "tenant-1" "org-1" "workspace-1" "agent-1"
      "1" .nonMaterial "developer-1" "correlation-1"
    (perform .empty create.prog fun _ => .raised).2.isOk = false ∧
      (perform .empty create.prog fun _ => .raised).1 ≠ .empty := by
  intro create
  refine ⟨by decide +kernel, ?_⟩
  intro hempty
  have hnone := congrArg (fun s => s.releases "release-1" = none) hempty
  revert hnone
  decide +kernel

end Alos.Releases
