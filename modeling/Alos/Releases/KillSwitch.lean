import Alos.Releases.Index

/-! # The kill switch over runs

Once `activate_kill_switch` has returned, a release is to stay stopped until
`clear_kill_switch` returns. Two steps of a sequential run break this:

* `rollback` of another release with the killed one as its target; the guard
  on the kill flag looks at the release that is rolled back only;
* `clear_kill_switch` when its append fails, since the record is published
  before the event is recorded.

No other step does (`held_step`).
-/

namespace Alos.Releases

/-- The kill flag of `r` is set. -/
def Held (s : InMemoryReleaseAuthority) (r : String) : Prop :=
  ∃ release, s.releases r = some release ∧ release.killSwitchActive = true

/-- `activate_kill_switch(r)`, started in `s`, returns. -/
def Kills (s : InMemoryReleaseAuthority) (x : Call × Audits) (r : String) : Prop :=
  (∃ a reason c, x.1 = .activateKillSwitch r a reason c) ∧ (perform s x.1.prog x.2).2.isOk

/-- `clear_kill_switch(r)` with a reason that is not blank, started in `s`,
returns. -/
def Clears (s : InMemoryReleaseAuthority) (x : Call × Audits) (r : String) : Prop :=
  (∃ a reason c, ¬ Py.Blank reason ∧ x.1 = .clearKillSwitch r a reason c) ∧
    (perform s x.1.prog x.2).2.isOk

/-- Some kill of `r` has returned in the run, and no clear of `r` since. -/
def UnderKill (steps : List (Call × Audits)) (r : String) : Prop :=
  ∃ pre x post, steps = pre ++ x :: post ∧ Kills (performAll pre) x r ∧
    ∀ mid y rest, post = mid ++ y :: rest → ¬ Clears (performAll (pre ++ x :: mid)) y r

/-- The step passes its checks in `s` and is one of the two that end the kill
of `r` in another way than by a returned clear. -/
def Lifts (s : InMemoryReleaseAuthority) (x : Call × Audits) (r : String) : Prop :=
  x.1.Accepted s ∧
    ((∃ current a reason c, x.1 = .rollback current r a reason c ∧ x.2 0 = .returned) ∨
      ∃ a reason c, x.1 = .clearKillSwitch r a reason c ∧ x.2 0 = .raised)

/-! ## One step -/

theorem held_setRelease {s : InMemoryReleaseAuthority} {r r' : String}
    {release : GovernedRelease} :
    Held (s.setRelease r' release) r ↔
      if r = r' then release.killSwitchActive = true else Held s r := by
  by_cases h : r = r'
  · subst h
    simp [Held]
  · simp [Held, h]

@[simp] theorem held_setActive {s : InMemoryReleaseAuthority} {r : String} {key : SubjectKey}
    {v : Option String} : Held (s.setActive key v) r ↔ Held s r := Iff.rfl

/-- A killed release may not be executed. -/
theorem KillSuspends.execution {s : InMemoryReleaseAuthority} {r : String} (h : KillSuspends s)
    (hr : Held s r) : executionAllowed s r = .ok false := by
  rcases hr with ⟨release, hrelease, hkill⟩
  have hstate := h r release hrelease hkill
  simp [executionAllowed, hrelease, hstate]

/-- The record that a call publishes first keeps the kill of `r`, unless the
call clears it. -/
theorem held_opening {s : InMemoryReleaseAuthority} {c : Call} {o : Opening} {r : String}
    (hr : Held s r) (ho : c.opening s = some o)
    (hclear : ∀ a reason corr, c ≠ .clearKillSwitch r a reason corr) :
    Held (s.setRelease o.releaseId o.release) r := by
  rw [held_setRelease]
  split
  · rename_i hid
    rcases hr with ⟨held, hheld, hkill⟩
    by_cases hgate : c.IsGate
    · rw [(gate_opening hgate ho).kill held (hid ▸ hheld)]
      exact hkill
    · cases c with
      | activate r' a c =>
          obtain ⟨hr', -, current, hcurrent, -, hrelease⟩ := activate_opening ho
          -- an activation carries the switch over
          rw [← hr', ← hid, hheld] at hcurrent
          cases hcurrent
          simpa [hrelease] using hkill
      | activateKillSwitch r' a reason c =>
          obtain ⟨-, -, current, -, -, hrelease⟩ := kill_opening ho
          simp [hrelease]
      | clearKillSwitch r' a reason c =>
          have hr' := (clear_opening ho).1
          exact absurd (by rw [hid, hr']) (hclear a reason c)
      | rollback r' t a reason c =>
          obtain ⟨hr', current, target, hcurrent, -, hreplaceable, -⟩ := rollback_opening ho
          rw [← hr', ← hid, hheld] at hcurrent
          cases hcurrent
          -- a killed release is not rolled back
          simp [hreplaceable.1] at hkill
      | _ => exact absurd trivial hgate
  · exact hr

/-- A step that neither lifts the kill of `r` nor clears it keeps it. -/
theorem held_step {s s' : InMemoryReleaseAuthority} {c : Call} {audits : Audits} {r : String}
    {result : Except ReleaseError GovernedRelease} (hr : Held s r)
    (heffect : Effect s c audits s' result) (hlifts : ¬ Lifts s (c, audits) r)
    (hclears : ∀ a reason corr, c = .clearKillSwitch r a reason corr → ¬ Py.Blank reason →
      ¬ result.isOk) : Held s' r := by
  have haccepted : ∀ o, c.opening s = some o → c.Accepted s := by
    intro o ho
    simp [Call.Accepted, ho]
  cases heffect with
  | refused => exact hr
  | unrecorded ho h0 =>
      apply held_opening hr ho
      intro a reason corr hc
      exact hlifts ⟨haccepted _ ho, .inr ⟨a, reason, corr, hc, h0⟩⟩
  | gate hgate ho =>
      apply held_opening hr ho
      rintro a reason corr rfl
      exact hgate
  | activated ho => exact (activate_opening ho).1 ▸ held_opening hr ho (by simp)
  | blocked ho => exact (activate_opening ho).1 ▸ held_opening hr ho (by simp)
  | half ho _ _ _ hother =>
      have hopened := (activate_opening ho).1 ▸ held_opening hr ho (by simp)
      rw [held_setRelease]
      split
      · -- the suspended release is the killed one, and keeps its switch
        rename_i hid
        rcases hr with ⟨held, hheld, hkill⟩
        rw [← hid, hheld] at hother
        cases hother
        simpa [supersededOptions] using hkill
      · exact hopened
  | superseded ho _ _ _ hother =>
      have hopened := (activate_opening ho).1 ▸ held_opening hr ho (by simp)
      rw [held_setActive, held_setRelease]
      split
      · rename_i hid
        rcases hr with ⟨held, hheld, hkill⟩
        rw [← hid, hheld] at hother
        cases hother
        simpa [supersededOptions] using hkill
      · exact hopened
  | killed ho => exact (kill_opening ho).1 ▸ held_opening hr ho (by simp)
  | @cleared r' a reason corr _ o ho _ =>
      obtain ⟨hr', -, hreason, -⟩ := clear_opening ho
      refine hr' ▸ held_opening hr ho ?_
      intro a' reason' corr' hc
      cases hc
      exact hclears a reason corr rfl hreason rfl
  | @rolledBack r' t a reason corr _ o target ho h0 _ =>
      have hopened := (rollback_opening ho).1 ▸ held_opening hr ho (by simp)
      rw [held_setActive, held_setRelease]
      split
      · rename_i hid
        subst hid
        -- the roll back restores the killed release itself
        exact absurd ⟨haccepted _ ho, .inl ⟨r', a, reason, corr, rfl, h0⟩⟩ hlifts
      · exact hopened

theorem held_of_killed {s s' : InMemoryReleaseAuthority} {r a reason c : String}
    {audits : Audits} {result : Except ReleaseError GovernedRelease}
    (h : Effect s (.activateKillSwitch r a reason c) audits s' result) (hok : result.isOk) :
    Held s' r := by
  cases h with
  | refused => cases hok
  | unrecorded => cases hok
  | gate hgate => exact hgate.elim
  | killed ho =>
      obtain ⟨-, -, current, -, -, hrelease⟩ := kill_opening ho
      rw [held_setActive, held_setRelease]
      simp [hrelease]

/-- A returned kill sets the flag. -/
theorem Kills.held {s : InMemoryReleaseAuthority} {x : Call × Audits} {r : String}
    (h : Kills s x r) : Held (perform s x.1.prog x.2).1 r := by
  obtain ⟨⟨a, reason, corr, hc⟩, hok⟩ := h
  have heffect := perform_effect s x.1 x.2
  rw [hc] at heffect hok ⊢
  exact held_of_killed heffect hok

/-- A rollback writes the flag of its target back as false. -/
theorem not_held_of_rollback {s s' : InMemoryReleaseAuthority} {current r a reason c : String}
    {audits : Audits} {result : Except ReleaseError GovernedRelease}
    (h : Effect s (.rollback current r a reason c) audits s' result)
    (haccepted : (Call.rollback current r a reason c).Accepted s) (h0 : audits 0 = .returned) :
    ¬ Held s' r := by
  cases h with
  | refused ho => simp [Call.Accepted, ho] at haccepted
  | unrecorded _ h0' => simp [h0] at h0'
  | gate hgate => exact hgate.elim
  | rolledBack =>
      rw [held_setActive, held_setRelease]
      simp [GovernedRelease.restored]

/-- A clear whose append fails has published its record and raises. -/
theorem not_held_of_unrecorded {s s' : InMemoryReleaseAuthority} {r a reason c : String}
    {audits : Audits} {result : Except ReleaseError GovernedRelease}
    (h : Effect s (.clearKillSwitch r a reason c) audits s' result)
    (haccepted : (Call.clearKillSwitch r a reason c).Accepted s) (h0 : audits 0 = .raised) :
    ¬ Held s' r ∧ ¬ result.isOk := by
  cases h with
  | refused ho => simp [Call.Accepted, ho] at haccepted
  | unrecorded ho =>
      obtain ⟨hr, -, -, current, -, -, -, hrelease⟩ := clear_opening ho
      rw [held_setRelease]
      refine ⟨?_, by simp [Except.isOk, Except.toBool]⟩
      simp [hr, hrelease]
  | gate hgate => exact hgate.elim
  | cleared _ h0' => simp [h0] at h0'

/-- A lifting step ends the kill and is no returned clear. -/
theorem Lifts.not_held {s : InMemoryReleaseAuthority} {x : Call × Audits} {r : String}
    (h : Lifts s x r) : ¬ Held (perform s x.1.prog x.2).1 r ∧ ¬ Clears s x r := by
  have heffect := perform_effect s x.1 x.2
  -- a rollback to the release, or a clearance that is not recorded
  obtain ⟨haccepted, ⟨current, a, reason, corr, hc, h0⟩ | ⟨a, reason, corr, hc, h0⟩⟩ := h
  · rw [hc] at heffect haccepted
    constructor
    · rw [hc]
      exact not_held_of_rollback heffect haccepted h0
    · rintro ⟨⟨a', reason', corr', -, hc'⟩, -⟩
      rw [hc] at hc'
      cases hc'
  · rw [hc] at heffect haccepted
    have hnot := not_held_of_unrecorded heffect haccepted h0
    constructor
    · rw [hc]
      exact hnot.1
    · rintro ⟨-, hok⟩
      rw [hc] at hok
      exact hnot.2 hok

/-! ## Runs -/

theorem underKill_snoc {steps : List (Call × Audits)} {y : Call × Audits} {r : String} :
    UnderKill (steps ++ [y]) r ↔
      Kills (performAll steps) y r ∨
        UnderKill steps r ∧ ¬ Clears (performAll steps) y r := by
  constructor
  · rintro ⟨pre, x, post, hsteps, hkills, hclears⟩
    cases post using List.reverseRecOn with
    | nil =>
        -- the last call is the one that kills
        left
        obtain ⟨rfl, hx⟩ := List.append_inj' hsteps rfl
        cases hx
        exact hkills
    | append_singleton post z _ =>
        right
        -- it killed before, and the last call is one of the later ones
        have hsteps' : steps ++ [y] = (pre ++ x :: post) ++ [z] := by simpa using hsteps
        obtain ⟨rfl, hz⟩ := List.append_inj' hsteps' rfl
        cases hz
        refine ⟨⟨pre, x, post, rfl, hkills, ?_⟩, hclears post y [] rfl⟩
        intro mid w rest hpost
        exact hclears mid w (rest ++ [y]) (by simp [hpost])
  · rintro (hkills | ⟨⟨pre, x, post, rfl, hkills, hclears⟩, hlast⟩)
    · exact ⟨steps, y, [], rfl, hkills, fun mid w rest hpost => by simp at hpost⟩
    · refine ⟨pre, x, post ++ [y], by simp, hkills, ?_⟩
      intro mid w rest hpost
      -- a later call that clears would be the last one or earlier
      cases rest using List.reverseRecOn with
      | nil =>
          obtain ⟨rfl, hw⟩ := List.append_inj' hpost rfl
          cases hw
          exact hlast
      | append_singleton rest z _ =>
          have hpost' : post ++ [y] = (mid ++ w :: rest) ++ [z] := by simpa using hpost
          obtain ⟨rfl, -⟩ := List.append_inj' hpost' rfl
          exact hclears mid w rest rfl

theorem held_of_underKill (steps : List (Call × Audits)) (r : String)
    (h : ∀ ys y, ys ++ [y] <+: steps → UnderKill ys r → ¬ Lifts (performAll ys) y r)
    (hkill : UnderKill steps r) : Held (performAll steps) r := by
  induction steps using List.reverseRecOn with
  | nil =>
      rcases hkill with ⟨pre, x, post, hnil, -⟩
      simp at hnil
  | append_singleton steps y ih =>
      rw [performAll_snoc]
      -- the last step kills the release, or the kill is from before
      rcases underKill_snoc.1 hkill with hkills | ⟨hbefore, hclears⟩
      · exact hkills.held
      · have hheld : Held (performAll steps) r := by
          apply ih _ hbefore
          intro ys z hys
          exact h ys z (hys.trans (List.prefix_append _ _))
        apply held_step hheld (perform_effect _ y.1 y.2) (h steps y (List.prefix_refl _) hbefore)
        intro a reason corr hc hreason hok
        exact hclears ⟨⟨a, reason, corr, hreason, hc⟩, hok⟩

/-- In a run, every release that has been killed and not cleared since is
under its kill switch and may not be executed, if and only if no step of the
run rolls another release back to such a release or clears one with an append
that fails. -/
theorem kill_holds_iff (steps : List (Call × Audits)) :
    (∀ ys r, ys <+: steps → UnderKill ys r →
        Held (performAll ys) r ∧ executionAllowed (performAll ys) r = .ok false) ↔
      ∀ ys y r, ys ++ [y] <+: steps → UnderKill ys r → ¬ Lifts (performAll ys) y r := by
  constructor
  · intro h ys y r hys hkill hlifts
    have hnot := hlifts.not_held
    -- the step that lifts is no clearance, so the release is still under kill
    have hkill' : UnderKill (ys ++ [y]) r := underKill_snoc.2 (.inr ⟨hkill, hnot.2⟩)
    have hheld := (h _ r hys hkill').1
    rw [performAll_snoc] at hheld
    exact hnot.1 hheld
  · intro h ys r hys hkill
    -- held states are left by no step that does not lift
    have hheld : Held (performAll ys) r := by
      apply held_of_underKill ys r _ hkill
      intro zs z hzs
      exact h zs z r (hzs.trans hys)
    exact ⟨hheld, (killSuspends_performAll ys).execution hheld⟩

/-- Version 1 is killed, version 2 takes its place and is rolled back to
version 1: nobody has cleared the kill switch, and version 1 may run. -/
theorem restored_under_kill :
    let steps := (toReleased "release-1" "1" ++ toReleased "release-2" "2" ++
      [Call.activate "release-1" "it-1" "correlation-1"]).map fun c => (c, quiet)
    let kill := (Call.activateKillSwitch "release-1" "it-1" "incident" "correlation-1", quiet)
    let later := [(Call.activate "release-2" "it-1" "correlation-1", quiet),
      (.rollback "release-2" "release-1" "it-1" "regression" "correlation-1", quiet)]
    UnderKill (steps ++ kill :: later) "release-1" ∧
      executionAllowed (performAll (steps ++ kill :: later)) "release-1" = .ok true := by
  intro steps kill later
  refine ⟨⟨steps, kill, later, rfl, ⟨⟨_, _, _, rfl⟩, by decide +kernel⟩, ?_⟩, by decide +kernel⟩
  rintro mid y rest hlater ⟨⟨a, reason, c, -, hy⟩, -⟩
  have hmem : y ∈ later := by simp [hlater]
  simp only [later, List.mem_cons, List.not_mem_nil, or_false] at hmem
  rcases hmem with rfl | rfl <;> cases hy

end Alos.Releases
