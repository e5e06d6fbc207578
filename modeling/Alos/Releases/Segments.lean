import Alos.Releases.Service

/-! # What the segments of a release call do

Every operation has the same shape: checks, one published record, one awaited
append, and for four of them something more. `Call.opening` says once, for each
of the thirteen calls, when its checks pass and what it then publishes;
`Call.begins` ties it to the code. The later segments are `supersede`,
`restore` and single index writes.
-/

namespace Alos.Releases

open Coop

/-! ## Records and their ids -/

/-- Every record is stored under its own id. -/
def WellKeyed (s : InMemoryReleaseAuthority) : Prop :=
  ∀ r release, s.releases r = some release → release.releaseId = r

/-- Writing a release under its own id keeps the dictionary keyed by ids. -/
theorem WellKeyed.setRelease {s : InMemoryReleaseAuthority} {r : String}
    {release : GovernedRelease} (h : WellKeyed s) (hr : release.releaseId = r) :
    WellKeyed (s.setRelease r release) := by
  intro r' release' hr'
  by_cases hrr : r' = r
  · subst hrr
    simp only [InMemoryReleaseAuthority.setRelease_releases, Function.update_self,
      Option.some.injEq] at hr'
    exact hr' ▸ hr
  · exact h r' release' (by simpa [hrr] using hr')

/-! ## Openings -/

/-- The first segment of a call that passes its checks: the record it
publishes, the event it then awaits, and what is left to do after that. -/
structure Opening where
  releaseId : String
  release : GovernedRelease
  event : AuditEvent
  rest : Op GovernedRelease

/-- The package belongs to the release and to its authority context. -/
def Matches (package : ReviewPackageReference) (current : GovernedRelease) : Prop :=
  package.reviewId = current.reviewId ∧ package.tenantId = current.tenantId ∧
    package.workspaceId = current.workspaceId ∧ package.subjectId = current.subjectId ∧
    package.subjectVersion = current.subjectVersion

instance (package : ReviewPackageReference) (current : GovernedRelease) :
    Decidable (Matches package current) := by unfold Matches; infer_instance

/-- The decision is one of `level` about this release. -/
def Decides (level : AuthorityLevel) (decision : AuthoritativeDecision)
    (current : GovernedRelease) : Prop :=
  decision.authority = level ∧ decision.reviewId = current.reviewId ∧
    mismatch current decision = none

instance (level : AuthorityLevel) (decision : AuthoritativeDecision) (current : GovernedRelease) :
    Decidable (Decides level decision current) := by unfold Decides; infer_instance

/-- The state from which `release` goes. -/
def approvedState (m : Materiality) : ReleaseState :=
  if requiresDirector m then .directorApproved else .itApproved

/-- `target` may replace the active release `current`. -/
def Replaceable (current target : GovernedRelease) (releaseId targetReleaseId : String) : Prop :=
  current.killSwitchActive = false ∧ current.state = .active ∧ targetReleaseId ≠ releaseId ∧
    current.subjectKey = target.subjectKey ∧ target.everReleased = true

instance (current target : GovernedRelease) (releaseId targetReleaseId : String) :
    Decidable (Replaceable current target releaseId targetReleaseId) := by
  unfold Replaceable; infer_instance

/-- The write to the index that ends a call. -/
def writeIndex (key : SubjectKey) (releaseId : Option String) (release : GovernedRelease) :
    Op GovernedRelease :=
  (Proc.modify fun s => s.setActive key releaseId).bind fun _ => .ret release

section Opens

variable (s : InMemoryReleaseAuthority) (releaseId : String)
  (guard : GovernedRelease → Prop) [DecidablePred guard] (target : ReleaseState)
  (actorId correlationId : String) (o : Options) (rest : GovernedRelease → Op GovernedRelease)

/-- A call that moves `releaseId` to `target` when `guard` holds of it. -/
def opens : Option Opening :=
  match s.releases releaseId with
  | none => none
  | some current =>
      if guard current then
        let updated := current.moved target correlationId o
        some ⟨releaseId, updated, transitionEvent current updated actorId o, rest updated⟩
      else none

end Opens

/-- The opening of a call in `s`; `none` when a check of its own refuses it. -/
def Call.opening (s : InMemoryReleaseAuthority) : Call → Option Opening
  | .create r rv t o w sub v m a c =>
      let release : GovernedRelease := {
        releaseId := r, reviewId := rv, tenantId := t, organizationId := o, workspaceId := w
        subjectId := sub, subjectVersion := v, materiality := m, state := .draft
        createdBy := a, correlationId := c }
      if s.releases r = none then
        some ⟨r, release, auditEvent release a "release.created" "DRAFT" .human lifecycleReason [],
          .ret release⟩
      else none
  | .markImplemented r a c =>
      opens s r (fun current => current.state = .draft ∨ current.state = .revisionRequired)
        .implemented a c {} .ret
  | .recordAutomatedAssurance r report a c =>
      opens s r (fun current => report.passed ∧ current.state = .implemented)
        .automatedAssurance a c {} .ret
  | .recordAiReviewPackage r package a c =>
      opens s r (fun current => Matches package current ∧ current.state = .automatedAssurance)
        .aiReviewed a c { actorKind := .system } .ret
  | .submitForIt r a c =>
      opens s r (fun current => current.state = .aiReviewed) .readyForIt a c {} .ret
  | .recordItDecision r decision c =>
      opens s r (fun current => Decides .it decision current ∧ current.state = .readyForIt)
        (decisionTarget decision.outcome .itApproved) decision.actorId c
        { itDecisionId := some decision.decisionId } .ret
  | .submitForDirector r a c =>
      opens s r (fun current => requiresDirector current.materiality ∧ current.state = .itApproved)
        .readyForDirector a c {} .ret
  | .recordDirectorDecision r decision c =>
      opens s r (fun current => Decides .director decision current ∧
          current.state = .readyForDirector)
        (decisionTarget decision.outcome .directorApproved) decision.actorId c
        { directorDecisionId := some decision.decisionId } .ret
  | .release r a c =>
      opens s r (fun current => current.state = approvedState current.materiality) .released a c
        { everReleased := some true } .ret
  | .activate r a c =>
      opens s r (fun current => current.state = .released) .active a c
        { everReleased := some true } fun release => supersede release r a c
  | .activateKillSwitch r a reason c =>
      opens s r (fun current => ¬ Py.Blank reason ∧ current.state = .active) .suspended a c
        { killSwitchActive := some true
          eventType := "release.kill_switch_activated"
          reason := reason }
        fun release => writeIndex release.subjectKey none release
  | .clearKillSwitch r a reason c =>
      opens s r (fun current => current.killSwitchActive ∧ ¬ Py.Blank reason ∧
          current.state = .suspended) .active a c
        { killSwitchActive := some false
          eventType := "release.kill_switch_cleared"
          reason := reason }
        fun release => writeIndex release.subjectKey (some r) release
  | .rollback r targetReleaseId a reason c =>
      match s.releases targetReleaseId with
      | none => none
      | some target =>
          opens s r (fun current => ¬ Py.Blank reason ∧ Replaceable current target r targetReleaseId)
            .rolledBack a c
            { rollbackTargetReleaseId := some targetReleaseId
              eventType := "release.rolled_back"
              reason := reason }
            fun release => restore release target targetReleaseId a reason c

/-- The call passes its own checks in `s`. -/
def Call.Accepted (s : InMemoryReleaseAuthority) (c : Call) : Prop := (c.opening s).isSome

instance (s : InMemoryReleaseAuthority) (c : Call) : Decidable (c.Accepted s) :=
  inferInstanceAs (Decidable (_ = true))

/-- What an opening leaves behind: its record is published, its event is
awaited. -/
def Opening.landing (o : Opening) (s : InMemoryReleaseAuthority) :
    InMemoryReleaseAuthority × Yield InMemoryReleaseAuthority AuditEvent (fun _ => Appended)
      ReleaseError GovernedRelease :=
  (s.setRelease o.releaseId o.release,
    .awaiting o.event fun answer => (settle answer).bind fun _ => o.rest)

/-- A refused call raises before it has written anything. -/
def Begins (s : InMemoryReleaseAuthority) (p : Op GovernedRelease) : Option Opening → Prop
  | none => ∃ e, p.advance s = (s, .raised e)
  | some o => p.advance s = o.landing s

/-- Only the first segment counts. -/
theorem Begins.congr_advance {s : InMemoryReleaseAuthority} {p p' : Op GovernedRelease}
    {o : Option Opening} (hp : p.advance s = p'.advance s) (h : Begins s p' o) : Begins s p o := by
  cases o with
  | none => exact h.imp fun e he => hp.trans he
  | some o => exact hp.trans h

/-- A call that starts by reading a release either finds it or raises. -/
theorem advance_get_bind (s : InMemoryReleaseAuthority) (releaseId : String)
    (f : GovernedRelease → Op GovernedRelease) :
    ((get releaseId).bind f).advance s = match s.releases releaseId with
      | none => (s, .raised (.notFound "release was not found"))
      | some release => (f release).advance s := by
  simp only [get, Proc.bind_def, Proc.get_bind, Proc.bind, Proc.advance_read]
  cases s.releases releaseId <;> rfl

/-- `_transition`, continued by `f`. -/
theorem advance_transition (s : InMemoryReleaseAuthority) (releaseId : String)
    (expected : List ReleaseState) (target : ReleaseState) (actorId correlationId : String)
    (o : Options) (f : GovernedRelease → Op GovernedRelease) :
    Begins s ((transition releaseId expected target actorId correlationId o).bind f)
      (opens s releaseId (fun current => current.state ∈ expected) target actorId correlationId o
        f) := by
  simp only [transition, require, Proc.bind_def, Proc.bind_assoc, opens]
  cases hr : s.releases releaseId with
  | none => simp [Begins, advance_get_bind, hr]
  | some current =>
      -- the release is in one of the expected states, or the call raises
      by_cases hstate : current.state ∈ expected
      · simp only [hstate, if_true, Begins, Opening.landing, advance_get_bind, hr,
          Proc.advance_raiseIf_bind, not_true_eq_false, if_false, Proc.modify_bind, record,
          Proc.ask_bind, Proc.bind_def, Proc.bind, Proc.advance, Proc.pure_def]
      · simp [hstate, Begins, advance_get_bind, hr, Proc.advance_raiseIf_bind]

/-! ## The checks, one by one

Each rule moves one check of the code out of the way of a call whose opening
is guarded by `guard`. -/

section Rules

variable {s : InMemoryReleaseAuthority} {releaseId : String}
  {guard : GovernedRelease → Prop} [DecidablePred guard] {target : ReleaseState}
  {actorId correlationId : String} {o : Options} {rest : GovernedRelease → Op GovernedRelease}

/-- The record is read first. -/
theorem begins_get {f : GovernedRelease → Op GovernedRelease}
    (hf : ∀ current, s.releases releaseId = some current →
      Begins s (f current) (opens s releaseId guard target actorId correlationId o rest)) :
    Begins s ((get releaseId).bind f)
      (opens s releaseId guard target actorId correlationId o rest) := by
  cases hr : s.releases releaseId with
  | none => simp [opens, Begins, advance_get_bind, hr]
  | some current =>
      have h := hf current hr
      simp only [Begins, advance_get_bind, hr]
      exact h

/-- Another record is read. -/
theorem begins_get_other {otherId : String} {other : GovernedRelease}
    {f : GovernedRelease → Op GovernedRelease} (hother : s.releases otherId = some other)
    (hf : Begins s (f other) (opens s releaseId guard target actorId correlationId o rest)) :
    Begins s ((get otherId).bind f)
      (opens s releaseId guard target actorId correlationId o rest) := by
  simp only [Begins, advance_get_bind, hother]
  exact hf

/-- A check that the guard implies, whatever the record. -/
theorem begins_check {c : Prop} [Decidable c] {e : ReleaseError}
    {f : Unit → Op GovernedRelease} (hc : ∀ current, guard current → ¬ c)
    (hf : ¬ c → Begins s (f ()) (opens s releaseId guard target actorId correlationId o rest)) :
    Begins s ((Proc.raiseIf c e).bind f)
      (opens s releaseId guard target actorId correlationId o rest) := by
  by_cases h : c
  · have hrefused : opens s releaseId guard target actorId correlationId o rest = none := by
      unfold opens
      split
      · rfl
      · exact if_neg fun hguard => hc _ hguard h
    simp [hrefused, Begins, Proc.advance_raiseIf_bind, h]
  · have hbegins := hf h
    simp only [Begins, Proc.advance_raiseIf_bind, h, if_false]
    exact hbegins

/-- A check that the guard implies of the record read. -/
theorem begins_check_at {current : GovernedRelease} {c : Prop} [Decidable c] {e : ReleaseError}
    {f : Unit → Op GovernedRelease} (hcurrent : s.releases releaseId = some current)
    (hc : guard current → ¬ c)
    (hf : ¬ c → Begins s (f ()) (opens s releaseId guard target actorId correlationId o rest)) :
    Begins s ((Proc.raiseIf c e).bind f)
      (opens s releaseId guard target actorId correlationId o rest) := by
  by_cases h : c
  · have hrefused : opens s releaseId guard target actorId correlationId o rest = none := by
      simp only [opens, hcurrent]
      exact if_neg fun hguard => hc hguard h
    simp [hrefused, Begins, Proc.advance_raiseIf_bind, h]
  · have hbegins := hf h
    simp only [Begins, Proc.advance_raiseIf_bind, h, if_false]
    exact hbegins

/-- `_transition` under a guard of which its caller has checked a part. -/
theorem begins_transition {expected : List ReleaseState}
    (hguard : ∀ current, s.releases releaseId = some current →
      (current.state ∈ expected ↔ guard current)) :
    Begins s ((transition releaseId expected target actorId correlationId o).bind rest)
      (opens s releaseId guard target actorId correlationId o rest) := by
  have h := advance_transition s releaseId expected target actorId correlationId o rest
  unfold opens at h ⊢
  cases hr : s.releases releaseId with
  | none => simpa [hr] using h
  | some current => simpa [hr, hguard current hr] using h

/-- `_transition` when the record has been read already. -/
theorem begins_transition_at {current : GovernedRelease} {expected : List ReleaseState}
    (hcurrent : s.releases releaseId = some current)
    (hguard : current.state ∈ expected ↔ guard current) :
    Begins s ((transition releaseId expected target actorId correlationId o).bind rest)
      (opens s releaseId guard target actorId correlationId o rest) := by
  apply begins_transition
  intro current' hcurrent'
  have hsame : current = current' := by simpa [hcurrent] using hcurrent'
  exact hsame ▸ hguard

/-- `_require_decision_context` for a decision whose level has been checked. -/
theorem begins_decision {decision : AuthoritativeDecision} {level : AuthorityLevel}
    {state : ReleaseState} (hlevel : decision.authority = level) :
    Begins s ((requireDecisionContext releaseId decision).bind fun _ =>
        (transition releaseId [state] target actorId correlationId o).bind rest)
      (opens s releaseId (fun current => Decides level decision current ∧ current.state = state)
        target actorId correlationId o rest) := by
  simp only [requireDecisionContext, Proc.bind_def, Proc.bind_assoc]
  apply begins_get
  intro current hcurrent
  apply begins_check_at hcurrent
  · intro hguard
    exact not_not.2 hguard.1.2.1
  intro hreview
  -- the context of the decision is the release's, or the first difference is told
  cases hfield : mismatch current decision with
  | some field =>
      have hrefused : opens s releaseId
          (fun current => Decides level decision current ∧ current.state = state) target
          actorId correlationId o rest = none := by
        simp [opens, hcurrent, Decides, hfield]
      rw [hrefused]
      exact ⟨_, rfl⟩
  | none =>
      apply begins_transition_at hcurrent
      simp [Decides, hlevel, hfield, not_not.1 hreview]

end Rules

/-- The package is compared with the release before the release moves. -/
theorem begins_recordAiReviewPackage (r : String) (package : ReviewPackageReference)
    (a c : String) (s : InMemoryReleaseAuthority) :
    Begins s (recordAiReviewPackage r package a c)
      ((Call.recordAiReviewPackage r package a c).opening s) := by
  rw [recordAiReviewPackage, ← Proc.bind_ret (transition ..), Call.opening]
  apply begins_get
  intro current hcurrent
  apply begins_check_at hcurrent
  · intro hguard
    exact not_not.2 hguard.1.1
  -- the package belongs to the review; then its context is compared
  intro hreview
  apply begins_check_at hcurrent
  · rintro ⟨⟨-, htenant, hworkspace, hsubject, hversion⟩, -⟩
    simp [htenant, hworkspace, hsubject, hversion]
  intro hcontext
  have hmatches : Matches package current := by
    unfold Matches
    tauto
  apply begins_transition_at hcurrent
  simp [hmatches]

/-- Clearing the kill switch starts as its opening says. -/
theorem begins_clearKillSwitch (r a reason c : String) (s : InMemoryReleaseAuthority) :
    Begins s (clearKillSwitch r a reason c) ((Call.clearKillSwitch r a reason c).opening s) := by
  rw [clearKillSwitch, Call.opening]
  apply begins_get
  intro current hcurrent
  apply begins_check_at hcurrent
  · intro hguard
    exact not_not.2 hguard.1
  intro hkill
  apply begins_check_at hcurrent
  · intro hguard
    exact hguard.2.1
  intro hreason
  apply begins_transition_at hcurrent
  simp [hreason, not_not.1 hkill]

/-- Both releases are read before the reason is looked at. -/
theorem begins_rollback (r targetReleaseId a reason c : String) (s : InMemoryReleaseAuthority) :
    Begins s (rollback r targetReleaseId a reason c)
      ((Call.rollback r targetReleaseId a reason c).opening s) := by
  rw [rollback, Call.opening]
  -- nothing is published unless there is a target
  cases htarget : s.releases targetReleaseId with
  | none =>
      cases hcurrent : s.releases r <;>
        simp [Begins, advance_get_bind, hcurrent, htarget]
  | some target =>
      apply begins_get
      intro current hcurrent
      apply begins_get_other htarget
      apply begins_check
      · intro current hguard
        exact hguard.1
      intro hreason
      apply begins_check_at hcurrent
      · intro hguard
        simp [hguard.2.1]
      intro hkill
      apply begins_check_at hcurrent
      · intro hguard
        exact not_not.2 hguard.2.2.1
      intro hstate
      apply begins_check_at hcurrent
      · rintro ⟨-, -, -, hne, hkey, -⟩
        simp [hne, hkey]
      intro hother
      apply begins_check_at hcurrent
      · intro hguard
        exact not_not.2 hguard.2.2.2.2.2
      intro hever
      -- what the checks have left is what the guard asks for
      have hreplaceable : Replaceable current target r targetReleaseId := by
        simp only [not_or, not_not] at hother hever hstate
        exact ⟨by simpa using hkill, hstate, hother.1, hother.2, hever⟩
      apply begins_transition_at hcurrent
      simp [hreason, hreplaceable, hreplaceable.2.1]

/-- The opening of a call is what its code does up to the first await. -/
theorem prog_begins (c : Call) (s : InMemoryReleaseAuthority) :
    Begins s c.prog (c.opening s) := by
  -- for each call, its checks in the order of the source
  cases c with
  | create r rv t o w sub v m a c =>
      simp only [Call.prog, create, Call.opening, Proc.bind_def, Proc.get_bind]
      by_cases hr : s.releases r = none
      · simp [Begins, Opening.landing, hr, Proc.advance_raiseIf_bind, record, Proc.bind]
      · simp [Begins, hr, Proc.advance_raiseIf_bind]
  | markImplemented r a c =>
      rw [Call.prog, markImplemented, ← Proc.bind_ret (transition ..), Call.opening]
      apply begins_transition
      intro current _
      simp
  | recordAutomatedAssurance r report a c =>
      rw [Call.prog, recordAutomatedAssurance, ← Proc.bind_ret (transition ..), Call.opening]
      apply begins_check
      · intro current hguard
        exact not_not.2 hguard.1
      intro hpassed
      apply begins_transition
      intro current _
      simp [not_not.1 hpassed]
  | recordAiReviewPackage r package a c => exact begins_recordAiReviewPackage r package a c s
  | submitForIt r a c =>
      rw [Call.prog, submitForIt, ← Proc.bind_ret (transition ..), Call.opening]
      apply begins_transition
      intro current _
      simp
  | recordItDecision r decision c =>
      rw [Call.prog, recordItDecision, ← Proc.bind_ret (transition ..), Call.opening]
      apply begins_check
      · intro current hguard
        exact not_not.2 hguard.1.1
      intro hlevel
      exact begins_decision (not_not.1 hlevel)
  | submitForDirector r a c =>
      rw [Call.prog, submitForDirector, ← Proc.bind_ret (transition ..), Call.opening]
      apply begins_get
      intro current hcurrent
      apply begins_check_at hcurrent
      · intro hguard
        exact not_not.2 hguard.1
      intro hmaterial
      apply begins_transition_at hcurrent
      simp [not_not.1 hmaterial]
  | recordDirectorDecision r decision c =>
      rw [Call.prog, recordDirectorDecision, ← Proc.bind_ret (transition ..), Call.opening]
      apply begins_check
      · intro current hguard
        exact not_not.2 hguard.1.1
      intro hlevel
      exact begins_decision (not_not.1 hlevel)
  | release r a c =>
      rw [Call.opening]
      apply begins_get
      intro current hcurrent
      rw [← Proc.bind_ret (transition ..)]
      apply begins_transition_at hcurrent
      unfold approvedState
      split <;> simp
  | activate r a c =>
      apply begins_transition
      intro current _
      simp
  | activateKillSwitch r a reason c =>
      rw [Call.prog, activateKillSwitch, Call.opening]
      apply begins_check
      · intro current hguard
        exact hguard.1
      intro hreason
      apply begins_transition
      intro current _
      simp [hreason]
  | clearKillSwitch r a reason c => exact begins_clearKillSwitch r a reason c s
  | rollback r targetReleaseId a reason c => exact begins_rollback r targetReleaseId a reason c s

/-! ## Openings, inverted -/

theorem opens_eq_some {s : InMemoryReleaseAuthority} {releaseId : String}
    {guard : GovernedRelease → Prop} [DecidablePred guard] {target : ReleaseState}
    {actorId correlationId : String} {options : Options}
    {rest : GovernedRelease → Op GovernedRelease} {o : Opening}
    (h : opens s releaseId guard target actorId correlationId options rest = some o) :
    ∃ current, s.releases releaseId = some current ∧ guard current ∧
      o = ⟨releaseId, current.moved target correlationId options,
        transitionEvent current (current.moved target correlationId options) actorId options,
        rest (current.moved target correlationId options)⟩ := by
  unfold opens at h
  split at h
  · cases h
  -- the release is there, and the guard holds of it
  · rename_i current hcurrent
    split at h
    · rename_i hguard
      exact ⟨current, hcurrent, hguard, (Option.some.inj h).symm⟩
    · cases h

@[simp] theorem moved_state (current : GovernedRelease) (target : ReleaseState)
    (correlationId : String) (o : Options) :
    (current.moved target correlationId o).state = target := rfl

@[simp] theorem moved_subjectKey (current : GovernedRelease) (target : ReleaseState)
    (correlationId : String) (o : Options) :
    (current.moved target correlationId o).subjectKey = current.subjectKey := rfl

@[simp] theorem moved_killSwitchActive (current : GovernedRelease) (target : ReleaseState)
    (correlationId : String) (o : Options) :
    (current.moved target correlationId o).killSwitchActive =
      o.killSwitchActive.getD current.killSwitchActive := rfl

@[simp] theorem moved_everReleased (current : GovernedRelease) (target : ReleaseState)
    (correlationId : String) (o : Options) :
    (current.moved target correlationId o).everReleased =
      o.everReleased.getD current.everReleased := rfl

/-- The states in which a release is neither running nor stopped by one of
`activate`, `activate_kill_switch` and `clear_kill_switch`. -/
def ReleaseState.Idle (state : ReleaseState) : Prop := state ≠ .active ∧ state ≠ .suspended

instance (state : ReleaseState) : Decidable state.Idle := inferInstanceAs (Decidable (_ ∧ _))

/-- The calls before activation. -/
def Call.IsGate : Call → Prop
  | .activate .. | .activateKillSwitch .. | .clearKillSwitch .. | .rollback .. => False
  | _ => True

/-- What the first nine operations have in common: an idle record is replaced
by an idle one with the same kill flag, and after the append nothing is left
to do. -/
structure GateMove (s : InMemoryReleaseAuthority) (o : Opening) : Prop where
  rest : o.rest = .ret o.release
  idle : o.release.state.Idle
  fresh : s.releases o.releaseId = none → o.release.killSwitchActive = false
  idle_before : ∀ current, s.releases o.releaseId = some current → current.state.Idle
  moves : ∀ current, s.releases o.releaseId = some current → o.release.state ≠ current.state
  kill : ∀ current, s.releases o.releaseId = some current →
    o.release.killSwitchActive = current.killSwitchActive

/-- A transition that opens makes a move between gates. -/
theorem opens_gateMove {s : InMemoryReleaseAuthority} {releaseId : String}
    {guard : GovernedRelease → Prop} [DecidablePred guard] {target : ReleaseState}
    {actorId correlationId : String} {options : Options} {o : Opening}
    (h : opens s releaseId guard target actorId correlationId options .ret = some o)
    (hkill : options.killSwitchActive = none) (htarget : target.Idle)
    (hguard : ∀ current, guard current → current.state.Idle ∧ target ≠ current.state) :
    GateMove s o := by
  obtain ⟨current, hcurrent, hg, rfl⟩ := opens_eq_some h
  -- what was found under the id is the one release there
  have hsame : ∀ current', s.releases releaseId = some current' → current' = current := by
    intro current' hcurrent'
    simpa [hcurrent] using hcurrent'.symm
  refine ⟨rfl, htarget, ?_, ?_, ?_, ?_⟩
  · intro hnone
    simp [hnone] at hcurrent
  · intro current' hcurrent'
    exact hsame current' hcurrent' ▸ (hguard current hg).1
  · intro current' hcurrent'
    exact hsame current' hcurrent' ▸ (hguard current hg).2
  · intro current' hcurrent'
    simp [hsame current' hcurrent', hkill]

/-- A decision makes no release active. -/
theorem decisionTarget_idle (outcome : DecisionOutcome) {approved state : ReleaseState}
    (hidle : approved.Idle) (hstate : state ∉ [ReleaseState.returned, .rejected, .hold, approved]) :
    (decisionTarget outcome approved).Idle ∧ decisionTarget outcome approved ≠ state := by
  cases outcome <;> simp_all [decisionTarget, ReleaseState.Idle, eq_comm]

/-- An opening of a gate is a move of a gate. -/
theorem gate_opening {s : InMemoryReleaseAuthority} {c : Call} {o : Opening} (hc : c.IsGate)
    (h : c.opening s = some o) : GateMove s o := by
  -- a gate leads from one idle state to another
  cases c with
  | create r rv t o' w sub v m a c =>
      simp only [Call.opening] at h
      split at h
      · rename_i hnone
        cases h
        exact ⟨rfl, by simp [ReleaseState.Idle], fun _ => rfl, by simp [hnone], by simp [hnone],
          by simp [hnone]⟩
      · cases h
  | markImplemented r a c =>
      apply opens_gateMove h rfl (by decide)
      rintro current (hstate | hstate) <;> simp [hstate, ReleaseState.Idle]
  | recordAutomatedAssurance r report a c =>
      apply opens_gateMove h rfl (by decide)
      rintro current ⟨-, hstate⟩
      simp [hstate, ReleaseState.Idle]
  | recordAiReviewPackage r package a c =>
      apply opens_gateMove h rfl (by decide)
      rintro current ⟨-, hstate⟩
      simp [hstate, ReleaseState.Idle]
  | submitForIt r a c =>
      apply opens_gateMove h rfl (by decide)
      intro current hstate
      simp [hstate, ReleaseState.Idle]
  | recordItDecision r decision c =>
      have htarget : (decisionTarget decision.outcome .itApproved).Idle ∧
          decisionTarget decision.outcome .itApproved ≠ .readyForIt :=
        decisionTarget_idle decision.outcome (by decide) (by decide)
      apply opens_gateMove h rfl htarget.1
      rintro current ⟨-, hstate⟩
      exact ⟨by simp [hstate, ReleaseState.Idle], hstate ▸ htarget.2⟩
  | submitForDirector r a c =>
      apply opens_gateMove h rfl (by decide)
      rintro current ⟨-, hstate⟩
      simp [hstate, ReleaseState.Idle]
  | recordDirectorDecision r decision c =>
      have htarget : (decisionTarget decision.outcome .directorApproved).Idle ∧
          decisionTarget decision.outcome .directorApproved ≠ .readyForDirector :=
        decisionTarget_idle decision.outcome (by decide) (by decide)
      apply opens_gateMove h rfl htarget.1
      rintro current ⟨-, hstate⟩
      exact ⟨by simp [hstate, ReleaseState.Idle], hstate ▸ htarget.2⟩
  | release r a c =>
      apply opens_gateMove h rfl (by decide)
      intro current hstate
      unfold approvedState at hstate
      split at hstate <;> simp [hstate, ReleaseState.Idle]
  | activate => exact hc.elim
  | activateKillSwitch => exact hc.elim
  | clearKillSwitch => exact hc.elim
  | rollback => exact hc.elim

/-! The openings of the four calls that do more than one transition. -/

section Inversion

variable {s : InMemoryReleaseAuthority} {r t a reason c : String} {o : Opening}

/-- What an activation does before it waits. -/
theorem activate_opening (h : (Call.activate r a c).opening s = some o) :
    o.releaseId = r ∧ o.rest = supersede o.release r a c ∧
      ∃ current, s.releases r = some current ∧ current.state = .released ∧
        o.release = current.moved .active c { everReleased := some true } := by
  rw [Call.opening] at h
  obtain ⟨current, hcurrent, hstate, rfl⟩ := opens_eq_some h
  exact ⟨rfl, rfl, current, hcurrent, hstate, rfl⟩

/-- What a kill switch does before it waits. -/
theorem kill_opening (h : (Call.activateKillSwitch r a reason c).opening s = some o) :
    o.releaseId = r ∧ o.rest = writeIndex o.release.subjectKey none o.release ∧
      ∃ current, s.releases r = some current ∧ current.state = .active ∧
        o.release = current.moved .suspended c
          { killSwitchActive := some true
            eventType := "release.kill_switch_activated"
            reason := reason } := by
  rw [Call.opening] at h
  obtain ⟨current, hcurrent, hstate, rfl⟩ := opens_eq_some h
  exact ⟨rfl, rfl, current, hcurrent, hstate.2, rfl⟩

/-- What clearing it does before it waits. -/
theorem clear_opening (h : (Call.clearKillSwitch r a reason c).opening s = some o) :
    o.releaseId = r ∧ o.rest = writeIndex o.release.subjectKey (some r) o.release ∧
      ¬ Py.Blank reason ∧
      ∃ current, s.releases r = some current ∧ current.killSwitchActive = true ∧
        current.state = .suspended ∧
        o.release = current.moved .active c
          { killSwitchActive := some false
            eventType := "release.kill_switch_cleared"
            reason := reason } := by
  rw [Call.opening] at h
  obtain ⟨current, hcurrent, ⟨hkill, hreason, hstate⟩, rfl⟩ := opens_eq_some h
  exact ⟨rfl, rfl, hreason, current, hcurrent, hkill, hstate, rfl⟩

/-- What a rollback does before it waits: nothing but moving the current release. -/
theorem rollback_opening (h : (Call.rollback r t a reason c).opening s = some o) :
    o.releaseId = r ∧
      ∃ current target, s.releases r = some current ∧ s.releases t = some target ∧
        Replaceable current target r t ∧ o.rest = restore o.release target t a reason c ∧
        o.release = current.moved .rolledBack c
          { rollbackTargetReleaseId := some t
            eventType := "release.rolled_back"
            reason := reason } := by
  simp only [Call.opening] at h
  split at h
  · cases h
  -- both releases are there, and the guard relates them
  · rename_i target htarget
    obtain ⟨current, hcurrent, hguard, rfl⟩ := opens_eq_some h
    exact ⟨rfl, current, target, hcurrent, htarget, hguard.2, rfl, rfl⟩

end Inversion

/-! ## Superseding -/

/-- The options of the transition that `activate` makes on the indexed
release. -/
def supersededOptions : Options := { reason := "Superseded by a newly activated release" }

section Supersede

variable {s : InMemoryReleaseAuthority} {release : GovernedRelease} {releaseId otherId : String}
  {actorId correlationId : String}

/-- Nothing else is indexed: only the index is written. -/
theorem supersede_advance
    (h : ∀ otherId, s.activeBySubject release.subjectKey = some otherId → otherId = releaseId) :
    (supersede release releaseId actorId correlationId).advance s =
      (s.setActive release.subjectKey (some releaseId), .returned release) := by
  simp only [supersede, Proc.bind_def, Proc.get_bind, Proc.advance_read]
  cases hindex : s.activeBySubject release.subjectKey with
  | none => rfl
  | some otherId => simp [h otherId hindex]

variable (actorId correlationId) in
/-- Another release is indexed: it is suspended first. -/
theorem supersede_begins (hindex : s.activeBySubject release.subjectKey = some otherId)
    (hne : otherId ≠ releaseId) :
    Begins s (supersede release releaseId actorId correlationId)
      (opens s otherId (fun other => other.state = .active) .suspended actorId correlationId
        supersededOptions fun _ => writeIndex release.subjectKey (some releaseId) release) := by
  have hadvance : (supersede release releaseId actorId correlationId).advance s =
      ((transition otherId [.active] .suspended actorId correlationId supersededOptions).bind
        fun _ => writeIndex release.subjectKey (some releaseId) release).advance s := by
    simp [supersede, hindex, hne, writeIndex, supersededOptions]
  apply Begins.congr_advance hadvance
  apply begins_transition
  intro other _
  simp

/-- The two ways on after the first append of `activate`. -/
theorem supersede_cases (s : InMemoryReleaseAuthority) (release : GovernedRelease)
    (releaseId : String) :
    (∀ otherId, s.activeBySubject release.subjectKey = some otherId → otherId = releaseId) ∨
      ∃ otherId, s.activeBySubject release.subjectKey = some otherId ∧ otherId ≠ releaseId := by
  cases hindex : s.activeBySubject release.subjectKey with
  | none => exact .inl (by simp)
  | some otherId =>
      by_cases hne : otherId = releaseId
      · exact .inl (by simp [hne])
      · exact .inr ⟨otherId, rfl, hne⟩

end Supersede

end Alos.Releases
