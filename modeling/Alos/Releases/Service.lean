import Mathlib.Logic.Function.Basic
import Alos.Audit
import Alos.Coop.Proc
import Alos.Governance
import Alos.Py

/-! # The release authority

`InMemoryReleaseAuthority` of `alos.releases.service`, operation by operation.
Every operation is a cooperative procedure over the two dicts of the service;
its only awaits are the calls of `AuditSink.append`. The `asyncio.Lock` is
never held across an await, so taking it never suspends and it is not part of
the model.
-/

namespace Alos.Releases

open Coop

/-- The states of a governed release. -/
inductive ReleaseState where
  | draft
  | implemented
  | automatedAssurance
  | aiReviewed
  | readyForIt
  | itApproved
  | readyForDirector
  | directorApproved
  | released
  | active
  | revisionRequired
  | returned
  | rejected
  | hold
  | blocked
  | suspended
  | rolledBack
deriving DecidableEq, Repr

/-- The text of a state in the events. -/
def ReleaseState.value : ReleaseState → String
  | .draft => "DRAFT"
  | .implemented => "IMPLEMENTED"
  | .automatedAssurance => "AUTOMATED_ASSURANCE"
  | .aiReviewed => "AI_REVIEWED"
  | .readyForIt => "READY_FOR_IT"
  | .itApproved => "IT_APPROVED"
  | .readyForDirector => "READY_FOR_DIRECTOR"
  | .directorApproved => "DIRECTOR_APPROVED"
  | .released => "RELEASED"
  | .active => "ACTIVE"
  | .revisionRequired => "REVISION_REQUIRED"
  | .returned => "RETURNED"
  | .rejected => "REJECTED"
  | .hold => "HOLD"
  | .blocked => "BLOCKED"
  | .suspended => "SUSPENDED"
  | .rolledBack => "ROLLED_BACK"

/-- What an operation raises; `audit` is whatever the audit sink raised. -/
inductive ReleaseError where
  | conflict (message : String)
  | notFound (message : String)
  | audit
deriving DecidableEq, Repr

/-- A release with its subject, the decisions it refers to, and its kill flag. -/
structure GovernedRelease where
  releaseId : String
  reviewId : String
  tenantId : String
  organizationId : String
  workspaceId : String
  subjectId : String
  subjectVersion : String
  materiality : Materiality
  state : ReleaseState
  createdBy : String
  correlationId : String
  itDecisionId : Option String := none
  directorDecisionId : Option String := none
  killSwitchActive : Bool := false
  rollbackTargetReleaseId : Option String := none
  everReleased : Bool := false
deriving DecidableEq, Repr

/-- What the index of active releases is keyed by. -/
abbrev SubjectKey := String × String × String

/-- `_subject_key`: one release at most is active for it. -/
def GovernedRelease.subjectKey (release : GovernedRelease) : SubjectKey :=
  (release.tenantId, release.workspaceId, release.subjectId)

/-- The two dicts of the service. -/
structure InMemoryReleaseAuthority where
  releases : String → Option GovernedRelease
  activeBySubject : SubjectKey → Option String

namespace InMemoryReleaseAuthority

/-- No release and nothing active. -/
def empty : InMemoryReleaseAuthority := ⟨fun _ => none, fun _ => none⟩

/-- `self._releases[release_id] = release`. -/
def setRelease (s : InMemoryReleaseAuthority) (releaseId : String) (release : GovernedRelease) :
    InMemoryReleaseAuthority :=
  { s with releases := Function.update s.releases releaseId (some release) }

/-- `self._active_by_subject[key] = release_id`, or the removal of the key. -/
def setActive (s : InMemoryReleaseAuthority) (key : SubjectKey) (releaseId : Option String) :
    InMemoryReleaseAuthority :=
  { s with activeBySubject := Function.update s.activeBySubject key releaseId }

@[simp] theorem setRelease_releases (s : InMemoryReleaseAuthority) (r : String)
    (release : GovernedRelease) :
    (s.setRelease r release).releases = Function.update s.releases r (some release) := rfl

@[simp] theorem setRelease_activeBySubject (s : InMemoryReleaseAuthority) (r : String)
    (release : GovernedRelease) :
    (s.setRelease r release).activeBySubject = s.activeBySubject := rfl

@[simp] theorem setActive_releases (s : InMemoryReleaseAuthority) (key : SubjectKey)
    (r : Option String) : (s.setActive key r).releases = s.releases := rfl

@[simp] theorem setActive_activeBySubject (s : InMemoryReleaseAuthority) (key : SubjectKey)
    (r : Option String) :
    (s.setActive key r).activeBySubject = Function.update s.activeBySubject key r := rfl

end InMemoryReleaseAuthority

/-- An operation of the service: it awaits `AuditSink.append`. -/
abbrev Op (α : Type) :=
  Proc InMemoryReleaseAuthority AuditEvent (fun _ => Appended) ReleaseError α

/-! ## The shared helpers -/

def get (releaseId : String) : Op GovernedRelease := do
  let s ← Proc.get
  match s.releases releaseId with
  | none => .raise (.notFound "release was not found")
  | some release => pure release

/-- The body of `_require` is that of `get`. -/
def require (releaseId : String) : Op GovernedRelease := get releaseId

/-- `execution_allowed`, which never suspends. -/
def executionAllowed (s : InMemoryReleaseAuthority) (releaseId : String) :
    Except ReleaseError Bool :=
  match s.releases releaseId with
  | none => .error (.notFound "release was not found")
  | some release => .ok (release.state = .active && !release.killSwitchActive)

/-- The reason that a transition without one of its own is recorded with. -/
def lifecycleReason : String := "Authoritative release lifecycle transition"

/-- The event that `_record` appends. -/
def auditEvent (release : GovernedRelease) (actorId eventType outcome : String)
    (actorKind : ActorKind) (reason : String) (metadata : Json.Fields) : AuditEvent where
  eventType := eventType
  entityType := "release"
  entityId := release.releaseId
  tenantId := release.tenantId
  organizationId := release.organizationId
  workspaceId := release.workspaceId
  actorId := actorId
  actorKind := actorKind
  correlationId := release.correlationId
  outcome := outcome
  reason := reason
  metadata := metadata

/-- What an answer of the audit sink means for the call that awaited it. -/
def settle : Appended → Op Unit
  | .returned => pure ()
  | .raised => .raise .audit

/-- Appends an event and waits for the sink. -/
def record (event : AuditEvent) : Op Unit := do
  let answer ← Proc.ask event
  settle answer

/-- The optional keyword arguments of `_transition`. -/
structure Options where
  actorKind : ActorKind := .human
  eventType : String := "release.transitioned"
  reason : String := lifecycleReason
  itDecisionId : Option String := none
  directorDecisionId : Option String := none
  killSwitchActive : Option Bool := none
  rollbackTargetReleaseId : Option String := none
  everReleased : Option Bool := none

/-- The record that `_transition` replaces `current` by. -/
def GovernedRelease.moved (current : GovernedRelease) (target : ReleaseState)
    (correlationId : String) (o : Options) : GovernedRelease :=
  { current with
    state := target
    correlationId := correlationId
    itDecisionId := Py.orElse o.itDecisionId current.itDecisionId
    directorDecisionId := Py.orElse o.directorDecisionId current.directorDecisionId
    killSwitchActive := o.killSwitchActive.getD current.killSwitchActive
    rollbackTargetReleaseId := Py.orElse o.rollbackTargetReleaseId current.rollbackTargetReleaseId
    everReleased := o.everReleased.getD current.everReleased }

/-- `release state S is not one of: A, B`. -/
def stateMessage (state : ReleaseState) (expected : List ReleaseState) : String :=
  "release state " ++ state.value ++ " is not one of: " ++
    ", ".intercalate ((expected.map ReleaseState.value).mergeSort fun a b => a ≤ b)

/-- The event that `_transition` appends once `updated` is published. -/
def transitionEvent (current updated : GovernedRelease) (actorId : String) (o : Options) :
    AuditEvent :=
  auditEvent updated actorId o.eventType updated.state.value o.actorKind o.reason
    [("from", .str current.state.value), ("to", .str updated.state.value)]

/-- `_transition`: publish the record first, then append the event. -/
def transition (releaseId : String) (expected : List ReleaseState) (target : ReleaseState)
    (actorId correlationId : String) (o : Options) : Op GovernedRelease := do
  let current ← require releaseId
  Proc.raiseIf (current.state ∉ expected) (.conflict (stateMessage current.state expected))
  let updated := current.moved target correlationId o
  Proc.modify (·.setRelease releaseId updated)
  record (transitionEvent current updated actorId o)
  pure updated

/-- The first field of the decision that is supplied and differs from the
release, in the order of `_require_decision_context`. -/
def mismatch (release : GovernedRelease) (decision : AuthoritativeDecision) : Option String :=
  let fields :=
    [("tenant_id", decision.tenantId, release.tenantId),
      ("workspace_id", decision.workspaceId, release.workspaceId),
      ("release_id", decision.releaseId, release.releaseId),
      ("subject_id", decision.subjectId, release.subjectId)]
  (fields.find? fun (_, supplied, expected) => supplied ≠ none ∧ supplied ≠ some expected).map
    Prod.fst

/-- `_require_decision_context`: the decision is about this release, and taken in its place. -/
def requireDecisionContext (releaseId : String) (decision : AuthoritativeDecision) : Op Unit := do
  let release ← get releaseId
  Proc.raiseIf (decision.reviewId ≠ release.reviewId)
    (.conflict "decision review_id does not match release")
  match mismatch release decision with
  | some field =>
      .raise (.conflict ("decision " ++ field ++ " does not match release authority context"))
  | none => pure ()

/-- `_decision_target`: where an outcome takes the release. -/
def decisionTarget (outcome : DecisionOutcome) (approved : ReleaseState) : ReleaseState :=
  match outcome with
  | .approved => approved
  | .returned => .returned
  | .rejected => .rejected
  | .hold => .hold

/-! ## The gates -/

def create (releaseId reviewId tenantId organizationId workspaceId subjectId subjectVersion : String)
    (materiality : Materiality) (actorId correlationId : String) : Op GovernedRelease := do
  let s ← Proc.get
  Proc.raiseIf (s.releases releaseId ≠ none) (.conflict "release_id already exists")
  let release : GovernedRelease := {
    releaseId := releaseId
    reviewId := reviewId
    tenantId := tenantId
    organizationId := organizationId
    workspaceId := workspaceId
    subjectId := subjectId
    subjectVersion := subjectVersion
    materiality := materiality
    state := .draft
    createdBy := actorId
    correlationId := correlationId }
  Proc.modify (·.setRelease releaseId release)
  record (auditEvent release actorId "release.created" "DRAFT" .human lifecycleReason [])
  pure release

/-- `mark_implemented`, also after a revision was asked for. -/
def markImplemented (releaseId actorId correlationId : String) : Op GovernedRelease :=
  transition releaseId [.draft, .revisionRequired] .implemented actorId correlationId {}

/-- `record_automated_assurance`: only a report that passed is taken. -/
def recordAutomatedAssurance (releaseId : String) (report : AutomatedAssuranceReport)
    (actorId correlationId : String) : Op GovernedRelease := do
  Proc.raiseIf (¬ report.passed)
    (.conflict "automated assurance did not pass expected behavior")
  transition releaseId [.implemented] .automatedAssurance actorId correlationId {}

/-- `record_ai_review_package`: the package belongs to the review of this release. -/
def recordAiReviewPackage (releaseId : String) (package : ReviewPackageReference)
    (actorId correlationId : String) : Op GovernedRelease := do
  let current ← get releaseId
  Proc.raiseIf (package.reviewId ≠ current.reviewId)
    (.conflict "ReviewPackage does not belong to this release")
  Proc.raiseIf (package.tenantId ≠ current.tenantId ∨ package.workspaceId ≠ current.workspaceId ∨
      package.subjectId ≠ current.subjectId ∨ package.subjectVersion ≠ current.subjectVersion)
    (.conflict "ReviewPackage authority context does not match release")
  transition releaseId [.automatedAssurance] .aiReviewed actorId correlationId
    { actorKind := .system }

/-- `submit_for_it`, after the review by the AI. -/
def submitForIt (releaseId actorId correlationId : String) : Op GovernedRelease :=
  transition releaseId [.aiReviewed] .readyForIt actorId correlationId {}

/-- `record_it_decision`: the first human gate. -/
def recordItDecision (releaseId : String) (decision : AuthoritativeDecision)
    (correlationId : String) : Op GovernedRelease := do
  Proc.raiseIf (decision.authority ≠ .it) (.conflict "IT gate requires an IT decision")
  requireDecisionContext releaseId decision
  let target := decisionTarget decision.outcome .itApproved
  transition releaseId [.readyForIt] target decision.actorId correlationId
    { itDecisionId := some decision.decisionId }

/-- `submit_for_director`: only a material release goes to the Director. -/
def submitForDirector (releaseId actorId correlationId : String) : Op GovernedRelease := do
  let current ← get releaseId
  Proc.raiseIf (¬ requiresDirector current.materiality)
    (.conflict "non-material release does not require Director decision")
  transition releaseId [.itApproved] .readyForDirector actorId correlationId {}

/-- `record_director_decision`: the second human gate. -/
def recordDirectorDecision (releaseId : String) (decision : AuthoritativeDecision)
    (correlationId : String) : Op GovernedRelease := do
  Proc.raiseIf (decision.authority ≠ .director)
    (.conflict "Director gate requires a Director decision")
  requireDecisionContext releaseId decision
  let target := decisionTarget decision.outcome .directorApproved
  transition releaseId [.readyForDirector] target decision.actorId correlationId
    { directorDecisionId := some decision.decisionId }

/-- `release`: after the last gate that the materiality asks for. -/
def release (releaseId actorId correlationId : String) : Op GovernedRelease := do
  let current ← get releaseId
  let expected : List ReleaseState :=
    if requiresDirector current.materiality then [.directorApproved] else [.itApproved]
  transition releaseId expected .released actorId correlationId { everReleased := some true }

/-! ## Activation, kill switch and rollback -/

/-- `activate` after its own transition: suspend the release the index names,
then write the index. -/
def supersede (release : GovernedRelease) (releaseId actorId correlationId : String) :
    Op GovernedRelease := do
  let key := release.subjectKey
  let s ← Proc.get
  match s.activeBySubject key with
  | some otherId =>
      if otherId ≠ releaseId then
        let _ ← transition otherId [.active] .suspended actorId correlationId
          { reason := "Superseded by a newly activated release" }
      else pure ()
  | none => pure ()
  Proc.modify (·.setActive key (some releaseId))
  pure release

/-- `activate`: the release becomes ACTIVE, and the active one before it is superseded. -/
def activate (releaseId actorId correlationId : String) : Op GovernedRelease := do
  let release ← transition releaseId [.released] .active actorId correlationId
    { everReleased := some true }
  supersede release releaseId actorId correlationId

/-- `activate_kill_switch`: suspends an active release, with a reason. -/
def activateKillSwitch (releaseId actorId reason correlationId : String) :
    Op GovernedRelease := do
  Proc.raiseIf (Py.Blank reason) (.conflict "kill switch reason is required")
  let release ← transition releaseId [.active] .suspended actorId correlationId
    { killSwitchActive := some true
      eventType := "release.kill_switch_activated"
      reason := reason }
  Proc.modify (·.setActive release.subjectKey none)
  pure release

/-- `clear_kill_switch`: brings a suspended release back, with a reason. -/
def clearKillSwitch (releaseId actorId reason correlationId : String) :
    Op GovernedRelease := do
  let current ← get releaseId
  Proc.raiseIf (¬ current.killSwitchActive) (.conflict "there is no active kill switch")
  Proc.raiseIf (Py.Blank reason) (.conflict "kill switch clear reason is required")
  let release ← transition releaseId [.suspended] .active actorId correlationId
    { killSwitchActive := some false
      eventType := "release.kill_switch_cleared"
      reason := reason }
  -- a sibling that has been activated since is not superseded
  Proc.modify (·.setActive release.subjectKey (some releaseId))
  pure release

/-- The target of a rollback as it is written back: the snapshot `target`,
taken before the first await of the call, made active. -/
def GovernedRelease.restored (target : GovernedRelease) (correlationId : String) :
    GovernedRelease :=
  { target with state := .active, killSwitchActive := false, correlationId := correlationId }

/-- `rollback` after its own transition: write the target back from the
snapshot, then append the second event. -/
def restore (rolledBack target : GovernedRelease) (targetReleaseId actorId reason
    correlationId : String) : Op GovernedRelease := do
  Proc.modify fun s =>
    (s.setRelease targetReleaseId (target.restored correlationId)).setActive target.subjectKey
      (some targetReleaseId)
  record (auditEvent (target.restored correlationId) actorId "release.rollback_target_activated"
    "ACTIVE" .human reason [])
  pure rolledBack

/-- `rollback`: retires the current release and restores an earlier one, each after its own event.
-/
def rollback (releaseId targetReleaseId actorId reason correlationId : String) :
    Op GovernedRelease := do
  let current ← get releaseId
  -- a snapshot, which `restore` writes back
  let target ← get targetReleaseId
  Proc.raiseIf (Py.Blank reason) (.conflict "rollback reason is required")
  Proc.raiseIf current.killSwitchActive
    (.conflict "clear the active kill switch before rollback")
  Proc.raiseIf (current.state ≠ .active) (.conflict "only an active release can be rolled back")
  Proc.raiseIf (targetReleaseId = releaseId ∨ current.subjectKey ≠ target.subjectKey)
    (.conflict "rollback target must be another release of the same subject")
  Proc.raiseIf (¬ target.everReleased)
    (.conflict "rollback target must have been released previously")
  let rolledBack ← transition releaseId [.active] .rolledBack actorId correlationId
    { rollbackTargetReleaseId := some targetReleaseId
      eventType := "release.rolled_back"
      reason := reason }
  restore rolledBack target targetReleaseId actorId reason correlationId

/-! ## Calls -/

/-- A call of one of the operations. -/
inductive Call where
  | create (releaseId reviewId tenantId organizationId workspaceId subjectId subjectVersion : String)
      (materiality : Materiality) (actorId correlationId : String)
  | markImplemented (releaseId actorId correlationId : String)
  | recordAutomatedAssurance (releaseId : String) (report : AutomatedAssuranceReport)
      (actorId correlationId : String)
  | recordAiReviewPackage (releaseId : String) (package : ReviewPackageReference)
      (actorId correlationId : String)
  | submitForIt (releaseId actorId correlationId : String)
  | recordItDecision (releaseId : String) (decision : AuthoritativeDecision)
      (correlationId : String)
  | submitForDirector (releaseId actorId correlationId : String)
  | recordDirectorDecision (releaseId : String) (decision : AuthoritativeDecision)
      (correlationId : String)
  | release (releaseId actorId correlationId : String)
  | activate (releaseId actorId correlationId : String)
  | activateKillSwitch (releaseId actorId reason correlationId : String)
  | clearKillSwitch (releaseId actorId reason correlationId : String)
  | rollback (releaseId targetReleaseId actorId reason correlationId : String)

/-- The coroutine of a call. -/
def Call.prog : Call → Op GovernedRelease
  | .create r rv t o w sub v m a c => Releases.create r rv t o w sub v m a c
  | .markImplemented r a c => Releases.markImplemented r a c
  | .recordAutomatedAssurance r report a c => Releases.recordAutomatedAssurance r report a c
  | .recordAiReviewPackage r package a c => Releases.recordAiReviewPackage r package a c
  | .submitForIt r a c => Releases.submitForIt r a c
  | .recordItDecision r decision c => Releases.recordItDecision r decision c
  | .submitForDirector r a c => Releases.submitForDirector r a c
  | .recordDirectorDecision r decision c => Releases.recordDirectorDecision r decision c
  | .release r a c => Releases.release r a c
  | .activate r a c => Releases.activate r a c
  | .activateKillSwitch r a reason c => Releases.activateKillSwitch r a reason c
  | .clearKillSwitch r a reason c => Releases.clearKillSwitch r a reason c
  | .rollback r target a reason c => Releases.rollback r target a reason c

/-- The way of a non-material release to `RELEASED`. -/
def toReleased (releaseId version : String) : List Call :=
  [.create releaseId "review-1" "tenant-1" "org-1" "workspace-1" "agent-1" version .nonMaterial
      "developer-1" "correlation-1",
    .markImplemented releaseId "developer-1" "correlation-1",
    .recordAutomatedAssurance releaseId ⟨[⟨"test-1", .positive, true⟩], [.positive]⟩ "developer-1"
      "correlation-1",
    .recordAiReviewPackage releaseId
      ⟨"review-1", "tenant-1", "workspace-1", "agent-1", version⟩ "ai-1" "correlation-1",
    .submitForIt releaseId "developer-1" "correlation-1",
    .recordItDecision releaseId
      { decisionId := "decision-1", reviewId := "review-1", authority := .it, outcome := .approved
        actorId := "it-1" } "correlation-1",
    .release releaseId "it-1" "correlation-1"]

end Alos.Releases
