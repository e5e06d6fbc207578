import Alos.Audit
import Alos.Authorization
import Alos.Coop.Proc
import Alos.Py

/-! # Enforced authorization decisions

`AuthorizationEnforcer.enforce` of `alos.authorization.enforcement`. The values
of a request that are not trusted are compared with those of the authenticated
principal, then the policy is asked, and every decision is recorded before it is
returned.

* `decision_allowed_iff`: what a command that is allowed has passed (`Passes`);
* `Entitled` is what it should have passed. An untrusted division or project is
  not looked at when the principal has none, and a target that is the empty
  string counts as no target (`Overlooked`);
* `enforced_iff`: a decision is right unless one of these is overlooked.
-/

namespace Alos.Authorization

open Coop Py

inductive AuthorizationOutcome where
  | allowed
  | denied
  | needsInfo
deriving DecidableEq, Repr

def AuthorizationOutcome.value : AuthorizationOutcome → String
  | .allowed => "ALLOWED"
  | .denied => "DENIED"
  | .needsInfo => "NEEDS_INFO"

structure AuthorizationDecision where
  outcome : AuthorizationOutcome
  principal : Option Principal
  reason : String
  correlationId : String
  deniedField : Option String := none

/-- The arguments of `enforce`. -/
structure Command where
  principal : Option Principal
  requiredPermission : String
  requiredScopes : Finset String := ∅
  divisionId : Option String := none
  projectId : Option String := none
  correlationId : String
  command : String := "unknown"
  untrustedActorId : Option String := none
  untrustedTenantId : Option String := none
  untrustedWorkspaceId : Option String := none
  untrustedDivisionId : Option String := none
  untrustedProjectId : Option String := none

inductive Question where
  | append (event : AuditEvent)

@[reducible] def Answer : Question → Type
  | .append _ => Alos.Appended

inductive EnforceError where
  /-- What `AuditSink.append` raises. -/
  | audit
deriving DecidableEq, Repr

abbrev EnforceOp (α : Type) := Proc Unit Question Answer EnforceError α

/-! ## The decision -/

/-- The reason and the name of a field of the request that is not the
principal's. -/
def conflict (field : String) : String × String :=
  ("Frontend-supplied " ++ field ++ " conflicts with authenticated principal.", field)

/-- `_check_untrusted_conflicts`. -/
def checkUntrustedConflicts (principal : Principal)
    (untrustedActorId untrustedTenantId untrustedWorkspaceId untrustedDivisionId
      untrustedProjectId : Option String) : Option (String × String) :=
  let checks := [(untrustedActorId, principal.actorId, "actor_id"),
    (untrustedTenantId, principal.tenantId, "tenant_id"),
    (untrustedWorkspaceId, principal.workspaceId, "workspace_id")]
  match checks.find? fun (untrusted, authoritative, _) =>
      untrusted ≠ none ∧ untrusted ≠ some authoritative with
  | some (_, _, field) => some (conflict field)
  | none =>
      if (untrustedDivisionId ≠ none ∧ principal.divisionId ≠ none) ∧
          untrustedDivisionId ≠ principal.divisionId then some (conflict "division_id")
      else if (untrustedProjectId ≠ none ∧ principal.projectId ≠ none) ∧
          untrustedProjectId ≠ principal.projectId then some (conflict "project_id")
      else none

/-- The decision that `enforce` comes to. -/
def decision (c : Command) : AuthorizationDecision :=
  match c.principal with
  | none =>
      { outcome := .denied, principal := none, reason := "Authenticated principal is missing.",
        correlationId := c.correlationId, deniedField := some "actor" }
  | some principal =>
    if ¬ principal.active then
      { outcome := .denied, principal := some principal,
        reason := "Authenticated principal is inactive.", correlationId := c.correlationId,
        deniedField := some "actor" }
    else match checkUntrustedConflicts principal c.untrustedActorId c.untrustedTenantId
        c.untrustedWorkspaceId c.untrustedDivisionId c.untrustedProjectId with
    | some (reason, field) =>
        { outcome := .denied, principal := some principal, reason := reason,
          correlationId := c.correlationId, deniedField := some field }
    | none =>
      let effectiveDivision := orElse c.divisionId principal.divisionId
      let effectiveProject := orElse c.projectId principal.projectId
      if principal.scopes = ∅ then
        { outcome := .needsInfo, principal := some principal,
          reason := "At least one Backend-authorized scope is required.",
          correlationId := c.correlationId, deniedField := some "scopes" }
      else if ¬ AuthorizationPolicy.isAllowed (some principal) principal.tenantId
          principal.organizationId principal.workspaceId c.requiredPermission c.requiredScopes
          effectiveDivision effectiveProject then
        { outcome := .denied, principal := some principal,
          reason := "Authorization policy denied the request.",
          correlationId := c.correlationId, deniedField := some "policy" }
      else
        { outcome := .allowed, principal := some principal, reason := "Authorized.",
          correlationId := c.correlationId }

/-- The metadata of the event of a decision. -/
def decisionMetadata (decision : AuthorizationDecision) (command : String) : Json.Fields :=
  ("command", .str command) :: match decision.deniedField with
    | some field => if field = "" then [] else [("denied_field", .str field)]
    | none => []

/-- The event of a decision. -/
def decisionEvent (decision : AuthorizationDecision) (command : String) : AuditEvent where
  eventType := "authorization.decision"
  entityType := "command"
  entityId := command
  tenantId := (decision.principal.map (·.tenantId)).getD "unknown"
  organizationId := (decision.principal.map (·.organizationId)).getD "unknown"
  workspaceId := (decision.principal.map (·.workspaceId)).getD "unknown"
  actorId := (decision.principal.map (·.actorId)).getD "unknown"
  correlationId := decision.correlationId
  outcome := decision.outcome.value
  reason := decision.reason
  metadata := decisionMetadata decision command

def settle : Alos.Appended → EnforceOp Unit
  | .returned => pure ()
  | .raised => .raise .audit

/-- `_audit_decision`. -/
def auditDecision (decision : AuthorizationDecision) (command : String) : EnforceOp Unit := do
  settle (← .ask (.append (decisionEvent decision command)))

/-- Every exit of `enforce` records the decision that it returns. -/
def enforce (c : Command) : EnforceOp AuthorizationDecision := do
  auditDecision (decision c) c.command
  pure (decision c)

/-! ## What is allowed -/

/-- What a request gives as the principal's own is the principal's own. -/
def Own (given own : Option String) : Prop := ∀ value, given = some value → own = some value

/-- The requirements that do not concern divisions and projects. -/
structure Cleared (c : Command) (p : Principal) : Prop where
  known : c.principal = some p
  active : p.active = true
  hasScope : p.scopes ≠ ∅
  permission : c.requiredPermission ∈ p.permissions
  scopes : c.requiredScopes ⊆ p.scopes
  actorId : Own c.untrustedActorId (some p.actorId)
  tenantId : Own c.untrustedTenantId (some p.tenantId)
  workspaceId : Own c.untrustedWorkspaceId (some p.workspaceId)

/-- The command may be carried out for the principal. -/
structure EntitledAs (c : Command) (p : Principal) : Prop extends Cleared c p where
  untrustedDivision : Own c.untrustedDivisionId p.divisionId
  untrustedProject : Own c.untrustedProjectId p.projectId
  division : Own c.divisionId p.divisionId
  project : Own c.projectId p.projectId

def Entitled (c : Command) : Prop := ∃ p, EntitledAs c p

/-- What the enforcer compares of the divisions, or of the projects: an untrusted
value if the principal has one of its own, and a target that is not empty. -/
structure Compared (untrusted target own : Option String) : Prop where
  untrusted : own ≠ none → Own untrusted own
  target : target ≠ some "" → Own target own

/-- What the enforcer checks before it allows a command. -/
structure Passes (c : Command) (p : Principal) : Prop extends Cleared c p where
  division : Compared c.untrustedDivisionId c.divisionId p.divisionId
  project : Compared c.untrustedProjectId c.projectId p.projectId

/-- What the enforcer does not look at: an untrusted value when the principal has
none of its own, and a target that is empty. -/
inductive Overlooked (untrusted target own : Option String) : Prop where
  | untrusted {value} (h : untrusted = some value) (hown : own = none)
  | target (h : target = some "") (hown : own ≠ some "")

theorem own_iff {given own : Option String} : Own given own ↔ (given ≠ none → own = given) := by
  cases given with
  | none => simp [Own]
  | some value => simp [Own]

/-- A field that is compared is the principal's own, or it is missing. -/
theorem not_own_iff {given own : Option String} :
    ¬ Own given own ↔ given ≠ none ∧ given ≠ own := by
  rw [own_iff, Classical.not_imp]
  exact and_congr_right fun _ => not_congr eq_comm

theorem checkUntrustedConflicts_eq_none {p : Principal} {actorId tenantId workspaceId divisionId
    projectId : Option String} :
    checkUntrustedConflicts p actorId tenantId workspaceId divisionId projectId = none ↔
      (Own actorId (some p.actorId) ∧ Own tenantId (some p.tenantId) ∧
        Own workspaceId (some p.workspaceId)) ∧
      (p.divisionId ≠ none → Own divisionId p.divisionId) ∧
      (p.projectId ≠ none → Own projectId p.projectId) := by
  -- division and project are compared only where the principal has one
  have hoptional : ∀ given own : Option String, (own ≠ none → Own given own) ↔
      ¬ ((given ≠ none ∧ own ≠ none) ∧ given ≠ own) := by
    intro given own
    rw [← Classical.not_not (a := Own given own), not_own_iff]
    tauto
  rw [hoptional, hoptional, ← Classical.not_not (a := Own actorId _),
    ← Classical.not_not (a := Own tenantId _), ← Classical.not_not (a := Own workspaceId _),
    not_own_iff, not_own_iff, not_own_iff]
  simp only [checkUntrustedConflicts]
  split
  -- one of the three required values is another's
  · rename_i untrusted authoritative field hfind
    have hfound := List.mem_of_find?_eq_some hfind
    have hconflict := List.find?_some hfind
    simp only [List.mem_cons, Prod.mk.injEq, List.not_mem_nil, or_false] at hfound
    simp only [decide_eq_true_eq] at hconflict
    rcases hfound with ⟨rfl, rfl, -⟩ | ⟨rfl, rfl, -⟩ | ⟨rfl, rfl, -⟩ <;> simp [hconflict]
  · rename_i hfind
    simp only [List.find?_eq_none, List.mem_cons, List.not_mem_nil, or_false, decide_eq_true_eq,
      forall_eq_or_imp, forall_eq] at hfind
    simp only [hfind, not_false_eq_true, and_self, true_and]
    split
    · rename_i hdivision
      simp [hdivision]
    · rename_i hdivision
      split
      · rename_i hproject
        simp [hproject]
      · rename_i hproject
        simp [hdivision, hproject]

/-- An effective target is the principal's own unless another one is given. -/
theorem effective_iff {target own : Option String} :
    (orElse target own ≠ none → own = orElse target own) ↔ (target ≠ some "" → Own target own) := by
  cases target with
  | none => simp [orElse, Own]
  | some value =>
      by_cases hvalue : value = ""
      · subst hvalue
        simp [orElse]
      · simp [orElse, hvalue, Own]

/-- The decision allows exactly the commands that pass what the enforcer checks. -/
theorem decision_allowed_iff (c : Command) :
    (decision c).outcome = .allowed ↔ ∃ p, Passes c p := by
  unfold decision
  cases hprincipal : c.principal with
  | none =>
      simp only [reduceCtorEq, false_iff, not_exists]
      intro p hp
      have hknown := hp.known
      rw [hprincipal] at hknown
      cases hknown
  | some p =>
      -- whoever passes is the principal of the command
      have hp : (∃ p', Passes c p') ↔ Passes c p := by
        constructor
        · rintro ⟨p', hp'⟩
          have hknown := hp'.known
          rw [hprincipal] at hknown
          cases hknown
          exact hp'
        · exact fun h => ⟨p, h⟩
      rw [hp]
      simp only
      split
      · rename_i hinactive
        simp only [reduceCtorEq, false_iff]
        exact fun h => hinactive h.active
      rename_i hactive
      split
      · rename_i reason field hconflict
        simp only [reduceCtorEq, false_iff]
        intro h
        rw [checkUntrustedConflicts_eq_none.2 ⟨⟨h.actorId, h.tenantId, h.workspaceId⟩,
          h.division.untrusted, h.project.untrusted⟩] at hconflict
        cases hconflict
      rename_i hconflict
      rcases checkUntrustedConflicts_eq_none.1 hconflict with
        ⟨⟨hactorId, htenantId, hworkspaceId⟩, hdivision, hproject⟩
      split
      · rename_i hscopes
        simp only [reduceCtorEq, false_iff]
        exact fun h => h.hasScope hscopes
      rename_i hscopes
      split
      · rename_i hdenied
        simp only [reduceCtorEq, false_iff]
        intro h
        refine hdenied ((AuthorizationPolicy.isAllowed_some_iff ..).2 ⟨?_, ?_, ?_⟩)
        · exact ⟨rfl, h.active, rfl, rfl, rfl, h.permission, h.scopes⟩
        · exact effective_iff.2 h.division.target
        · exact effective_iff.2 h.project.target
      · rename_i hallowed
        rw [Classical.not_not, AuthorizationPolicy.isAllowed_some_iff] at hallowed
        rcases hallowed with ⟨hholds, hdivisionTarget, hprojectTarget⟩
        simp only [true_iff]
        refine ⟨⟨hprincipal, hholds.active, hscopes, hholds.permission, hholds.scopes, hactorId,
          htenantId, hworkspaceId⟩, ⟨hdivision, ?_⟩, ⟨hproject, ?_⟩⟩
        · exact effective_iff.1 hdivisionTarget
        · exact effective_iff.1 hprojectTarget

/-- What is compared and not overlooked is the principal's own. -/
theorem own_iff_compared {untrusted target own : Option String} :
    Own untrusted own ∧ Own target own ↔
      Compared untrusted target own ∧ ¬ Overlooked untrusted target own := by
  constructor
  · rintro ⟨huntrusted, htarget⟩
    refine ⟨⟨fun _ => huntrusted, fun _ => htarget⟩, ?_⟩
    intro h
    -- what was overlooked is a value that is not the principal's own
    cases h with
    | untrusted hvalue hown =>
        rw [huntrusted _ hvalue] at hown
        cases hown
    | target hempty hown => exact hown (htarget _ hempty)
  -- what was compared is own, and nothing else is left
  · rintro ⟨hcompared, hoverlooked⟩
    constructor
    · intro value hvalue
      by_cases hown : own = none
      · exact absurd (.untrusted hvalue hown) hoverlooked
      · exact hcompared.untrusted hown value hvalue
    · intro value hvalue
      by_cases hempty : target = some ""
      · by_contra hother
        rw [hempty] at hvalue
        cases hvalue
        exact hoverlooked (.target hempty hother)
      · exact hcompared.target hempty value hvalue

theorem entitledAs_iff {c : Command} {p : Principal} : EntitledAs c p ↔ Passes c p ∧
    ¬ Overlooked c.untrustedDivisionId c.divisionId p.divisionId ∧
    ¬ Overlooked c.untrustedProjectId c.projectId p.projectId := by
  constructor
  · intro h
    rcases own_iff_compared.1 ⟨h.untrustedDivision, h.division⟩ with ⟨hdivision, hseen⟩
    rcases own_iff_compared.1 ⟨h.untrustedProject, h.project⟩ with ⟨hproject, hseen'⟩
    exact ⟨⟨h.toCleared, hdivision, hproject⟩, hseen, hseen'⟩
  · rintro ⟨h, hseen, hseen'⟩
    rcases own_iff_compared.2 ⟨h.division, hseen⟩ with ⟨huntrustedDivision, hdivision⟩
    rcases own_iff_compared.2 ⟨h.project, hseen'⟩ with ⟨huntrustedProject, hproject⟩
    exact ⟨h.toCleared, huntrustedDivision, huntrustedProject, hdivision, hproject⟩

/-! ## What is recorded -/

/-- The call appends one event, with the outcome of the decision, and returns the
decision when the event has been stored. -/
def Records (c : Command) (env : Env Question Answer) (decision : AuthorizationDecision) : Prop :=
  ∃ event, event.eventType = "authorization.decision" ∧
    event.outcome = decision.outcome.value ∧
    (enforce c).alone env () = match env 0 (.append event) with
      | .returned => ⟨(), .ok decision, [⟨.append event, .returned⟩]⟩
      | .raised => ⟨(), .error .audit, [⟨.append event, .raised⟩]⟩

/-- The call comes to a decision that it records, and it allows what may be
carried out. -/
def Enforced (c : Command) (env : Env Question Answer) : Prop :=
  ∃ decision, Records c env decision ∧ (decision.outcome = .allowed ↔ Entitled c)

theorem records_decision (c : Command) (env : Env Question Answer) :
    Records c env (decision c) := by
  refine ⟨decisionEvent (decision c) c.command, rfl, rfl, ?_⟩
  have henforce : enforce c = .await (.append (decisionEvent (decision c) c.command)) fun a =>
      (settle a).bind fun _ => .ret (decision c) := rfl
  rw [henforce, Proc.alone]
  cases env 0 (.append (decisionEvent (decision c) c.command)) <;> rfl

theorem value_injective : Function.Injective AuthorizationOutcome.value := by
  intro outcome other h
  cases outcome <;> cases other <;> simp_all [AuthorizationOutcome.value]

/-- The event tells the outcome. -/
theorem Records.outcome_eq {c : Command} {env : Env Question Answer}
    {other : AuthorizationDecision} (h : Records c env other) :
    other.outcome = (decision c).outcome := by
  rcases h with ⟨event, -, houtcome, halone⟩
  rcases records_decision c env with ⟨event', -, houtcome', halone'⟩
  have hevent : event = event' := by
    rw [halone] at halone'
    cases hanswer : env 0 (.append event) <;> cases hanswer' : env 0 (.append event') <;>
      simp_all
  subst hevent
  exact value_injective (houtcome.symm.trans houtcome')

/-- Every decision is recorded once. It is the right one unless all that the
enforcer checks is met, and what it overlooks is there. -/
theorem enforced_iff (c : Command) (env : Env Question Answer) :
    Enforced c env ↔ ∀ p, Passes c p →
      ¬ Overlooked c.untrustedDivisionId c.divisionId p.divisionId ∧
      ¬ Overlooked c.untrustedProjectId c.projectId p.projectId := by
  constructor
  -- the event that was recorded is that of the decision itself
  · rintro ⟨other, hrecords, hallowed⟩ p hp
    rw [hrecords.outcome_eq, decision_allowed_iff] at hallowed
    rcases hallowed.1 ⟨p, hp⟩ with ⟨q, hq⟩
    rcases entitledAs_iff.1 hq with ⟨hpasses, hseen⟩
    have hknown := hp.known.symm.trans hpasses.known
    cases hknown
    exact hseen
  · intro h
    refine ⟨decision c, records_decision c env, ?_⟩
    rw [decision_allowed_iff]
    constructor
    · rintro ⟨p, hp⟩
      exact ⟨p, entitledAs_iff.2 ⟨hp, h p hp⟩⟩
    · rintro ⟨p, hp⟩
      exact ⟨p, (entitledAs_iff.1 hp).1⟩

/-- A request for the finance division is allowed for a principal of no division. -/
theorem division_overlooked : ¬ Enforced
    { principal := some { actorId := "actor_1", tenantId := "tenant_1", organizationId := "org_1",
                          workspaceId := "ws_1", permissions := {"agents.read"},
                          scopes := {"scope.read"} },
      requiredPermission := "agents.read", correlationId := "corr_1",
      untrustedDivisionId := some "div_finance" } (fun _ _ => .returned) := by
  rintro ⟨other, hrecords, hallowed⟩
  have hdecision : other.outcome = .allowed := hrecords.outcome_eq.trans (by decide)
  rcases hallowed.1 hdecision with ⟨p, hp⟩
  have hknown := hp.known
  cases hknown
  cases hp.untrustedDivision _ rfl

end Alos.Authorization
