import Alos.Audit
import Alos.Coop.Guards
import Alos.Coop.Lock
import Alos.Coop.Staged
import Alos.Py
import Alos.Tools.Registry

/-! # The lifecycle of a tool

The operations of `alos.tools.registry` that change a registration. Each reads
the registration, awaits `AuditSink.append`, and stores what it has made of the
registration that it read.

* `transition` is what six of them share, `Call.prepare` what all seven do
  before they await;
* `staging` gives the places where a call can be suspended.
-/

namespace Alos.Tools.Lifecycle

open Coop Py

/-- What a call of the registry can raise. -/
inductive LifecycleError where
  /-- `ToolRegistryConflictError`. -/
  | conflict (message : String)
  /-- `LookupError`. -/
  | notRegistered
  /-- What `AuditSink.append` raises. -/
  | audit
deriving DecidableEq, Repr

/-- What a call waits for: the sink. -/
inductive Question where
  | append (event : AuditEvent)

/-- The sink returns or raises. -/
@[reducible] def Answer : Question → Type
  | .append _ => Alos.Appended

/-- One coroutine of the registry. -/
abbrev Op (α : Type) := Proc ToolRegistry Question Answer LifecycleError α

/-- Neither the tenant nor the organization nor the workspace is missing. -/
def HasContext (registration : ToolRegistration) : Prop :=
  registration.tenantId.getD "" ≠ "" ∧ registration.organizationId.getD "" ≠ "" ∧
    registration.workspaceId.getD "" ≠ ""

instance (registration : ToolRegistration) : Decidable (HasContext registration) :=
  inferInstanceAs (Decidable (_ ∧ _ ∧ _))

/-- The audit event of one lifecycle change. -/
def auditEvent (registration : ToolRegistration)
    (actorId correlationId eventType outcome reason : String) : AuditEvent where
  eventType := eventType
  entityType := "tool_definition"
  entityId := registration.toolId
  tenantId := registration.tenantId.getD ""
  organizationId := registration.organizationId.getD ""
  workspaceId := registration.workspaceId.getD ""
  actorId := actorId
  correlationId := correlationId
  outcome := outcome
  reason := reason

/-- What `_record` checks of the registry, which has an audit sink or not, and of
the registration. -/
def recordable (audit : Bool) (registration : ToolRegistration) : Except LifecycleError Unit :=
  if audit = false then
    .error (.conflict "authoritative tool lifecycle transition requires an audit sink")
  else if ¬ HasContext registration then
    .error (.conflict "authoritative tool lifecycle transition requires tenant context")
  else .ok ()

/-- An append that raises ends the call before the registration is stored. -/
def settle : Alos.Appended → Op Unit
  | .returned => pure ()
  | .raised => .raise .audit

/-- `_record`. -/
def record (audit : Bool) (registration : ToolRegistration)
    (actorId correlationId eventType outcome : String)
    (reason : String := "Authoritative Tool Registry lifecycle transition") : Op Unit := do
  .ofExcept (recordable audit registration)
  settle (← .ask (.append
    (auditEvent registration actorId correlationId eventType outcome reason)))

/-- `_require`. -/
def require (r : ToolRegistry) (toolId : String) : Except LifecycleError ToolRegistration :=
  match r.get toolId with
  | none => .error .notRegistered
  | some registration => .ok registration

/-- What tells one transition from another: what it checks of the current
registration, what it makes of it, and what it records. -/
structure Change where
  check : ToolRegistration → Except LifecycleError Unit
  update : ToolRegistration → ToolRegistration
  eventType : String
  outcome : String
  reason : String := "Authoritative Tool Registry lifecycle transition"

/-- The body of a transition. -/
def transition (audit : Bool) (change : Change) (toolId actorId correlationId : String) :
    Op ToolRegistration := do
  let r ← .get
  let current ← .ofExcept (require r toolId)
  .ofExcept (change.check current)
  let updated := change.update current
  record audit updated actorId correlationId change.eventType change.outcome change.reason
  .modify fun r => r.put toolId updated
  pure updated

/-- The error unless the condition holds. -/
def guard (c : Prop) [Decidable c] (message : String) : Except LifecycleError Unit :=
  if c then .ok () else .error (.conflict message)

/-- `approve`: of a draft, by another actor than its maker. -/
def approval (actorId : String) : Change where
  check current := do
    guard (current.lifecycleState = .draft) "only a DRAFT tool can be approved"
    guard (current.ownerActorId ≠ some actorId) "tool maker cannot approve their own tool"
  update current := { current with lifecycleState := .approved, approvedBy := some actorId }
  eventType := "tool.approved"
  outcome := "APPROVED"

/-- `activate`: of an approved tool. -/
def activation : Change where
  check current := guard (current.lifecycleState = .approved) "only an APPROVED tool can be activated"
  update current := { current with lifecycleState := .active }
  eventType := "tool.activated"
  outcome := "ACTIVE"

/-- `suspend`: of an active tool. -/
def suspension : Change where
  check current := guard (current.lifecycleState = .active) "only an ACTIVE tool can be suspended"
  update current := { current with lifecycleState := .suspended }
  eventType := "tool.suspended"
  outcome := "SUSPENDED"

/-- `retire`: of any tool that is not retired yet, off the allowlist. -/
def retirement : Change where
  check current := guard (current.lifecycleState ≠ .retired) "tool is already retired"
  update current := { current with lifecycleState := .retired, allowlisted := false }
  eventType := "tool.retired"
  outcome := "RETIRED"

/-- `activate_kill_switch`: of an active tool, with a reason. -/
def kill (reason : String) : Change where
  check current := do
    guard (current.lifecycleState = .active) "kill switch requires an ACTIVE tool"
    guard (¬ Blank reason) "kill switch reason is required"
  update current := { current with killSwitchActive := true }
  eventType := "tool.kill_switch_activated"
  outcome := "SUSPENDED"
  reason := reason

/-- `clear_kill_switch`: where the switch is on, with a reason. -/
def clearance (reason : String) : Change where
  check current := do
    guard (current.killSwitchActive = true) "there is no active tool kill switch"
    guard (¬ Blank reason) "kill switch clear reason is required"
  update current := { current with killSwitchActive := false }
  eventType := "tool.kill_switch_cleared"
  outcome := "ACTIVE"
  reason := reason

section Operations

variable (audit : Bool)

/-- What `register_draft` checks before it records. -/
def draftable (found : Option ToolRegistration) (registration : ToolRegistration)
    (actorId : String) : Except LifecycleError Unit := do
  guard (registration.lifecycleState = .draft) "authoritative registration must start as DRAFT"
  guard (registration.ownerActorId = some actorId) "draft owner must match the registering actor"
  guard (found.isNone = true) "tool is already registered"

/-- `register_draft`: the check, the event, then the assignment to the dictionary. -/
def registerDraft (registration : ToolRegistration) (actorId correlationId : String) :
    Op ToolRegistration := do
  let r ← .get
  .ofExcept (draftable (r.get registration.toolId) registration actorId)
  record audit registration actorId correlationId "tool.draft_registered" "DRAFT"
  .modify fun r => r.put registration.toolId registration
  pure registration

/-- `approve`, the maker-checker step. -/
def approve (toolId actorId correlationId : String) : Op ToolRegistration :=
  transition audit (approval actorId) toolId actorId correlationId

/-- `activate`, after the approval. -/
def activate (toolId actorId correlationId : String) : Op ToolRegistration :=
  transition audit activation toolId actorId correlationId

/-- `suspend` takes an active tool out of use. -/
def suspend (toolId actorId correlationId : String) : Op ToolRegistration :=
  transition audit suspension toolId actorId correlationId

/-- `retire`, which nothing undoes. -/
def retire (toolId actorId correlationId : String) : Op ToolRegistration :=
  transition audit retirement toolId actorId correlationId

/-- `activate_kill_switch` blocks an active tool without changing its lifecycle. -/
def activateKillSwitch (toolId actorId reason correlationId : String) : Op ToolRegistration :=
  transition audit (kill reason) toolId actorId correlationId

/-- `clear_kill_switch` lifts the block. -/
def clearKillSwitch (toolId actorId reason correlationId : String) : Op ToolRegistration :=
  transition audit (clearance reason) toolId actorId correlationId

end Operations

/-- A call of the registry. -/
inductive Call where
  | registerDraft (registration : ToolRegistration) (actorId correlationId : String)
  | approve (toolId actorId correlationId : String)
  | activate (toolId actorId correlationId : String)
  | suspend (toolId actorId correlationId : String)
  | retire (toolId actorId correlationId : String)
  | activateKillSwitch (toolId actorId reason correlationId : String)
  | clearKillSwitch (toolId actorId reason correlationId : String)

namespace Call

/-- The coroutine of a call. -/
def prog (audit : Bool) : Call → Op ToolRegistration
  | registerDraft registration actorId correlationId =>
      Lifecycle.registerDraft audit registration actorId correlationId
  | approve toolId actorId correlationId => Lifecycle.approve audit toolId actorId correlationId
  | activate toolId actorId correlationId => Lifecycle.activate audit toolId actorId correlationId
  | suspend toolId actorId correlationId => Lifecycle.suspend audit toolId actorId correlationId
  | retire toolId actorId correlationId => Lifecycle.retire audit toolId actorId correlationId
  | activateKillSwitch toolId actorId reason correlationId =>
      Lifecycle.activateKillSwitch audit toolId actorId reason correlationId
  | clearKillSwitch toolId actorId reason correlationId =>
      Lifecycle.clearKillSwitch audit toolId actorId reason correlationId

/-- The tool that the call is about. -/
def toolId : Call → String
  | registerDraft registration _ _ => registration.toolId
  | approve toolId _ _ | activate toolId _ _ | suspend toolId _ _ | retire toolId _ _
  | activateKillSwitch toolId _ _ _ | clearKillSwitch toolId _ _ _ => toolId

/-- The actor who makes a call. -/
def actorId : Call → String
  | registerDraft _ actorId _ => actorId
  | approve _ actorId _ | activate _ actorId _ | suspend _ actorId _ | retire _ actorId _
  | activateKillSwitch _ actorId _ _ | clearKillSwitch _ actorId _ _ => actorId

/-- The correlation id that the event of a call carries. -/
def correlationId : Call → String
  | registerDraft _ _ correlationId => correlationId
  | approve _ _ correlationId | activate _ _ correlationId | suspend _ _ correlationId
  | retire _ _ correlationId | activateKillSwitch _ _ _ correlationId
  | clearKillSwitch _ _ _ correlationId => correlationId

/-- The transition that the call makes; none registers a tool. -/
def change? : Call → Option Change
  | registerDraft .. => none
  | approve _ actorId _ => some (approval actorId)
  | activate .. => some activation
  | suspend .. => some suspension
  | retire .. => some retirement
  | activateKillSwitch _ _ reason _ => some (kill reason)
  | clearKillSwitch _ _ reason _ => some (clearance reason)

/-- What the call makes of the registration that it finds, before it is recorded. -/
def updated (c : Call) (found : Option ToolRegistration) : Except LifecycleError ToolRegistration :=
  match c with
  | registerDraft registration actorId _ => do
      draftable found registration actorId
      return registration
  | c =>
      match c.change?, found with
      | some change, some current => do
          change.check current
          return change.update current
      | _, _ => .error .notRegistered

/-- What the call makes of the registration that it finds, when it can be recorded. -/
def prepare (audit : Bool) (c : Call) (found : Option ToolRegistration) :
    Except LifecycleError ToolRegistration := do
  let updated ← c.updated found
  recordable audit updated
  return updated

/-- What the call records. -/
def event (c : Call) (updated : ToolRegistration) : AuditEvent :=
  match c.change? with
  | none => auditEvent updated c.actorId c.correlationId "tool.draft_registered" "DRAFT"
      "Authoritative Tool Registry lifecycle transition"
  | some change => auditEvent updated c.actorId c.correlationId change.eventType change.outcome
      change.reason

/-- What is left of the call when its event has been appended, or not. -/
def finish (c : Call) (updated : ToolRegistration) : Alos.Appended → Op ToolRegistration
  | .returned => .read fun r => .write (r.put c.toolId updated) (.ret updated)
  | .raised => .raise .audit

end Call

/-- Recording refuses, or waits for the sink. -/
theorem record_bind (audit : Bool) (registration : ToolRegistration)
    (actorId correlationId eventType outcome reason : String) (f : Unit → Op ToolRegistration) :
    (record audit registration actorId correlationId eventType outcome reason).bind f =
      match recordable audit registration with
      | .error e => .raise e
      | .ok () => .await (.append
          (auditEvent registration actorId correlationId eventType outcome reason)) fun a =>
            (settle a).bind f := by
  unfold record
  cases recordable audit registration with
  | error e => rfl
  | ok u => rfl

/-- Of the calls other than a draft's, the check of the change decides. -/
theorem Call.updated_of_change {c : Call} {change : Change} (h : c.change? = some change)
    (found : Option ToolRegistration) : c.updated found = match found with
      | none => .error .notRegistered
      | some current => do
          change.check current
          return change.update current := by
  cases c <;> cases h <;> cases found <;> rfl

/-- They are announced by the event of the change. -/
theorem Call.event_of_change {c : Call} {change : Change} (h : c.change? = some change)
    (updated : ToolRegistration) : c.event updated = auditEvent updated c.actorId c.correlationId
      change.eventType change.outcome change.reason := by
  rw [event, h]

/-- The six transitions. -/
theorem Call.transition_eq (audit : Bool) {c : Call} {change : Change}
    (h : c.change? = some change) :
    transition audit change c.toolId c.actorId c.correlationId = .read fun r =>
      match c.prepare audit (r.get c.toolId) with
      | .error e => .raise e
      | .ok updated => .await (.append (c.event updated)) (c.finish updated) := by
  refine congrArg _ (funext fun r => ?_)
  simp only [prepare, updated_of_change h, require]
  cases r.get c.toolId with
  | none => rfl
  | some current =>
      simp only [Proc.ofExcept, Proc.ret_bind, Proc.bind_def]
      -- the tool is there, the check passes, the change can be recorded
      cases change.check current with
      | error e => rfl
      | ok u =>
          simp only [Proc.ret_bind, record_bind]
          cases hrecordable : recordable audit (change.update current) with
          | error e => simp [bind, Except.bind, pure, Except.pure, hrecordable]
          | ok u =>
              simp only [bind, Except.bind, pure, Except.pure, hrecordable]
              rw [event_of_change h]
              refine congrArg (Proc.await _) (funext fun a => ?_)
              cases a <;> rfl

/-- A call reads, awaits the append, and stores what it has made of what it read. -/
theorem Call.prog_eq (audit : Bool) (c : Call) : c.prog audit = .read fun r =>
    match c.prepare audit (r.get c.toolId) with
    | .error e => .raise e
    | .ok updated => .await (.append (c.event updated)) (c.finish updated) := by
  cases c with
  | registerDraft registration actorId correlationId =>
      -- the draft is the only call with a check of its own before the append
      refine congrArg Proc.read (funext fun r => ?_)
      simp only [Proc.ret_bind, Proc.bind_def, prepare, updated, toolId]
      cases draftable (r.get registration.toolId) registration actorId with
      | error e => rfl
      | ok u =>
          simp only [Proc.ofExcept, Proc.ret_bind, record_bind]
          cases hrecordable : recordable audit registration with
          | error e => simp [bind, Except.bind, pure, Except.pure, hrecordable]
          | ok u =>
              simp only [bind, Except.bind, pure, Except.pure, hrecordable]
              refine congrArg (Proc.await _) (funext fun a => ?_)
              cases a <;> rfl
  | approve toolId actorId correlationId =>
      exact transition_eq audit (c := .approve toolId actorId correlationId) rfl
  | activate toolId actorId correlationId =>
      exact transition_eq audit (c := .activate toolId actorId correlationId) rfl
  | suspend toolId actorId correlationId =>
      exact transition_eq audit (c := .suspend toolId actorId correlationId) rfl
  | retire toolId actorId correlationId =>
      exact transition_eq audit (c := .retire toolId actorId correlationId) rfl
  | activateKillSwitch toolId actorId reason correlationId =>
      exact transition_eq audit (c := .activateKillSwitch toolId actorId reason correlationId) rfl
  | clearKillSwitch toolId actorId reason correlationId =>
      exact transition_eq audit (c := .clearKillSwitch toolId actorId reason correlationId) rfl

/-! ## What a call makes of a registration -/

theorem guard_eq_ok {p : Prop} [Decidable p] {message : String} {u : Unit} :
    guard p message = .ok u ↔ p := by
  unfold guard
  split <;> simp_all

/-- What a call that gets past its checks makes of the registration it finds. -/
inductive Makes : Call → Option ToolRegistration → ToolRegistration → Prop where
  | drafted {registration actorId correlationId} (hstate : registration.lifecycleState = .draft)
      (howner : registration.ownerActorId = some actorId) :
      Makes (.registerDraft registration actorId correlationId) none registration
  | approved {toolId actorId correlationId current} (hstate : current.lifecycleState = .draft)
      (howner : current.ownerActorId ≠ some actorId) :
      Makes (.approve toolId actorId correlationId) (some current)
        { current with lifecycleState := .approved, approvedBy := some actorId }
  | activated {toolId actorId correlationId current} (hstate : current.lifecycleState = .approved) :
      Makes (.activate toolId actorId correlationId) (some current)
        { current with lifecycleState := .active }
  | suspended {toolId actorId correlationId current} (hstate : current.lifecycleState = .active) :
      Makes (.suspend toolId actorId correlationId) (some current)
        { current with lifecycleState := .suspended }
  | retired {toolId actorId correlationId current} (hstate : current.lifecycleState ≠ .retired) :
      Makes (.retire toolId actorId correlationId) (some current)
        { current with lifecycleState := .retired, allowlisted := false }
  | killed {toolId actorId reason correlationId current}
      (hstate : current.lifecycleState = .active) (hreason : ¬ Blank reason) :
      Makes (.activateKillSwitch toolId actorId reason correlationId) (some current)
        { current with killSwitchActive := true }
  | cleared {toolId actorId reason correlationId current}
      (hkill : current.killSwitchActive = true) (hreason : ¬ Blank reason) :
      Makes (.clearKillSwitch toolId actorId reason correlationId) (some current)
        { current with killSwitchActive := false }

/-- Such a call succeeds exactly on a registered tool that passes the check. -/
theorem Call.updated_eq_ok {c : Call} {change : Change} (h : c.change? = some change)
    {found : Option ToolRegistration} {updated : ToolRegistration} :
    c.updated found = .ok updated ↔ ∃ current, found = some current ∧
      change.check current = .ok () ∧ change.update current = updated := by
  rw [updated_of_change h]
  cases found with
  | none => simp
  | some current =>
      simp only [Except.bind_eq_ok, Except.pure_eq_ok, Option.some.injEq, exists_eq_left']
      constructor
      · rintro ⟨u, hcheck, hupdated⟩
        exact ⟨hcheck, hupdated⟩
      · rintro ⟨hcheck, hupdated⟩
        exact ⟨(), hcheck, hupdated⟩

/-- What a call that passes its checks makes of the registration it found. -/
theorem makes_of_updated {c : Call} {found : Option ToolRegistration} {updated : ToolRegistration}
    (h : c.updated found = .ok updated) : Makes c found updated := by
  cases c with
  | registerDraft registration actorId correlationId =>
      simp only [Call.updated, draftable, Except.bind_eq_ok, guard_eq_ok, Except.pure_eq_ok] at h
      obtain ⟨-, ⟨-, hstate, -, howner, hfound⟩, rfl⟩ := h
      -- a draft is filed under an id that is free
      rw [Option.isNone_iff_eq_none.1 hfound]
      exact .drafted hstate howner
  | approve toolId actorId correlationId =>
      obtain ⟨current, rfl, hcheck, rfl⟩ := (Call.updated_eq_ok rfl).1 h
      obtain ⟨u, hstate, howner⟩ := Except.bind_eq_ok.1 hcheck
      exact .approved (guard_eq_ok.1 hstate) (guard_eq_ok.1 howner)
  | activate toolId actorId correlationId =>
      obtain ⟨current, rfl, hstate, rfl⟩ := (Call.updated_eq_ok rfl).1 h
      exact .activated (guard_eq_ok.1 hstate)
  | suspend toolId actorId correlationId =>
      obtain ⟨current, rfl, hstate, rfl⟩ := (Call.updated_eq_ok rfl).1 h
      exact .suspended (guard_eq_ok.1 hstate)
  | retire toolId actorId correlationId =>
      obtain ⟨current, rfl, hstate, rfl⟩ := (Call.updated_eq_ok rfl).1 h
      exact .retired (guard_eq_ok.1 hstate)
  | activateKillSwitch toolId actorId reason correlationId =>
      obtain ⟨current, rfl, hcheck, rfl⟩ := (Call.updated_eq_ok rfl).1 h
      obtain ⟨u, hstate, hreason⟩ := Except.bind_eq_ok.1 hcheck
      exact .killed (guard_eq_ok.1 hstate) (guard_eq_ok.1 hreason)
  | clearKillSwitch toolId actorId reason correlationId =>
      obtain ⟨current, rfl, hcheck, rfl⟩ := (Call.updated_eq_ok rfl).1 h
      obtain ⟨u, hkill, hreason⟩ := Except.bind_eq_ok.1 hcheck
      exact .cleared (guard_eq_ok.1 hkill) (guard_eq_ok.1 hreason)

/-- The same of a call that also gets past the audit configuration. -/
theorem makes_of_prepare {audit : Bool} {c : Call} {found : Option ToolRegistration}
    {updated : ToolRegistration} (h : c.prepare audit found = .ok updated) :
    Makes c found updated := by
  simp only [Call.prepare, Except.bind_eq_ok, Except.pure_eq_ok] at h
  obtain ⟨made, hmade, -, -, rfl⟩ := h
  exact makes_of_updated hmade

/-! ## A call alone -/

/-- A call that nobody interferes with: it is refused, or its event is not
appended, or it stores what it has made. -/
theorem Call.alone_eq (audit : Bool) (c : Call) (env : Env Question Answer) (r : ToolRegistry) :
    (c.prog audit).alone env r = match c.prepare audit (r.get c.toolId) with
      | .error e => ⟨r, .error e, []⟩
      | .ok updated =>
          match env 0 (.append (c.event updated)) with
          | .raised => ⟨r, .error .audit, [⟨.append (c.event updated), .raised⟩]⟩
          | .returned => ⟨r.put c.toolId updated, .ok updated,
              [⟨.append (c.event updated), .returned⟩]⟩ := by
  rw [Call.prog_eq, Proc.alone]
  cases c.prepare audit (r.get c.toolId) with
  | error e => rfl
  | ok updated =>
      simp only [Proc.alone]
      cases env 0 (.append (c.event updated)) <;> rfl

end Alos.Tools.Lifecycle
