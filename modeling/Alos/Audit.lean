import Alos.Json.Value

/-! # Audit events

`AuditEvent` of `alos.audit.models`. An `AuditSink` is outside the modelled
code: `append` either stores the event and returns, or raises. The time stamp
is left out, nothing reads it.
-/

namespace Alos

inductive ActorKind where
  | human
  | system
deriving DecidableEq, Repr

structure AuditEvent where
  eventType : String
  entityType : String
  entityId : String
  tenantId : String
  organizationId : String
  workspaceId : String
  actorId : String
  correlationId : String
  outcome : String
  actorKind : ActorKind := .human
  reason : String := "Authority state changed"
  metadata : Json.Fields := []

/-- How `AuditSink.append` ends. -/
inductive Appended where
  | returned
  | raised
deriving DecidableEq, Repr

end Alos
