import Alos.Json.Dumps

/-! # Tool requests and results

A `ToolRequest` that has passed `validate_request`: the ids, the context's
fields and its refs are strings, as the code asserts or takes for granted. The
context is kept as the dict it is, since the dict is what is handed on to the
adapter and what the digest is taken of.
-/

namespace Alos.Tools

/-- `refs` is the list of strings under `key`; a missing list counts as empty. -/
def Refs (fields : Json.Fields) (key : String) (refs : List String) : Prop :=
  fields.get? key = some (.arr (refs.map .str)) ∨ fields.get? key = none ∧ refs = []

/-- The `execution_context` of a request. -/
structure ExecutionContext where
  fields : Json.Fields
  tenantId : String
  organizationId : String
  workspaceId : String
  actorId : String
  correlationId : String
  permissionRefs : List String
  scopeRefs : List String
  dataClassification : Option String
  nodup : fields.Nodup
  tenantId_eq : fields.get? "tenant_id" = some (.str tenantId)
  organizationId_eq : fields.get? "organization_id" = some (.str organizationId)
  workspaceId_eq : fields.get? "workspace_id" = some (.str workspaceId)
  actorId_eq : fields.get? "actor_id" = some (.str actorId)
  correlationId_eq : fields.get? "correlation_id" = some (.str correlationId)
  permissionRefs_eq : Refs fields "permission_refs" permissionRefs
  scopeRefs_eq : Refs fields "scope_refs" scopeRefs
  dataClassification_eq : fields.get? "data_classification" = dataClassification.map .str

structure ToolRequest where
  toolCallId : String
  runId : String
  toolId : String
  executionContext : ExecutionContext
  arguments : Json.Fields
  idempotencyKey : Option Json := none

/-- The idempotency key, if it is a string. -/
def ToolRequest.key (request : ToolRequest) : Option String :=
  match request.idempotencyKey with
  | some (.str key) => some key
  | _ => none

inductive ToolStatus where
  | success
  | denied
  | rejected
  | failed
  | timeout
deriving DecidableEq, Repr

def ToolStatus.value : ToolStatus → String
  | .success => "SUCCESS"
  | .denied => "DENIED"
  | .rejected => "REJECTED"
  | .failed => "FAILED"
  | .timeout => "TIMEOUT"

structure ToolError where
  code : String
  message : String
  correlationId : String
  retryable : Bool
  details : Option Json.Fields

/-- The time stamp is left out, nothing reads it. -/
structure ToolResult where
  toolCallId : String
  runId : String
  toolId : String
  correlationId : String
  status : ToolStatus
  output : Option Json := none
  error : Option ToolError := none

/-- What `validate_request` and `validate_result` accept. -/
structure ToolContractValidator where
  validateRequest : ToolRequest → Bool
  validateResult : ToolResult → Bool

end Alos.Tools
