import Mathlib.Data.Finset.Basic
import Mathlib.Logic.Function.Basic
import Alos.Json.Value

/-! # Registered tools

The records of `alos.tools.registry`. An adapter is outside the modelled code
but for the check of its arguments, which does not suspend; `timeout_seconds`
is left out, real time is not modelled.
-/

namespace Alos.Tools

inductive ToolLifecycleState where
  | draft
  | approved
  | active
  | suspended
  | retired
deriving DecidableEq, Repr

inductive IdempotencyPolicy where
  | none
  | optional
  | required
deriving DecidableEq, Repr

/-- `validate_arguments` gives the text of its `ToolInputError`, if it raises. -/
structure ToolAdapter where
  validateArguments : Json.Fields → Option String

structure ToolRegistration where
  toolId : String
  requiredPermission : String
  requiredScopes : Finset String
  adapter : ToolAdapter
  allowlisted : Bool := true
  productionEnabled : Bool := true
  lifecycleState : ToolLifecycleState := .active
  idempotencyPolicy : IdempotencyPolicy := .optional
  killSwitchActive : Bool := false
  ownerActorId : Option String := .none
  approvedBy : Option String := .none
  tenantId : Option String := .none
  organizationId : Option String := .none
  workspaceId : Option String := .none

/-- The dict of the registry. -/
structure ToolRegistry where
  tools : String → Option ToolRegistration

def ToolRegistry.get (r : ToolRegistry) (toolId : String) : Option ToolRegistration :=
  r.tools toolId

/-- `_tools[tool_id] = registration`. -/
def ToolRegistry.put (r : ToolRegistry) (toolId : String) (registration : ToolRegistration) :
    ToolRegistry where
  tools := Function.update r.tools toolId (some registration)

@[simp] theorem ToolRegistry.get_put_self (r : ToolRegistry) (toolId : String)
    (registration : ToolRegistration) : (r.put toolId registration).get toolId = some registration :=
  Function.update_self ..

theorem ToolRegistry.get_put_of_ne (r : ToolRegistry) {toolId other : String} (h : other ≠ toolId)
    (registration : ToolRegistration) : (r.put toolId registration).get other = r.get other :=
  Function.update_of_ne h ..

end Alos.Tools
