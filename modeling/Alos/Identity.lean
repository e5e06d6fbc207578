import Mathlib.Data.Finset.Basic

/-! # Identities

The records of `alos.identity`; `Principal` is the authenticated caller.
-/

namespace Alos

/-- How far the data that a membership opens reaches. -/
inductive DataScope where
  | company
  | division
  | project
  | ownAssigned
deriving DecidableEq, Repr

/-- The text of a scope, as it is stored and compared. -/
def DataScope.value : DataScope → String
  | .company => "COMPANY"
  | .division => "DIVISION"
  | .project => "PROJECT"
  | .ownAssigned => "OWN_ASSIGNED"

/-- Who a request is made for: the actor, the place he acts in, and what he may do there. -/
structure Principal where
  actorId : String
  tenantId : String
  organizationId : String
  workspaceId : String
  permissions : Finset String := ∅
  scopes : Finset String := ∅
  roles : Finset String := ∅
  dataScope : DataScope := .ownAssigned
  divisionId : Option String := none
  projectId : Option String := none
  active : Bool := true
deriving DecidableEq

/-- A tenant is the outermost boundary of isolation. -/
structure Tenant where
  tenantId : String
  name : String
  active : Bool := true
deriving DecidableEq

/-- An organization belongs to one tenant. -/
structure Organization where
  organizationId : String
  tenantId : String
  name : String
  active : Bool := true
deriving DecidableEq

/-- A workspace belongs to one organization of one tenant. -/
structure Workspace where
  workspaceId : String
  tenantId : String
  organizationId : String
  name : String
  active : Bool := true
deriving DecidableEq

/-- An actor belongs to an organization, and reaches workspaces through memberships. -/
structure Actor where
  actorId : String
  tenantId : String
  organizationId : String
  displayName : String
  divisionId : Option String := none
  projectId : Option String := none
  active : Bool := true
deriving DecidableEq

/-- What an actor holds in one workspace: his roles, permissions and scopes there. -/
structure Membership where
  actorId : String
  tenantId : String
  organizationId : String
  workspaceId : String
  roles : Finset String := ∅
  permissions : Finset String := ∅
  scopes : Finset String := ∅
  dataScope : DataScope := .ownAssigned
  divisionId : Option String := none
  projectId : Option String := none
  active : Bool := true
deriving DecidableEq

end Alos
