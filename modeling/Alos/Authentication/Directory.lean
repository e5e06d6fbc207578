import Alos.Coop.Guards
import Alos.Identity
import Alos.Json.Value
import Alos.References

/-! # The identity directory and the role grants

`IdentityDirectory` of `alos.identity.directory` and `PermissionRegistry` of
`alos.permissions.registry`.

* the `add…_ok` lemmas say what an accepted record must agree with.
-/

namespace Alos.Authentication

open Py Except

/-- `IdentityConflictError`. -/
structure IdentityConflictError where
  message : String
deriving DecidableEq, Repr

/-- The directory: one dictionary for each kind of identity. -/
structure IdentityDirectory where
  tenants : Table Tenant.tenantId
  organizations : Table Organization.organizationId
  workspaces : Table Workspace.workspaceId
  actors : Table Actor.actorId
  memberships : Table fun m : Membership => (m.actorId, m.workspaceId)

/-- `_insert_unique`; `text` is the text of a key. -/
def insertUnique {κ α : Type} [DecidableEq κ] {key : α → κ} (text : κ → String) (store : Table key)
    (value : α) : Except IdentityConflictError (Table key) :=
  match store.insert? value with
  | none => .error ⟨"identity record already exists: " ++ text (key value)⟩
  | some store => .ok store

/-- An insertion succeeds exactly when the key is free or held by the same value. -/
theorem insertUnique_ok {κ α : Type} [DecidableEq κ] {key : α → κ} {text : κ → String}
    {store store' : Table key} {value : α} :
    insertUnique text store value = .ok store' ↔ store.insert? value = some store' := by
  unfold insertUnique
  cases store.insert? value <;> simp

namespace IdentityDirectory

/-- Nobody and nothing. -/
def empty : IdentityDirectory where
  tenants := .empty
  organizations := .empty
  workspaces := .empty
  actors := .empty
  memberships := .empty

/-- `add_tenant`. -/
def addTenant (d : IdentityDirectory) (tenant : Tenant) :
    Except IdentityConflictError IdentityDirectory := do
  let tenants ← insertUnique id d.tenants tenant
  return { d with tenants }

/-- `add_organization`: into an active tenant. -/
def addOrganization (d : IdentityDirectory) (organization : Organization) :
    Except IdentityConflictError IdentityDirectory := do
  let tenant := d.tenants.get? organization.tenantId
  require (tenant.any fun t => t.active) ⟨"organization requires an active tenant"⟩
  let organizations ← insertUnique id d.organizations organization
  return { d with organizations }

/-- `add_workspace`: into an active organization of the tenant. -/
def addWorkspace (d : IdentityDirectory) (workspace : Workspace) :
    Except IdentityConflictError IdentityDirectory := do
  let organization := d.organizations.get? workspace.organizationId
  require (organization.any fun o => o.active ∧ o.tenantId = workspace.tenantId)
    ⟨"workspace tenant and organization boundary is invalid"⟩
  let workspaces ← insertUnique id d.workspaces workspace
  return { d with workspaces }

/-- `add_actor`: into an active organization of the tenant. -/
def addActor (d : IdentityDirectory) (actor : Actor) :
    Except IdentityConflictError IdentityDirectory := do
  let organization := d.organizations.get? actor.organizationId
  require (organization.any fun o => o.active ∧ o.tenantId = actor.tenantId)
    ⟨"actor tenant and organization boundary is invalid"⟩
  let actors ← insertUnique id d.actors actor
  return { d with actors }

/-- The text of a pair of strings. -/
def pairText (repr : Json → String) (pair : String × String) : String :=
  "(" ++ repr (.str pair.1) ++ ", " ++ repr (.str pair.2) ++ ")"

/-- `add_membership`: of an active actor in an active workspace, in the place that both name. -/
def addMembership (repr : Json → String) (d : IdentityDirectory) (membership : Membership) :
    Except IdentityConflictError IdentityDirectory := do
  let workspace := d.workspaces.get? membership.workspaceId
  let actor := d.actors.get? membership.actorId
  require
    ((workspace.any fun w => w.active ∧ w.tenantId = membership.tenantId ∧
        w.organizationId = membership.organizationId) ∧
      actor.any fun a => a.active ∧ a.tenantId = membership.tenantId ∧
        a.organizationId = membership.organizationId)
    ⟨"membership is outside the workspace authority boundary"⟩
  let memberships ← insertUnique (pairText repr) d.memberships membership
  return { d with memberships }

/-- `principal_for`: the principal of an active membership, or none. -/
def principalFor (d : IdentityDirectory) (actorId workspaceId : String) : Option Principal :=
  match d.memberships.get? (actorId, workspaceId) with
  | none => none
  | some membership =>
      if ¬ membership.active then none
      else some {
        actorId := membership.actorId
        tenantId := membership.tenantId
        organizationId := membership.organizationId
        workspaceId := membership.workspaceId
        permissions := membership.permissions
        scopes := membership.scopes
        roles := membership.roles
        dataScope := membership.dataScope
        divisionId := membership.divisionId
        projectId := membership.projectId }

variable {d d' : IdentityDirectory}

/-- A tenant is added exactly when its id is free, or its own. -/
theorem addTenant_ok {tenant : Tenant} :
    d.addTenant tenant = .ok d' ↔
      ∃ tenants, d.tenants.insert? tenant = some tenants ∧ { d with tenants } = d' := by
  simp only [addTenant, bind_eq_ok, insertUnique_ok, pure_eq_ok]

/-- An organization is added below an active tenant, where its id is free or its own. -/
theorem addOrganization_ok {organization : Organization} :
    d.addOrganization organization = .ok d' ↔
      (∃ t, d.tenants.get? organization.tenantId = some t ∧ t.active = true) ∧
        ∃ organizations, d.organizations.insert? organization = some organizations ∧
          { d with organizations } = d' := by
  simp only [addOrganization, bind_eq_ok, require_eq_ok, insertUnique_ok, pure_eq_ok,
    Option.any_eq_true, exists_const]

/-- A workspace is added below an active organization of its tenant, under the same condition. -/
theorem addWorkspace_ok {workspace : Workspace} :
    d.addWorkspace workspace = .ok d' ↔
      (∃ o, d.organizations.get? workspace.organizationId = some o ∧ o.active = true ∧
          o.tenantId = workspace.tenantId) ∧
        ∃ workspaces, d.workspaces.insert? workspace = some workspaces ∧
          { d with workspaces } = d' := by
  simp only [addWorkspace, bind_eq_ok, require_eq_ok, insertUnique_ok, pure_eq_ok,
    Option.any_eq_true, decide_eq_true_eq, exists_const]

/-- So is an actor. -/
theorem addActor_ok {actor : Actor} :
    d.addActor actor = .ok d' ↔
      (∃ o, d.organizations.get? actor.organizationId = some o ∧ o.active = true ∧
          o.tenantId = actor.tenantId) ∧
        ∃ actors, d.actors.insert? actor = some actors ∧ { d with actors } = d' := by
  simp only [addActor, bind_eq_ok, require_eq_ok, insertUnique_ok, pure_eq_ok,
    Option.any_eq_true, decide_eq_true_eq, exists_const]

/-- A membership is added where actor and workspace are active and in its place, if it is new or
the same again. -/
theorem addMembership_ok {repr : Json → String} {membership : Membership} :
    d.addMembership repr membership = .ok d' ↔
      ((∃ w, d.workspaces.get? membership.workspaceId = some w ∧ w.active = true ∧
            w.tenantId = membership.tenantId ∧ w.organizationId = membership.organizationId) ∧
          ∃ a, d.actors.get? membership.actorId = some a ∧ a.active = true ∧
            a.tenantId = membership.tenantId ∧ a.organizationId = membership.organizationId) ∧
        ∃ memberships, d.memberships.insert? membership = some memberships ∧
          { d with memberships } = d' := by
  simp only [addMembership, bind_eq_ok, require_eq_ok, insertUnique_ok, pure_eq_ok,
    Option.any_eq_true, decide_eq_true_eq, exists_const]

end IdentityDirectory

/-! ## Role grants -/

structure RoleGrant where
  roleId : String
  tenantId : String
  organizationId : String
  permissionRefs : Finset String := ∅
  scopeRefs : Finset String := ∅
  active : Bool := true
deriving DecidableEq

/-- `PermissionConflictError`. -/
structure PermissionConflictError where
  message : String
deriving DecidableEq, Repr

/-- The key a grant is registered under. -/
def RoleGrant.key (grant : RoleGrant) : String × String × String :=
  (grant.tenantId, grant.organizationId, grant.roleId)

/-- The grants of a `PermissionRegistry`. -/
abbrev Grants := Table RoleGrant.key

/-- `PermissionRegistry.register`. -/
def Grants.register (grants : Grants) (grant : RoleGrant) :
    Except PermissionConflictError Grants :=
  match grants.get? grant.key with
  | none => .ok (grants.put grant)
  | some existing => if existing = grant then .ok grants else .error ⟨"role grant already exists"⟩

end Alos.Authentication
