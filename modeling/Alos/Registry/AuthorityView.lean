import Alos.Identity
import Alos.Registry.Entry

/-! # Authority views

`RegistryAuthorityView` of `alos.registry_contracts`: what a definition says
about the authority that it needs, and whether a principal has it.
-/

namespace Alos.Registry

open Py

/-- What a read of a registry raises. `typeError` is that of an iteration over
something that is no iterable. -/
inductive ReadError where
  | conflict (message : String)
  | notFound (message : String)
  | unauthorized (message : String)
  | typeError
deriving DecidableEq, Repr

/-- The fields that are looked at. The refs, sorted sets in the source, are the
lists that they come from; `toolRefs` is the source's `tools`. -/
structure RegistryAuthorityView where
  subjectType : String
  tenantId : String
  organizationId : String
  workspaceId : String
  toolRefs : List String
  permissions : List String
  scope : List String

namespace RegistryAuthorityView

/-- `isinstance(value, str) and value.strip()`. -/
def text? : Json → Option String
  | .str s => if Blank s then none else some s
  | _ => none

/-- `payload.get(field)`. -/
def field (payload : Json.Fields) (name : String) : Json := (payload.get? name).getD .null

/-- The tools that an entry names. -/
def tools (entry : RegistryEntry) : Json :=
  if entry.subjectType = "skill" then (entry.payload.get? "required_tool_ids").getD (.arr [])
  else Py.or (Py.or (field entry.payload "tool_ids") (field entry.payload "backing_tool_ids"))
    (.arr [])

def owner (entry : RegistryEntry) : Json :=
  let named := Py.or (field entry.payload "owner") (field entry.payload "owner_actor_id")
  if entry.subjectType = "skill" then Py.or named (.str entry.createdBy) else named

def risk (entry : RegistryEntry) : Json :=
  let level := field entry.payload "risk_level"
  if entry.subjectType = "skill" then Py.or level (.str "UNSPECIFIED") else level

/-- `*values`, each of which has to be a text that is not blank. -/
def references (values : Json) : Except ReadError (Option (List String)) :=
  match Py.iter values with
  | none => .error .typeError
  | some items => .ok (items.mapM text?)

def fromEntry (entry : RegistryEntry) : Except ReadError RegistryAuthorityView := do
  if text? (owner entry) = none then
    throw (.unauthorized "registry definition has no authoritative owner")
  if text? (risk entry) = none then
    throw (.unauthorized "registry definition has no authoritative risk")
  let tools ← references (tools entry)
  let permissions ← references (Py.or (field entry.payload "permission_refs") (.arr []))
  let scope ← references (Py.or (field entry.payload "scope_refs") (.arr []))
  match tools, permissions, scope with
  | some tools, some permissions, some scope =>
      return {
        subjectType := entry.subjectType
        tenantId := entry.tenantId
        organizationId := entry.organizationId
        workspaceId := entry.workspaceId
        toolRefs := tools
        permissions := permissions
        scope := scope }
  | _, _, _ => throw (.unauthorized "registry definition contains invalid authority references")

def authorize (view : RegistryAuthorityView) (principal : Principal) : Except ReadError Unit := do
  if ¬ principal.active then
    throw (.unauthorized "principal is inactive")
  if principal.tenantId ≠ view.tenantId ∨ principal.organizationId ≠ view.organizationId ∨
      principal.workspaceId ≠ view.workspaceId then
    throw (.unauthorized "principal is outside registry scope")
  if view.scope = [] ∧ view.subjectType ≠ "skill" then
    throw (.unauthorized "registry definition has no scope authority")
  if ¬ ∀ permission ∈ view.permissions, permission ∈ principal.permissions then
    throw (.unauthorized "principal lacks registry permissions")
  if ¬ ∀ ref ∈ view.scope, ref ∈ principal.scopes then
    throw (.unauthorized "principal lacks registry scope")

end RegistryAuthorityView

end Alos.Registry
