import Alos.Containers
import Alos.Registry.Reads

/-! # Skills

The reads of `SkillService` of `alos.skills`. They are over two registries, of
skills and of agents.
-/

namespace Alos.Skills

open Py Registry

section Skills

variable (registry : Table RegistryEntry.key) (principal : Principal)

/-- The item of a field that is not `None`. -/
def present (payload : Json.Fields) (key : String) : Json.Fields :=
  match payload.get? key with
  | none | some .null => []
  | some value => [(key, value)]

def skillItem (entry : RegistryEntry) : Json :=
  .obj ([
    ("skill_id", .str entry.subjectId),
    ("skill_version", .str entry.version),
    ("name", RegistryAuthorityView.field entry.payload "name"),
    ("description", RegistryAuthorityView.field entry.payload "description"),
    ("lifecycle_state", .str entry.state.value)] ++
    present entry.payload "owner_actor_id" ++ present entry.payload "risk_level")

def listSkills : Except ReadError (List Json) := do
  return (← listAuthorizedEntries registry (some principal)).map skillItem

def getVersions (skillId : String) : Except ReadError (List String) := do
  let entries ← listAuthorizedEntries registry (some principal)
  return (entries.filter (·.subjectId = skillId)).map (·.version)

def latestVersion (skillId : String) : Except ReadError String := do
  match (← getVersions registry principal skillId).getLast? with
  | none => throw (.notFound "skill definition was not found")
  | some version => return version

/-- The payload of a version, less its `tool_ids`. An empty `version` counts as
none. -/
def getSkill (skillId : String) (version : Option String := none) : Except ReadError Json := do
  let target ← match version.filter (· ≠ "") with
    | none => latestVersion registry principal skillId
    | some version => .ok version
  let entry ← get registry ⟨principal.tenantId, principal.workspaceId, skillId, target⟩
  let _ ← getAuthorized registry (some principal) skillId target
  let result := setItem (entry.payload.erase "tool_ids") "lifecycle_state" (.str entry.state.value)
  return .obj (setItem result "correlation_id" (.str entry.correlationId))

end Skills

section AgentSkills

variable (agents : Table RegistryEntry.key) (principal : Principal)

/-- An own draft, or an active definition that is authorized. -/
def visible (candidate : RegistryEntry) : Except ReadError Bool :=
  if candidate.state = .draft ∧ candidate.createdBy = principal.actorId then .ok true
  else if candidate.state = .active then
    match getAuthorized agents (some principal) candidate.subjectId candidate.version with
    | .ok _ => .ok true
    | .error (.unauthorized _) => .ok false
    | .error e => .error e
  else .ok false

def listAgentSkills (agentId correlationId : String) : Except ReadError Json := do
  let entries ← listEntries agents principal.tenantId principal.organizationId
    principal.workspaceId (some agentId)
  match (← entries.filterM (visible agents principal)).getLast? with
  | none => throw (.notFound "authorized agent definition was not found")
  | some entry =>
      let refs ← (items entry.payload "skill_refs").mapError fun _ => ReadError.typeError
      return .obj [
        ("agent_id", .str agentId),
        ("agent_version", .str entry.version),
        ("lifecycle_state", .str entry.state.value),
        ("skill_refs", .arr refs),
        ("correlation_id", .str correlationId)]

end AgentSkills

end Alos.Skills
