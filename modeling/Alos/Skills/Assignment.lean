import Mathlib.Data.List.Infix
import Alos.Agents.Runs
import Alos.Coop.Embed
import Alos.Registry.Atomicity
import Alos.Registry.Reads

/-! # Skill assignment

`SkillAssignmentService` of `alos.skills.assignment`. A skill is assigned to an
agent by a draft of the agent's next version.

* `eligible` is what is checked, and `draftPayload` what is computed, before anything
  is awaited;
* `assignOn` registers the draft and records the outcome, wherever the agents and the
  skills are; `assign` is the operation of the service.
-/

namespace Alos.Skills

open Coop Py Registry Agents

/-- What `assign` raises. `read` and `access` are what a read of a registry or of
a payload raises beyond what is caught, `registry` what `register` does, and
`digits` is the `ValueError` of `int(text)`. -/
inductive AssignmentError where
  | assignment (code message : String)
  | read (e : ReadError)
  | access (e : AccessError)
  | digits
  | registry (e : RegistryError)
  | audit
deriving DecidableEq, Repr

/-- A refusal that is recorded, with its reason, or an error that is raised at
once. -/
inductive Refusal where
  | rejected (reason code message : String)
  | raised (e : AssignmentError)

/-- The arguments of `__init__`, and the tables of the language. -/
structure SkillAssignmentService (κ : Type) where
  registries : Registries Subject κ
  /-- `audit is not None`. -/
  audited : Bool := true
  /-- The integer that a float is equal to, if any. -/
  whole : FloatText → Option Int
  /-- `c.isdigit()`. -/
  isDigit : Char → Bool
  /-- The decimal value of a character, if it has one. -/
  decimal : Char → Option ℕ

/-- The arguments of `assign`. -/
structure Assignment where
  agentId : String
  agentVersion : String
  skillId : String
  skillVersion : String
  proposedAgentVersion : Option String := none
  principal : Principal
  correlationId : String

structure SkillAssignmentResponse where
  agentId : String
  baseAgentVersion : String
  draftAgentVersion : String
  skillRef : SkillRef
  correlationId : String
deriving DecidableEq, Repr

section Checks

variable {κ : Type} (x : SkillAssignmentService κ) (a : Assignment)

/-- `int(text)` of digits. -/
def decimalOf (text : List Char) : Except Refusal ℕ := do
  let values ← text.mapM fun c =>
    match x.decimal c with
    | none => Except.error (Refusal.raised .digits)
    | some value => .ok value
  return values.foldl (fun n value => 10 * n + value) 0

/-- `_next_minor`. `int` and `str` are taken without the limit that CPython sets to the
digits of a conversion. -/
def nextMinor (version : String) : Except Refusal String :=
  let parts := (version.toList.takeWhile (· ≠ '-')).splitOn '.'
  match parts with
  | [major, minor, patch] =>
      if [major, minor, patch].all fun part => ¬ part.isEmpty ∧ part.all x.isDigit then do
        return s!"{String.ofList major}.{(← decimalOf x minor) + 1}.0"
      else .error (.raised (.assignment "AGENT_VERSION_INVALID"
        "Agent version is not semantic-version compatible."))
  | _ => .error (.raised (.assignment "AGENT_VERSION_INVALID"
      "Agent version is not semantic-version compatible."))

/-- `proposed_agent_version or self._next_minor(agent_version)`. -/
def draftVersion : Except Refusal String :=
  match a.proposedAgentVersion.filter (· ≠ "") with
  | some version => .ok version
  | none => nextMinor x a.agentVersion

/-- An exact version that has to be active. -/
def activeEntry (entries : Table RegistryEntry.key) (subjectId version : String)
    (missing inactive : Refusal) : Except Refusal RegistryEntry :=
  match Registry.get entries ⟨a.principal.tenantId, a.principal.workspaceId, subjectId, version⟩ with
  | .error _ => .error missing
  | .ok entry => do
      .require (entry.state = .active) inactive
      return entry

def mentions (word message : String) : Prop := word.toList <:+: message.toLower.toList

instance (word message : String) : Decidable (mentions word message) :=
  inferInstanceAs (Decidable (_ <:+: _))

/-- What is made of an error of `get_authorized`. -/
def unauthorized : ReadError → Refusal
  | .unauthorized message =>
      .rejected message
        (if mentions "permission" message then "SKILL_PERMISSION_MISMATCH"
        else if mentions "scope" message then "SKILL_SCOPE_MISMATCH"
        else "ASSIGNMENT_NOT_AUTHORIZED")
        "Exact ACTIVE agent and skill versions must be authorized."
  | e => .raised (.read e)

def access {α : Type} (e : Except AccessError α) : Except Refusal α :=
  e.mapError fun e => .raised (.access e)

/-- The refs of the skill are among those of a field of the agent. -/
def requireAssigned (refs : List String) (agent : RegistryEntry) (key : String)
    (refusal : Refusal) : Except Refusal Unit := do
  let held ← access (frozenset (← access (items agent.payload key)))
  .require (SubsetOf x.whole (refs.map .str) held) refusal

def skillRefOf : SkillRef := ⟨a.skillId, a.skillVersion⟩

/-- What is checked before the version of the draft is chosen: the agent, and the
skills that it has. -/
def eligible (agents skills : Table RegistryEntry.key) :
    Except Refusal (RegistryEntry × List Json) := do
  let agent ← activeEntry a agents a.agentId a.agentVersion
    (.rejected "Agent version not found." "AGENT_VERSION_NOT_FOUND"
      "Exact AgentDefinition version was not found.")
    (.rejected "Agent is not ACTIVE." "AGENT_NOT_ACTIVE" "Base AgentDefinition must be ACTIVE.")
  let _ ← activeEntry a skills a.skillId a.skillVersion
    (.rejected "Skill version not found." "SKILL_VERSION_NOT_FOUND"
      "Exact skill version was not found.")
    (.rejected "Skill is not ACTIVE." "SKILL_NOT_ACTIVE" "Skill version must be ACTIVE.")
  let _ ← (getAuthorized agents (some a.principal) a.agentId a.agentVersion).mapError unauthorized
  let skill ← (getAuthorized skills (some a.principal) a.skillId a.skillVersion).mapError
    unauthorized
  let refs ← access (items agent.payload "skill_refs")
  .require (¬ ∃ ref ∈ refs, Equal x.whole (skillRefOf a).toJson ref)
    (.rejected "Duplicate skill reference." "AGENT_SKILL_DUPLICATE"
      "AgentDefinition already contains this skill reference.")
  requireAssigned x skill.permissions agent "permission_refs"
    (.rejected "Skill permission prerequisites exceed AgentDefinition permissions."
      "SKILL_PERMISSION_MISMATCH"
      "Skill permission prerequisites exceed AgentDefinition permissions.")
  requireAssigned x skill.scope agent "scope_refs"
    (.rejected "Skill scope prerequisites exceed AgentDefinition scope." "SKILL_SCOPE_MISMATCH"
      "Skill scope prerequisites exceed AgentDefinition scope.")
  requireAssigned x skill.toolRefs agent "tool_ids"
    (.rejected "Tool prerequisite unmet." "SKILL_TOOL_REQUIREMENT_UNMET"
      "AgentDefinition lacks a required skill tool prerequisite.")
  return (agent, refs)

/-- The payload of the agent, with the version and one more skill. -/
def assigned (agent : RegistryEntry) (refs : List Json) (version : String) : Json.Fields :=
  setItem (setItem agent.payload "agent_version" (.str version)) "skill_refs"
    (.arr (refs ++ [(skillRefOf a).toJson]))

/-- The payload of the draft, from the dicts of the two registries. -/
def draftPayload (agents skills : Table RegistryEntry.key) : Except Refusal Json.Fields := do
  let found ← eligible x a agents skills
  let version ← draftVersion x a
  return assigned a found.1 found.2 version

end Checks

/-! ## The operation -/

/-- An operation over any registries, of which two are those of the service. -/
abbrev AssignmentProc (ι κ α : Type) := Proc (Memory ι κ) (Registry.Question ι) Registry.Answer
  AssignmentError α

abbrev AssignmentOp (κ α : Type) := AssignmentProc Subject κ α

/-- What is made of an error of `register`. -/
def registrationError : RegistryError → AssignmentError
  | .conflict _ => .assignment "AGENT_VERSION_CONFLICT"
      "Proposed AgentDefinition version already exists."
  | e => .registry e

section Operation

variable {ι κ κ' : Type} (x : SkillAssignmentService κ') (a : Assignment)

def assignmentEvent (outcome reason : String) : AuditEvent where
  eventType :=
    if outcome = "DRAFT" then "skill.assignment.draft_created" else "skill.assignment.rejected"
  entityType := "agent"
  entityId := a.agentId
  tenantId := a.principal.tenantId
  organizationId := a.principal.organizationId
  workspaceId := a.principal.workspaceId
  actorId := a.principal.actorId
  correlationId := a.correlationId
  outcome := outcome
  reason := reason
  metadata := [("skill_id", .str a.skillId), ("skill_version", .str a.skillVersion)]

/-- `_record`. -/
def recordAssignment (outcome reason : String) : AssignmentProc ι κ Unit :=
  if x.audited then do
    match ← Proc.ask (Registry.Question.append (assignmentEvent a outcome reason)) with
    | Appended.returned => pure ()
    | Appended.raised => .raise .audit
  else pure ()

variable [DecidableEq ι] [DecidableEq κ] (r : Registries ι κ) (agents skills : ι)

def registerDraft (payload : Json.Fields) (now : Datetime) : AssignmentProc ι κ RegistryEntry :=
  (Registry.register r agents payload a.principal.tenantId a.principal.organizationId
    a.principal.workspaceId a.principal.actorId a.correlationId now).embed id
      (fun _ answer => answer) registrationError

/-- `assign`, wherever the agents and the skills are. -/
def assignOn (now : Datetime) : AssignmentProc ι κ SkillAssignmentResponse := do
  let s ← .get
  match draftPayload x a (s.entries agents) (s.entries skills) with
  | .error (.rejected reason code message) =>
      recordAssignment x a "REJECTED" reason
      .raise (.assignment code message)
  | .error (.raised e) => .raise e
  | .ok payload =>
      let draft ← registerDraft a r agents payload now
      recordAssignment x a "DRAFT" "Immutable AgentDefinition draft created."
      return {
        agentId := a.agentId
        baseAgentVersion := a.agentVersion
        draftAgentVersion := draft.version
        skillRef := skillRefOf a
        correlationId := a.correlationId }

end Operation

/-- `assign`, over the two registries of the service. -/
def assign {κ : Type} [DecidableEq κ] (x : SkillAssignmentService κ) (a : Assignment)
    (now : Datetime) : AssignmentOp κ SkillAssignmentResponse :=
  assignOn x a x.registries .agent .skill now

end Alos.Skills
