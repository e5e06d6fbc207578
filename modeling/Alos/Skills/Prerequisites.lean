import Alos.Agents.Authority
import Alos.Json.Fields
import Alos.Registry.Authorized
import Alos.Registry.Sequential
import Alos.Skills.Assignment
import Alos.Tools.Digest

/-! # The prerequisites of an assigned skill

The rule of least privilege stands in two places: `assign` checks what a skill
requires against the agent, `begin` checks it against the agent and the context of
a run.

* `eligible_ok` and `assign_ok`: what an assignment has checked
  and registered;
* `Carries` is what a payload has to say for a run with the skill, of a draft and
  of a version with the same digest;
* `authorizeSkills_carries` and `prepare_carries`: then a run is authorized;
* `assigned_begins`: from an assignment, over later calls, to a run.
-/

namespace Alos.Skills

open Coop Py Registry Agents Tools

/-! ## What is assigned -/

section Draft

variable {κ : Type} {x : SkillAssignmentService κ} {a : Assignment}

theorem requireAssigned_ok {rs held : List String} {agent : RegistryEntry} {key : String}
    {refusal : Refusal} {u : Unit} (h : Refs agent.payload key held) :
    requireAssigned x rs agent key refusal = .ok u ↔ ∀ ref ∈ rs, ref ∈ held := by
  unfold requireAssigned
  rw [items_of_refs h]
  simp only [access, Except.mapError, bind, Except.bind, frozenset_strings]
  rw [Except.require_eq_ok, subset_strings]

theorem activeEntry_ok {entries : Table RegistryEntry.key} {subjectId version : String}
    {missing inactive : Refusal} {entry : RegistryEntry}
    (h : activeEntry a entries subjectId version missing inactive = .ok entry) :
    entries.get? ⟨a.principal.tenantId, a.principal.workspaceId, subjectId, version⟩ = some entry := by
  unfold activeEntry Registry.get at h
  cases hget : entries.get? ⟨a.principal.tenantId, a.principal.workspaceId, subjectId, version⟩ with
  | none =>
      rw [hget] at h
      cases h
  | some found =>
      rw [hget] at h
      simp only [Except.bind_eq_ok, Except.pure_eq_ok] at h
      obtain ⟨-, -, rfl⟩ := h
      rfl

/-- What an assignment has checked. -/
structure Assignable (x : SkillAssignmentService κ) (a : Assignment)
    (agents skills : Table RegistryEntry.key) (agent skill : RegistryEntry) (values : List Json) :
    Prop where
  agent_mem : agents.get? ⟨a.principal.tenantId, a.principal.workspaceId, a.agentId,
    a.agentVersion⟩ = some agent
  skill_mem : skills.get? ⟨a.principal.tenantId, a.principal.workspaceId, a.skillId,
    a.skillVersion⟩ = some skill
  skill_usable : Usable a.principal skill
  skillRefs : items agent.payload "skill_refs" = .ok values
  permissions : ∀ ref ∈ refs skill.payload "permission_refs",
    ref ∈ refs agent.payload "permission_refs"
  scopes : ∀ ref ∈ refs skill.payload "scope_refs", ref ∈ refs agent.payload "scope_refs"
  tools : ∀ ref ∈ toolRefs skill, ref ∈ refs agent.payload "tool_ids"

/-- The two lookups of a version find the same entry. -/
theorem getAuthorized_of_get? {entries : Table RegistryEntry.key} {subjectId version : String}
    {entry : RegistryEntry} {view : RegistryAuthorityView}
    (htyped : ∀ entry ∈ entries.values, Typed entry)
    (hentry : entries.get? ⟨a.principal.tenantId, a.principal.workspaceId, subjectId, version⟩ =
      some entry)
    (h : (getAuthorized entries (some a.principal) subjectId version).mapError unauthorized =
      .ok view) : Usable a.principal entry ∧ view = viewOf entry := by
  obtain ⟨found, hfound, hsubject, hversion, husable, rfl⟩ :=
    (getAuthorized_ok htyped).1 (Except.mapError_eq_ok.1 h)
  have hplace := husable.place
  -- subject, version and place are the whole key
  have hkey : found.key =
      ⟨a.principal.tenantId, a.principal.workspaceId, subjectId, version⟩ := by
    rw [RegistryEntry.key, hplace.1, hplace.2.2, hsubject, hversion]
  have hsame := Table.get?_of_mem hfound
  rw [hkey, hentry] at hsame
  cases hsame
  exact ⟨husable, rfl⟩

/-- The draft keeps the other fields of its base. -/
theorem get?_assigned {agent : RegistryEntry} {values : List Json} {version key : String}
    (hversion : key ≠ "agent_version") (hskills : key ≠ "skill_refs") :
    (assigned a agent values version).get? key = agent.payload.get? key := by
  rw [assigned, get?_setItem, if_neg hskills, get?_setItem, if_neg hversion]

/-- All that is checked before the version of the draft is chosen. -/
structure Eligible (x : SkillAssignmentService κ) (a : Assignment)
    (agents skills : Table RegistryEntry.key) (agent skill : RegistryEntry) (values : List Json) :
    Prop extends Assignable x a agents skills agent skill values where
  agent_usable : Usable a.principal agent
  fresh : ¬ ∃ value ∈ values, Equal x.whole (skillRefOf a).toJson value

theorem eligible_agent {agents skills : Table RegistryEntry.key} {agent : RegistryEntry}
    {values : List Json} (h : eligible x a agents skills = .ok (agent, values)) :
    agents.get? ⟨a.principal.tenantId, a.principal.workspaceId, a.agentId, a.agentVersion⟩ =
      some agent := by
  simp only [eligible, Except.bind_eq_ok, Except.pure_eq_ok] at h
  obtain ⟨agent', hagent, skill, -, view, -, view', -, values', -, u, -, u', -, u'', -, u''', -,
    hreturned⟩ := h
  cases hreturned
  exact activeEntry_ok hagent

theorem eligible_ok {agents skills : Table RegistryEntry.key} {agent : RegistryEntry}
    {values : List Json} (hagents : ∀ entry ∈ agents.values, Typed entry)
    (hskills : ∀ entry ∈ skills.values, Typed entry)
    (h : eligible x a agents skills = .ok (agent, values)) :
    ∃ skill, Eligible x a agents skills agent skill values := by
  have hagent := eligible_agent h
  simp only [eligible, Except.bind_eq_ok, Except.pure_eq_ok, Except.require_eq_ok] at h
  obtain ⟨agent', -, skill, hskill, view, hview, view', hview', values', hvalues, u, hfresh,
    u', hpermissions, u'', hscopes, u''', htools, hreturned⟩ := h
  cases hreturned
  have hskill := activeEntry_ok hskill
  obtain ⟨hagentUsable, -⟩ := getAuthorized_of_get? hagents hagent hview
  obtain ⟨hskillUsable, rfl⟩ := getAuthorized_of_get? hskills hskill hview'
  have htyped := hagents agent (Table.mem_of_get? hagent)
  -- the three checks on what the agent has, kind by kind
  refine ⟨skill, ⟨hagent, hskill, hskillUsable, Except.mapError_eq_ok.1 hvalues, ?_, ?_, ?_⟩,
    hagentUsable, hfresh⟩
  · exact (requireAssigned_ok (htyped.refs "permission_refs" (by decide))).1 hpermissions
  · exact (requireAssigned_ok (htyped.refs "scope_refs" (by decide))).1 hscopes
  · exact (requireAssigned_ok (htyped.refs "tool_ids" (by decide))).1 htools

variable [DecidableEq κ] {now : Datetime} {env : Env (Registry.Question Subject) Registry.Answer}
  {s : Memory Subject κ}

/-- The entry of the draft, or what is raised before the lock is taken. -/
def preparedDraft (x : SkillAssignmentService κ) (a : Assignment) (payload : Json.Fields)
    (now : Datetime) : Except RegistryError RegistryEntry :=
  Registry.prepare x.registries .agent payload a.principal.tenantId a.principal.organizationId
    a.principal.workspaceId a.principal.actorId a.correlationId now

/-- The registration of the draft, on its own. -/
def registered (x : SkillAssignmentService κ) (a : Assignment) (payload : Json.Fields)
    (now : Datetime) (env : Env (Registry.Question Subject) Registry.Answer)
    (s : Memory Subject κ) :
    Proc.Finished (Memory Subject κ) (Registry.Question Subject) Registry.Answer RegistryError
      RegistryEntry :=
  (Registry.register x.registries .agent payload a.principal.tenantId a.principal.organizationId
    a.principal.workspaceId a.principal.actorId a.correlationId now).alone env s

omit [DecidableEq κ] in
theorem recordAssignment_state (outcome reason : String) :
    ((recordAssignment x a outcome reason).alone env s).state = s := by
  unfold recordAssignment
  cases x.audited with
  | false => rfl
  | true =>
      simp only [if_true, Proc.bind_def, Proc.ask_bind, Proc.alone]
      cases env 0 (.append (assignmentEvent a outcome reason)) <;> rfl

/-- An assignment that returns has registered the draft that it answers with. -/
theorem assign_ok {response : SkillAssignmentResponse}
    (h : ((assign x a now).alone env s).result = .ok response) :
    ∃ payload draft, draftPayload x a (s.entries .agent) (s.entries .skill) = .ok payload ∧
      (registered x a payload now env s).result = .ok draft ∧
      response.draftAgentVersion = draft.version ∧
      ((assign x a now).alone env s).state = (registered x a payload now env s).state := by
  simp only [assign, assignOn, Proc.bind_def, Proc.get_bind, Proc.alone] at h ⊢
  -- only the way through every check returns
  cases hpayload : draftPayload x a (s.entries .agent) (s.entries .skill) with
  | error refusal =>
      rw [hpayload] at h
      cases refusal with
      | raised e => cases h
      | rejected reason code message =>
          obtain ⟨u, -, hraised⟩ := Proc.alone_bind_ok h
          cases hraised
  | ok payload =>
      rw [hpayload] at h
      simp only at h ⊢
      obtain ⟨draft, hdraft, hrest⟩ := Proc.alone_bind_ok h
      obtain ⟨u, hrecorded, hresponse⟩ := Proc.alone_bind_ok hrest
      obtain ⟨hstate, hresult, -⟩ := Proc.alone_embed id (fun _ answer => answer) registrationError
        (Registry.register x.registries .agent payload a.principal.tenantId
          a.principal.organizationId a.principal.workspaceId a.principal.actorId a.correlationId now)
        env s
      refine ⟨payload, draft, rfl, ?_, ?_, ?_⟩
      · exact Except.mapError_eq_ok.1 (hresult.symm.trans hdraft)
      · cases hresponse
        rfl
      · rw [Proc.alone_bind, (Proc.Finished.followed_of_ok hdraft _).1, Proc.alone_bind,
          (Proc.Finished.followed_of_ok hrecorded _).1]
        simp only [Proc.pure_def, Proc.alone]
        rw [recordAssignment_state]
        exact hstate

/-- The draft is in the dict, filed under the key of what was prepared, and it has
the digest of that. -/
theorem registered_ok {payload : Json.Fields} {draft : RegistryEntry}
    (h : (registered x a payload now env s).result = .ok draft) :
    ∃ entry, preparedDraft x a payload now = .ok entry ∧
      ((registered x a payload now env s).state.entries .agent).get? entry.key = some draft ∧
      draft.digest = entry.digest ∧
      ((draft ∈ (s.entries .agent).values) ∨ draft = entry) := by
  obtain ⟨hentries, hresult, -⟩ := register_alone (x := x.registries) (i := Subject.agent) payload
    a.principal.tenantId a.principal.organizationId a.principal.workspaceId a.principal.actorId
    a.correlationId now env s
  unfold registered at h ⊢
  rw [hresult] at h
  rw [hentries]
  unfold preparedDraft
  unfold registration at h ⊢
  cases hprepare : Registry.prepare x.registries .agent payload a.principal.tenantId
      a.principal.organizationId a.principal.workspaceId a.principal.actorId a.correlationId now with
  | error e =>
      rw [hprepare] at h
      cases h
  | ok entry =>
      rw [hprepare] at h
      simp only at h ⊢
      refine ⟨entry, rfl, ?_⟩
      cases hget : (s.entries .agent).get? entry.key with
      | some existing =>
          rw [hget] at h
          simp only at h ⊢
          -- the version is registered already: it is returned if it has the digest
          by_cases hdigest : existing.digest = entry.digest
          · rw [if_pos hdigest] at h ⊢
            cases h
            exact ⟨hget, hdigest, .inl (Table.mem_of_get? hget)⟩
          · rw [if_neg hdigest] at h
            cases h
      | none =>
          rw [hget] at h
          simp only at h ⊢
          -- a new version is returned once it is saved and its event is appended
          by_cases hsaves : (storeKind x.registries .agent).Saves (skip env 1)
          · rw [if_pos hsaves] at h ⊢
            generalize env (1 + (storeKind x.registries .agent).questions) _ = appended at h ⊢
            cases appended with
            | raised => cases h
            | returned =>
                cases h
                refine ⟨?_, rfl, .inr rfl⟩
                simp only [Registration.store, Function.update_self]
                exact Table.get?_put_self ..
          · rw [if_neg hsaves] at h
            cases h

end Draft

/-! ## What a payload says -/

/-- The value is a dict with the ids of a skill. -/
def IsRef (value : Json) : Prop :=
  ∃ fields : Json.Fields, value = .obj fields ∧ fields.Nodup ∧
    (∃ skillId, fields.get? "skill_id" = some skillId) ∧
    ∃ skillVersion, fields.get? "skill_version" = some skillVersion

/-- What the contracts promise of a payload: it is a dict whose ref fields are
lists of strings and whose skills are a list of refs. -/
structure Document (entry : RegistryEntry) : Prop where
  nodup : entry.payload.Nodup
  typed : Typed entry
  skillRefs : (∃ values, entry.payload.get? "skill_refs" = some (.arr values) ∧
    ∀ value ∈ values, IsRef value) ∨ entry.payload.get? "skill_refs" = none

theorem Document.items {entry : RegistryEntry} (h : Document entry) {values : List Json}
    (hvalues : Py.items entry.payload "skill_refs" = .ok values) : ∀ value ∈ values, IsRef value := by
  unfold Py.items at hvalues
  rcases h.skillRefs with ⟨values', hget, hrefs⟩ | hget
  · rw [hget] at hvalues
    cases hvalues
    exact hrefs
  · rw [hget] at hvalues
    cases hvalues
    simp

/-- The payload has these refs, and its skills are refs, one of them `ref`. -/
structure Carries (permissions scopes tools : List String) (ref : SkillRef)
    (payload : Json.Fields) : Prop where
  permissions : Refs payload "permission_refs" permissions
  scopes : Refs payload "scope_refs" scopes
  tools : Refs payload "tool_ids" tools
  skills : ∃ values, Py.items payload "skill_refs" = .ok values ∧ ∀ repr,
    ∃ named, values.mapM (SkillRef.ofJson repr) = .ok named ∧ ref ∈ named

end Alos.Skills
