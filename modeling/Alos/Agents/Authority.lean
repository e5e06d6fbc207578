import Mathlib.Data.List.Dedup
import Alos.Agents.Repository
import Alos.Coop.Guards
import Alos.Tools.Request

/-! # What a run is authorized to do

A run takes its authority from three documents: the request, the definition of
the agent and the definitions of the skills.

* `Authorized` says how the record of a run is bounded by them, one field for
  each check;
* `begin_safe`: every record that `begin` returns is authorized, and a call that
  raises before its append stores nothing;
* `inside_iff`: for the capability and the tools the bounds are not checked
  against both documents.
-/

namespace Alos.Agents

open Coop Py Registry Tools

/-! ## Reading the checks -/

section Checks

variable {x : AgentRunAuthority} {request context : Json.Fields} {agent : RegistryEntry}

/-- `_require_equal` passes exactly on the text it asks for. -/
theorem requireEqual_ok {fields : Json.Fields} {key value message : String} {u : Unit} :
    requireEqual fields key value message = .ok u ↔ fields.get? key = some (.str value) := by
  unfold requireEqual item
  cases hget : fields.get? key with
  | none => simp
  | some found =>
      simp only [Except.require_eq_ok, eqText_iff, Option.some.injEq]

/-- The context check passes exactly when request, context and agent name one place and one run. -/
theorem requireContext_ok {u : Unit} :
    requireContext request context agent = .ok u ↔
      context.get? "tenant_id" = some (.str agent.tenantId) ∧
      context.get? "organization_id" = some (.str agent.organizationId) ∧
      context.get? "workspace_id" = some (.str agent.workspaceId) ∧
      request.get? "agent_id" = some (.str agent.subjectId) ∧
      request.get? "agent_version" = some (.str agent.version) := by
  simp only [requireContext, Except.bind_eq_ok, requireEqual_ok]
  tauto

/-- The lifecycle check passes exactly on an agent that may be run. -/
theorem requireLifecycle_ok {u : Unit} :
    requireLifecycle x request agent = .ok u ↔ LifecycleAllows x request agent :=
  Except.require_eq_ok

/-- A subset check passes exactly when both lists can be read and one is within the other. -/
theorem requireSubset_ok {required granted : Except RunError (List String)} {message : String}
    {u : Unit} : requireSubset required granted message = .ok u ↔
      ∃ r g, required = .ok r ∧ granted = .ok g ∧ ∀ ref ∈ r, ref ∈ g := by
  simp only [requireSubset, Except.bind_eq_ok, Except.require_eq_ok]
  constructor
  · rintro ⟨r, hr, g, hg, hsubset⟩
    exact ⟨r, g, hr, hg, hsubset⟩
  · rintro ⟨r, g, hr, hg, hsubset⟩
    exact ⟨r, hr, g, hg, hsubset⟩

/-- The refs of a field that is a list of strings. -/
theorem items_of_refs {fields : Json.Fields} {key : String} {refs : List String}
    (h : Refs fields key refs) : items fields key = .ok (refs.map .str) := by
  unfold items
  rcases h with h | ⟨h, rfl⟩ <;> rw [h] <;> rfl

/-- A field that is a list of texts is read as these texts. -/
theorem strings_of_refs {fields : Json.Fields} {key : String} {refs : List String}
    (h : Refs fields key refs) : strings x fields key = .ok refs := by
  rw [strings, items_of_refs h]
  simp [Except.map, Except.mapError, str, Function.comp_def]

theorem frozenset_strings (refs : List String) :
    frozenset (refs.map .str) = .ok (refs.map .str) := by
  simp [frozenset, hashable]

theorem text_ok {fields : Json.Fields} {key s : String} :
    text x fields key = .ok s ↔ ∃ value, fields.get? key = some value ∧ str x.repr value = s := by
  unfold text item
  cases fields.get? key <;> simp

/-- The execution context of a request is its own field, an object. -/
theorem executionContext_ok :
    executionContext request = .ok context ↔
      request.get? "execution_context" = some (.obj context) := by
  unfold executionContext item
  cases request.get? "execution_context" with
  | none => simp
  | some value => cases value <;> simp

/-! ## Skills -/

theorem requirePrerequisite_ok {skill : RegistryEntry} {key : String} {held : List Json}
    {message code : String} {u : Unit} :
    requirePrerequisite x skill key held message code = .ok u ↔
      ∃ required, refSet skill.payload key = .ok required ∧ SubsetOf x.whole required held := by
  simp only [requirePrerequisite, Except.bind_eq_ok, Except.require_eq_ok]

/-- A skill that is asked for may be used: it is assigned to the agent, active in
the agent's place, and its prerequisites are met. -/
structure SkillAuthorized (x : AgentRunAuthority) (skills : Option (Table RegistryEntry.key))
    (agent : RegistryEntry) (agentRefs : List SkillRef) (held : Effective) (ref : SkillRef)
    (skill : RegistryEntry) : Prop where
  assigned : ref ∈ agentRefs
  registered : ∃ entries, skills = some entries ∧
    entries.get? ⟨agent.tenantId, agent.workspaceId, ref.skillId, ref.skillVersion⟩ = some skill
  organization : skill.organizationId = agent.organizationId
  active : skill.state = .active
  permissions : ∃ required, refSet skill.payload "permission_refs" = .ok required ∧
    SubsetOf x.whole required held.permissions
  scopes : ∃ required, refSet skill.payload "scope_refs" = .ok required ∧
    SubsetOf x.whole required held.scopes
  tools : ∃ required, refSet skill.payload "required_tool_ids" = .ok required ∧
    SubsetOf x.whole required held.tools

/-- A skill passes exactly when the registry, the agent and the held authority allow it. -/
theorem authorizeSkill_ok {skills : Option (Table RegistryEntry.key)} {agentRefs : List SkillRef}
    {held : Effective} {ref : SkillRef} {u : Unit} :
    authorizeSkill x skills agent agentRefs held ref = .ok u ↔
      ∃ skill, SkillAuthorized x skills agent agentRefs held ref skill := by
  simp only [authorizeSkill, Except.bind_eq_ok, Except.require_eq_ok]
  cases skills with
  | none =>
      constructor
      · rintro ⟨-, -, h⟩
        cases h
      · rintro ⟨skill, h⟩
        -- without a registry of skills none is authorized
        obtain ⟨entries, hentries, -⟩ := h.registered
        cases hentries
  | some entries =>
      simp only
      cases hget : entries.get?
          ⟨agent.tenantId, agent.workspaceId, ref.skillId, ref.skillVersion⟩ with
      | none =>
          constructor
          · rintro ⟨-, -, h⟩
            cases h
          · rintro ⟨skill, h⟩
            obtain ⟨entries', hentries, hskill⟩ := h.registered
            cases hentries
            rw [hget] at hskill
            cases hskill
      | some skill =>
          simp only [Except.bind_eq_ok, Except.require_eq_ok, requirePrerequisite_ok]
          constructor
          · rintro ⟨-, hassigned, -, horganization, -, hactive, -, hpermissions, -, hscopes, htools⟩
            exact ⟨skill, hassigned, ⟨entries, rfl, hget⟩, horganization, hactive, hpermissions,
              hscopes, htools⟩
          · rintro ⟨skill', h⟩
            -- the skill that is authorized is the one found
            obtain ⟨entries', hentries, hskill⟩ := h.registered
            cases hentries
            rw [hget] at hskill
            cases hskill
            exact ⟨(), h.assigned, (), h.organization, (), h.active, (), h.permissions, (), h.scopes,
              h.tools⟩

/-- What is held of a kind is what both the context and the agent grant of it. -/
theorem effective_ok {contextKey agentKey : String} {held : List Json} :
    effective x context contextKey agent agentKey = .ok held ↔
      ∃ granted assigned, refSet context contextKey = .ok granted ∧
        refSet agent.payload agentKey = .ok assigned ∧ inter x.whole granted assigned = held := by
  simp only [effective, Except.bind_eq_ok, Except.pure_eq_ok]
  constructor
  · rintro ⟨granted, hgranted, assigned, hassigned, hheld⟩
    exact ⟨granted, assigned, hgranted, hassigned, hheld⟩
  · rintro ⟨granted, assigned, hgranted, hassigned, hheld⟩
    exact ⟨granted, hgranted, assigned, hassigned, hheld⟩

/-- The same of permissions, scopes and tools together. -/
theorem effectiveAuthority_ok {held : Effective} :
    effectiveAuthority x context agent = .ok held ↔
      effective x context "permission_refs" agent "permission_refs" = .ok held.permissions ∧
      effective x context "scope_refs" agent "scope_refs" = .ok held.scopes ∧
      effective x context "allowed_tool_ids" agent "tool_ids" = .ok held.tools := by
  simp only [effectiveAuthority, Except.bind_eq_ok, Except.pure_eq_ok]
  constructor
  · rintro ⟨permissions, hpermissions, scopes, hscopes, tools, htools, rfl⟩
    exact ⟨hpermissions, hscopes, htools⟩
  · rintro ⟨hpermissions, hscopes, htools⟩
    exact ⟨_, hpermissions, _, hscopes, _, htools, rfl⟩

/-- The refs that a list of documents names. -/
def Names (x : AgentRunAuthority) (values : List Json) (ref : SkillRef) : Prop :=
  ∃ value ∈ values, SkillRef.ofJson x.repr value = .ok ref

/-- Every reference that was read stands in the list it was read from. -/
theorem mem_of_skillRefs {values : List Json} {refs : List SkillRef}
    (h : values.mapM (skillRef x) = .ok refs) {ref : SkillRef} (href : ref ∈ refs) :
    Names x values ref := by
  obtain ⟨value, hvalue, hread⟩ := Except.mem_of_mapM h href
  exact ⟨value, hvalue, Except.mapError_eq_ok.1 hread⟩

/-- Sorting the distinct references loses none. -/
theorem mem_sorted {refs : List SkillRef} {ref : SkillRef} :
    ref ∈ refs.dedup.insertionSort SkillRef.Before ↔ ref ∈ refs := by
  rw [(List.perm_insertionSort _ _).mem_iff, List.mem_dedup]

/-- The skills of a run: named by the agent and by what was asked for, and each
of them authorized. -/
theorem authorizeSkills_ok {skills : Option (Table RegistryEntry.key)} {refs : List SkillRef}
    (h : authorizeSkills x skills request context agent = .ok refs) :
    ∃ agentValues agentRefs held values,
      items agent.payload "skill_refs" = .ok agentValues ∧
      agentValues.mapM (skillRef x) = .ok agentRefs ∧
      effectiveAuthority x context agent = .ok held ∧
      iter (rawRefs request agent) = some values ∧
      ∀ ref ∈ refs, Names x values ref ∧
        ∃ skill, SkillAuthorized x skills agent agentRefs held ref skill := by
  simp only [authorizeSkills, Except.bind_eq_ok, Except.pure_eq_ok] at h
  obtain ⟨agentValues, hagentValues, agentRefs, hagentRefs, held, hheld, values, hvalues,
    authorized, hauthorized, rfl⟩ := h
  refine ⟨agentValues, agentRefs, held, values, Except.mapError_eq_ok.1 hagentValues, hagentRefs,
    hheld, ?_, ?_⟩
  · unfold iterate at hvalues
    split at hvalues
    · cases hvalues
    · cases hvalues
      assumption
  · intro ref href
    -- a sorted ref was read from one of the values, and passed its check there
    obtain ⟨value, hvalue, hread⟩ := Except.mem_of_mapM hauthorized (mem_sorted.1 href)
    simp only [Except.bind_eq_ok, Except.pure_eq_ok] at hread
    obtain ⟨ref', hread, u, hskill, rfl⟩ := hread
    exact ⟨⟨value, hvalue, Except.mapError_eq_ok.1 hread⟩, authorizeSkill_ok.1 hskill⟩

end Checks

/-! ## What a record is authorized to do -/

/-- Every ref of the skill is one of the context's and of the agent's. -/
def Bounded (x : AgentRunAuthority) (skill : RegistryEntry) (key : String) (context : Json.Fields)
    (contextKey : String) (agent : RegistryEntry) (agentKey : String) : Prop :=
  ∃ required granted assigned, refSet skill.payload key = .ok required ∧
    refSet context contextKey = .ok granted ∧ refSet agent.payload agentKey = .ok assigned ∧
    SubsetOf x.whole required granted ∧ SubsetOf x.whole required assigned

/-- A skill that a run may use. -/
structure SkillWithin (x : AgentRunAuthority) (skills : Option (Table RegistryEntry.key))
    (request context : Json.Fields) (agent : RegistryEntry) (ref : SkillRef) : Prop where
  /-- The agent has it. -/
  assigned : ∃ values, items agent.payload "skill_refs" = .ok values ∧ Names x values ref
  /-- It is asked for, when the request names any skills. -/
  requested : ∀ requested, request.get? "authorized_skill_refs" = some requested →
    requested = .null ∨ ∃ values, iter requested = some values ∧ Names x values ref
  /-- It is registered in the agent's place, active, and within both documents. -/
  registered : ∃ entries skill, skills = some entries ∧
    entries.get? ⟨agent.tenantId, agent.workspaceId, ref.skillId, ref.skillVersion⟩ = some skill ∧
    skill.tenantId = agent.tenantId ∧ skill.workspaceId = agent.workspaceId ∧
    skill.organizationId = agent.organizationId ∧ skill.subjectId = ref.skillId ∧
    skill.version = ref.skillVersion ∧ skill.state = .active ∧
    Bounded x skill "permission_refs" context "permission_refs" agent "permission_refs" ∧
    Bounded x skill "scope_refs" context "scope_refs" agent "scope_refs" ∧
    Bounded x skill "required_tool_ids" context "allowed_tool_ids" agent "tool_ids"

/-- The refs of one document, as strings, are among those of another. -/
def Within (x : AgentRunAuthority) (fields : Json.Fields) (key : String) (outer : Json.Fields)
    (outerKey : String) : Prop :=
  ∃ refs granted, strings x fields key = .ok refs ∧ strings x outer outerKey = .ok granted ∧
    ∀ ref ∈ refs, ref ∈ granted

/-- Fields that are lists of strings. -/
theorem within_iff {x : AgentRunAuthority} {fields outer : Json.Fields} {key outerKey : String}
    {refs granted : List String} (hrefs : Refs fields key refs)
    (hgranted : Refs outer outerKey granted) :
    Within x fields key outer outerKey ↔ ∀ ref ∈ refs, ref ∈ granted := by
  unfold Within
  rw [strings_of_refs hrefs, strings_of_refs hgranted]
  constructor
  · rintro ⟨r, g, hr, hg, h⟩
    cases hr
    cases hg
    exact h
  · intro h
    exact ⟨_, _, rfl, rfl, h⟩

/-- The authority of a run. -/
structure Authorized (x : AgentRunAuthority) (skills : Option (Table RegistryEntry.key))
    (request context : Json.Fields) (agent : RegistryEntry) (record : AuthoritativeRunRecord) :
    Prop where
  tenantId : record.tenantId = agent.tenantId
  organizationId : record.organizationId = agent.organizationId
  workspaceId : record.workspaceId = agent.workspaceId
  agentId : record.agentId = agent.subjectId
  agentVersion : record.agentVersion = agent.version
  lifecycle : LifecycleAllows x request agent
  permissions : Within x agent.payload "permission_refs" context "permission_refs"
  scopes : Within x agent.payload "scope_refs" context "scope_refs"
  /-- The tools are those that are requested, all of them the agent's. -/
  requestedTools : Within x request "requested_tool_ids" agent.payload "tool_ids"
  tools : ∀ requested assigned, Refs request "requested_tool_ids" requested →
    Refs agent.payload "tool_ids" assigned → record.authorizedToolIds = requested.map .str
  skills : ∀ ref ∈ record.authorizedSkillRefs, SkillWithin x skills request context agent ref
  /-- The request that is stored names the skills that are authorized. -/
  stored : record.request.get? "authorized_skill_refs" =
    some (.arr (record.authorizedSkillRefs.map SkillRef.toJson))

section Record

variable {x : AgentRunAuthority} {skills : Option (Table RegistryEntry.key)}
  {request context : Json.Fields} {agent : RegistryEntry}

/-- What a skill needs is bounded by the context and by the agent. -/
theorem bounded_of_effective {skill : RegistryEntry} {key contextKey agentKey : String}
    {held : List Json}
    (hskill : ∃ required, refSet skill.payload key = .ok required ∧ SubsetOf x.whole required held)
    (hheld : effective x context contextKey agent agentKey = .ok held) :
    Bounded x skill key context contextKey agent agentKey := by
  obtain ⟨required, hrequired, hsubset⟩ := hskill
  obtain ⟨granted, assigned, hgranted, hassigned, rfl⟩ := effective_ok.1 hheld
  exact ⟨required, granted, assigned, hrequired, hgranted, hassigned, subset_inter hsubset⟩

/-- Every skill of an authorized request is within what the request, the context and the agent
allow. -/
theorem skillWithin {refs : List SkillRef}
    (h : authorizeSkills x skills request context agent = .ok refs) {ref : SkillRef}
    (href : ref ∈ refs) : SkillWithin x skills request context agent ref := by
  obtain ⟨agentValues, agentRefs, held, values, hagentValues, hagentRefs, hheld, hvalues, hall⟩ :=
    authorizeSkills_ok h
  obtain ⟨hnames, skill, hskill⟩ := hall ref href
  obtain ⟨entries, hentries, hget⟩ := hskill.registered
  have hkey := Table.key_of_get? hget
  simp only [RegistryEntry.key, RegistryKey.mk.injEq] at hkey
  obtain ⟨hpermissions, hscopes, htools⟩ := effectiveAuthority_ok.1 hheld
  constructor
  · exact ⟨agentValues, hagentValues, mem_of_skillRefs hagentRefs hskill.assigned⟩
  · intro requested hrequested
    unfold rawRefs at hvalues
    rw [hrequested] at hvalues
    -- without refs in the request, those of the agent are taken
    by_cases hnull : requested = .null
    · exact .inl hnull
    · right
      refine ⟨values, ?_, hnames⟩
      cases requested <;> first | exact absurd rfl hnull | exact hvalues
  · exact ⟨entries, skill, hentries, hget, hkey.1, hkey.2.1, hskill.organization, hkey.2.2.1,
      hkey.2.2.2, hskill.active, bounded_of_effective hskill.permissions hpermissions,
      bounded_of_effective hskill.scopes hscopes, bounded_of_effective hskill.tools htools⟩

/-- A field that is a text is read as it stands. -/
theorem text_of_str {fields : Json.Fields} {key s t : String}
    (h : fields.get? key = some (.str s)) (htext : text x fields key = .ok t) : t = s := by
  obtain ⟨value, hvalue, rfl⟩ := text_ok.1 htext
  rw [h] at hvalue
  cases hvalue
  rfl

/-- The tools of a request that are all the agent's. -/
theorem authorizedTools_of_refs {requested assigned : List String}
    (hrequested : Refs request "requested_tool_ids" requested)
    (hassigned : Refs agent.payload "tool_ids" assigned)
    (hsubset : ∀ tool ∈ requested, tool ∈ assigned) :
    authorizedTools x request agent = .ok (requested.map .str) := by
  have hlisted : (agent.payload.get? "tool_ids").getD (.arr []) = .arr (assigned.map .str) := by
    rcases hassigned with h | ⟨h, rfl⟩ <;> rw [h] <;> rfl
  -- every tool that was requested is one of the agent's
  have hcontains : ∀ tool ∈ requested.map Json.str,
      (contains x.whole ((agent.payload.get? "tool_ids").getD (.arr [])) tool).mapError
        RunError.access = .ok true := by
    intro tool htool
    obtain ⟨s, hs, rfl⟩ := List.mem_map.1 htool
    rw [hlisted]
    have hmem : ∃ y ∈ assigned.map Json.str, Equal x.whole (.str s) y :=
      ⟨.str s, List.mem_map_of_mem (hsubset s hs), .refl _⟩
    simp only [contains, decide_eq_true hmem, Except.mapError]
  unfold authorizedTools
  rw [items_of_refs hrequested]
  have hkept := Except.filterM_eq_ok (q := fun _ => true) hcontains
  rw [List.filter_true] at hkept
  exact hkept

/-- The record of a run repeats the context, the request and the agent. -/
theorem runRecord_ok {refs : List SkillRef} {now : Datetime} {record : AuthoritativeRunRecord}
    (h : runRecord x request context agent refs now = .ok record) :
    text x context "tenant_id" = .ok record.tenantId ∧
      text x context "organization_id" = .ok record.organizationId ∧
      text x context "workspace_id" = .ok record.workspaceId ∧
      text x request "agent_id" = .ok record.agentId ∧
      text x request "agent_version" = .ok record.agentVersion ∧
      text x request "capability_id" = .ok record.capabilityId ∧
      authorizedTools x request agent = .ok record.authorizedToolIds ∧
      record.authorizedSkillRefs = refs ∧ record.request = request ∧ record.status = .running ∧
      record.completedAt = none ∧ record.result = none := by
  simp only [runRecord, Except.bind_eq_ok, Except.pure_eq_ok] at h
  obtain ⟨runId, hrunId, rootRunId, hrootRunId, tenantId, htenantId, organizationId,
    horganizationId, workspaceId, hworkspaceId, actorId, hactorId, correlationId, hcorrelationId,
    agentId, hagentId, agentVersion, hagentVersion, capabilityId, hcapabilityId, tools, htools,
    rfl⟩ := h
  exact ⟨htenantId, horganizationId, hworkspaceId, hagentId, hagentVersion, hcapabilityId, htools,
    rfl, rfl, rfl, rfl, rfl⟩

/-- The request of a record is the valid one with the skills that are authorized. -/
def requestOf (request : Json.Fields) (refs : List SkillRef) : Json.Fields :=
  setItem request "authorized_skill_refs" (.arr (refs.map SkillRef.toJson))

/-- Only the skill references of the request are replaced. -/
theorem requestOf_get? {key : String} (refs : List SkillRef) (h : key ≠ "authorized_skill_refs") :
    (requestOf request refs).get? key = request.get? key := by
  rw [requestOf, get?_setItem, if_neg h]

/-- What `begin` has checked when it comes to store the record. -/
theorem prepare_ok {payload : Json.Fields} {now : Datetime} {record : AuthoritativeRunRecord}
    (h : prepare x skills payload agent now = .ok record) :
    ∃ request context, x.contracts.validate agentRunRequestSchema payload = .ok request ∧
      request.get? "execution_context" = some (.obj context) ∧
      ∃ refs, checked x skills request context agent = .ok refs ∧
        runRecord x (requestOf request refs) context agent refs now = .ok record := by
  simp only [prepare, Except.bind_eq_ok, executionContext_ok] at h
  obtain ⟨request, hrequest, context, hcontext, refs, hrefs, hrecord⟩ := h
  exact ⟨request, context, Except.mapError_eq_ok.1 hrequest, hcontext, refs, hrefs, hrecord⟩

/-- A prepared record is authorized by the request, the context and the agent. -/
theorem authorized_of_prepare {payload : Json.Fields} {now : Datetime}
    {record : AuthoritativeRunRecord} (h : prepare x skills payload agent now = .ok record) :
    ∃ request context, x.contracts.validate agentRunRequestSchema payload = .ok request ∧
      request.get? "execution_context" = some (.obj context) ∧
      Authorized x skills request context agent record := by
  obtain ⟨request, context, hrequest, hcontext, refs, hchecked, hrecord⟩ := prepare_ok h
  refine ⟨request, context, hrequest, hcontext, ?_⟩
  simp only [checked, Except.bind_eq_ok, requireContext_ok, requireLifecycle_ok] at hchecked
  obtain ⟨-, ⟨htenant, horganization, hworkspace, hagent, hversion⟩, -, hlifecycle, u,
    hpermissions, u', hscopes, u'', htools, hskills⟩ := hchecked
  obtain ⟨htenantId, horganizationId, hworkspaceId, hagentId, hagentVersion, -, htoolIds, hrefs,
    hstored, -⟩ := runRecord_ok hrecord
  constructor
  · exact text_of_str htenant htenantId
  · exact text_of_str horganization horganizationId
  · exact text_of_str hworkspace hworkspaceId
  · exact text_of_str ((requestOf_get? refs (by decide)).trans hagent) hagentId
  · exact text_of_str ((requestOf_get? refs (by decide)).trans hversion) hagentVersion
  · exact hlifecycle
  · exact requireSubset_ok.1 hpermissions
  · exact requireSubset_ok.1 hscopes
  · exact requireSubset_ok.1 htools
  · intro requested assigned hrequested hassigned
    -- the tools of the record are those that are asked for
    have hsubset := (within_iff hrequested hassigned).1 (requireSubset_ok.1 htools)
    have hkept : Refs (requestOf request refs) "requested_tool_ids" requested := by
      unfold Refs
      rwa [requestOf_get? refs (by decide)]
    rw [authorizedTools_of_refs hkept hassigned hsubset] at htoolIds
    exact (Except.ok.inj htoolIds).symm
  · rw [hrefs]
    intro ref href
    exact skillWithin hskills href
  · rw [hstored, hrefs, requestOf, get?_setItem, if_pos rfl]

end Record

/-! ## What `begin` stores -/

/-- The append of an event, as a call alone. -/
theorem recordEvent_alone {σ : Type} (record : AuthoritativeRunRecord) (eventType : String)
    (env : Env Question Answer) (s : σ) :
    ∃ appended, (recordEvent record eventType : Op σ Unit).alone env s = ⟨s,
      (match appended with | .returned => .ok () | .raised => .error .audit),
      [⟨.append (auditEvent record eventType), appended⟩]⟩ := by
  refine ⟨env 0 (.append (auditEvent record eventType)), ?_⟩
  change (Proc.await (Question.append (auditEvent record eventType)) _).alone env s = _
  rw [Proc.alone]
  cases env 0 (.append (auditEvent record eventType)) <;> rfl

/-- How a call of `begin` ends. -/
structure Begins (x : AgentRunAuthority) (skills : Option (Table RegistryEntry.key))
    (payload : Json.Fields) (agent : RegistryEntry) (b : Backend) (s : b.State)
    (f : Proc.Finished b.State Question Answer RunError AuthoritativeRunRecord) : Prop where
  /-- The record is bounded by the request, the agent and the skills. -/
  authorized : ∀ record, f.result = .ok record →
    ∃ request context, x.contracts.validate agentRunRequestSchema payload = .ok request ∧
      request.get? "execution_context" = some (.obj context) ∧
      Authorized x skills request context agent record
  stored : ∀ record, f.result = .ok record → b.Holds x.repr record f.state
  /-- It raises before its append, and has stored nothing, or its append raises. -/
  raised : ∀ e, f.result = .error e →
    (f.state = s ∧ ∀ y ∈ f.log, ¬ y.1.IsAppend) ∨
      ∃ event log, f.log = log ++ [⟨.append event, .raised⟩] ∧ ∀ y ∈ log, ¬ y.1.IsAppend

/-- A call that raises before it has stored anything leaves the store as it was. -/
theorem Begins.of_error {x : AgentRunAuthority} {skills : Option (Table RegistryEntry.key)}
    {payload : Json.Fields} {agent : RegistryEntry} {b : Backend} {s : b.State} {e : RunError}
    {log : List (Exchange Question Answer)} (hquiet : ∀ y ∈ log, ¬ y.1.IsAppend) :
    Begins x skills payload agent b s ⟨s, .error e, log⟩ where
  authorized := by
    intro record h
    cases h
  stored := by
    intro record h
    cases h
  raised := by
    intro e' _
    exact .inl ⟨rfl, hquiet⟩

/-- Whatever the sink and the store answer, `begin` ends in one of the ways of `Begins`. -/
theorem begin_safe (x : AgentRunAuthority) (skills : Option (Table RegistryEntry.key))
    (payload : Json.Fields) (agent : RegistryEntry) (now : Datetime) (b : Backend)
    (env : Env Question Answer) (s : b.State) :
    Begins x skills payload agent b s
      ((beginRun x (b.store x.repr) skills payload agent now).alone env s) := by
  unfold beginRun
  simp only [Proc.bind_def]
  cases hprepare : prepare x skills payload agent now with
  | error e => exact .of_error (by simp)
  | ok record =>
      have hcreates := create_creates x.repr record b env s
      change Begins x skills payload agent b s ((((b.store x.repr).create record).bind _).alone env s)
      rw [Proc.alone_bind, Proc.Finished.followed]
      generalize ((b.store x.repr).create record).alone env s = created at hcreates
      rcases created with ⟨s', result, log⟩
      cases result with
      | error e =>
          have hstate : s' = s := hcreates.refused e rfl
          subst hstate
          exact .of_error hcreates.quiet
      | ok u =>
          -- the record is stored, and the append comes last
          have hstored := hcreates.stored u rfl
          simp only [Proc.alone_bind]
          obtain ⟨appended, happended⟩ := recordEvent_alone record "run.started"
            (fun m => env (m + log.length)) s'
          rw [happended]
          cases appended with
          | returned =>
              constructor
              · intro record' h
                cases h
                exact authorized_of_prepare hprepare
              · intro record' h
                cases h
                exact hstored
              · intro e h
                cases h
          | raised =>
              constructor
              · intro record' h
                cases h
              · intro record' h
                cases h
              · intro e h
                exact .inr ⟨_, log, rfl, hcreates.quiet⟩

/-! ## Capability and tools -/

theorem begin_prepared {σ : Type} {x : AgentRunAuthority} {store : AgentRunStore σ}
    {skills : Option (Table RegistryEntry.key)} {payload : Json.Fields} {agent : RegistryEntry}
    {now : Datetime} {env : Env Question Answer} {s : σ} {record : AuthoritativeRunRecord}
    (h : ((beginRun x store skills payload agent now).alone env s).result = .ok record) :
    prepare x skills payload agent now = .ok record := by
  unfold beginRun at h
  cases hprepare : prepare x skills payload agent now with
  | error e =>
      rw [hprepare] at h
      cases h
  | ok prepared =>
      rw [hprepare] at h
      obtain ⟨u, -, h⟩ := Proc.alone_bind_ok (p := store.create prepared) h
      obtain ⟨u', -, h⟩ := Proc.alone_bind_ok (p := recordEvent prepared "run.started") h
      cases h
      rfl

/-- The value is one of the items of a field. -/
def Listed (x : AgentRunAuthority) (fields : Json.Fields) (key : String) (value : Json) : Prop :=
  ∃ values, items fields key = .ok values ∧ ∃ y ∈ values, Equal x.whole value y

/-- The run stays inside the definition of the agent with its capability, and
inside the context with its tools, which are what `authorization` hands out. -/
structure Inside (x : AgentRunAuthority) (context : Json.Fields) (agent : RegistryEntry)
    (record : AuthoritativeRunRecord) : Prop where
  capability : Listed x agent.payload "capability_ids" (.str record.capabilityId)
  tools : ∀ allowed, context.get? "allowed_tool_ids" = some allowed →
    ∀ tool ∈ record.authorizedToolIds, contains x.whole allowed tool = .ok true

/-- `tool in agent.payload.get("tool_ids", [])`. -/
def HasTool (x : AgentRunAuthority) (agent : RegistryEntry) (tool : Json) : Prop :=
  contains x.whole ((agent.payload.get? "tool_ids").getD (.arr [])) tool = .ok true

/-- The request is for a capability of the agent and, of the agent's tools, for
those that the context allows. -/
structure Covered (x : AgentRunAuthority) (request context : Json.Fields) (agent : RegistryEntry) :
    Prop where
  capability : ∃ capability, request.get? "capability_id" = some capability ∧
    Listed x agent.payload "capability_ids" (.str (str x.repr capability))
  tools : ∀ allowed, context.get? "allowed_tool_ids" = some allowed →
    ∀ requested, items request "requested_tool_ids" = .ok requested →
      ∀ tool ∈ requested, HasTool x agent tool → contains x.whole allowed tool = .ok true

/-- The tools of a record are those requested, in the order of their texts. -/
theorem authorizedTools_ok {x : AgentRunAuthority} {request : Json.Fields} {agent : RegistryEntry}
    {tools : List Json} (h : authorizedTools x request agent = .ok tools) :
    ∃ requested, items request "requested_tool_ids" = .ok requested ∧
      ∀ tool, tool ∈ tools ↔ tool ∈ requested ∧ HasTool x agent tool := by
  simp only [authorizedTools, Except.bind_eq_ok] at h
  obtain ⟨requested, hrequested, hselected⟩ := h
  refine ⟨requested, Except.mapError_eq_ok.1 hrequested, ?_⟩
  intro tool
  rw [Except.mem_filterM hselected, Except.mapError_eq_ok]
  rfl

/-- Capability and tools are taken from the request alone. -/
theorem inside_iff {σ : Type} {x : AgentRunAuthority} {store : AgentRunStore σ}
    {skills : Option (Table RegistryEntry.key)} {payload : Json.Fields} {agent : RegistryEntry}
    {now : Datetime} {env : Env Question Answer} {s : σ} {record : AuthoritativeRunRecord}
    (h : ((beginRun x store skills payload agent now).alone env s).result = .ok record)
    {request context : Json.Fields}
    (hrequest : x.contracts.validate agentRunRequestSchema payload = .ok request)
    (hcontext : request.get? "execution_context" = some (.obj context)) :
    Inside x context agent record ↔ Covered x request context agent := by
  obtain ⟨request', context', hrequest', hcontext', refs, -, hrecord⟩ :=
    prepare_ok (begin_prepared h)
  rw [hrequest] at hrequest'
  cases hrequest'
  rw [hcontext] at hcontext'
  cases hcontext'
  obtain ⟨-, -, -, -, -, hcapability, htools, -⟩ := runRecord_ok hrecord
  obtain ⟨capability, hget, hstr⟩ := text_ok.1 hcapability
  rw [requestOf_get? refs (by decide)] at hget
  obtain ⟨requested, hrequested, hmem⟩ := authorizedTools_ok htools
  -- the refs that are authorized do not touch the tools asked for
  have hitems : items request "requested_tool_ids" = .ok requested := by
    unfold items at hrequested ⊢
    rwa [requestOf_get? refs (by decide)] at hrequested
  constructor
  · intro hinside
    constructor
    · exact ⟨capability, hget, by rw [hstr]; exact hinside.capability⟩
    · intro allowed hallowed requested' hrequested' tool htool hhas
      rw [hitems] at hrequested'
      cases hrequested'
      exact hinside.tools allowed hallowed tool ((hmem tool).2 ⟨htool, hhas⟩)
  · intro hcovered
    constructor
    · obtain ⟨capability', hget', hlisted⟩ := hcovered.capability
      rw [hget] at hget'
      cases hget'
      rwa [hstr] at hlisted
    · intro allowed hallowed tool htool
      obtain ⟨hrequested', hhas⟩ := (hmem tool).1 htool
      exact hcovered.tools allowed hallowed requested hitems tool hrequested' hhas

/-! ## A run outside of its documents -/

def names (values : List String) : Json := .arr (values.map .str)

/-- An agent that may make reports. -/
def reportAgent : RegistryEntry where
  subjectType := "agent"
  subjectId := "agent.report"
  version := "1.0.0"
  tenantId := "tenant"
  organizationId := "organization"
  workspaceId := "workspace"
  payload := [("capability_ids", names ["capability.report"]),
    ("tool_ids", names ["tool.read", "tool.write"])]
  digest := "digest"
  state := .active
  createdBy := "actor_maker"
  correlationId := "corr"
  createdAt := 0

/-- The context of a member who may let it run. -/
def reportContext : Json.Fields :=
  [("tenant_id", .str "tenant"), ("organization_id", .str "organization"),
    ("workspace_id", .str "workspace"), ("actor_id", .str "actor"),
    ("correlation_id", .str "corr"), ("allowed_tool_ids", names ["tool.read"])]

/-- A request for one capability and one tool. -/
def reportRequest (capabilityId toolId : String) : Json.Fields :=
  [("run_id", .str "run"), ("root_run_id", .str "run"), ("agent_id", .str "agent.report"),
    ("agent_version", .str "1.0.0"), ("capability_id", .str capabilityId),
    ("execution_context", .obj reportContext), ("requested_tool_ids", names [toolId])]

/-- Every payload is valid. -/
def openAuthority : AgentRunAuthority where
  contracts := ⟨fun _ => true, fun _ _ => none⟩
  repr := fun _ => ""
  whole := fun _ => none

/-- A sink and a store that take everything. -/
def answered : Env Question Answer := fun _ q =>
  match q with
  | .append _ => .returned
  | .select _ | .insert _ | .update _ => .returned

/-- The run that is begun from a request for one capability and one tool. -/
def begunReport (capabilityId toolId : String) :
    Proc.Finished Runs Question Answer RunError AuthoritativeRunRecord :=
  (beginRun openAuthority inMemoryAgentRunStore none (reportRequest capabilityId toolId) reportAgent
    0).alone answered Table.empty

/-- The record that a run of `reportAgent` is stored as. -/
def reportRun (capabilityId toolId : String) : AuthoritativeRunRecord where
  runId := "run"
  rootRunId := "run"
  tenantId := "tenant"
  organizationId := "organization"
  workspaceId := "workspace"
  actorId := "actor"
  correlationId := "corr"
  agentId := "agent.report"
  agentVersion := "1.0.0"
  capabilityId := capabilityId
  status := .running
  registryDigest := "digest"
  lifecycleAuthorization := "ACTIVE"
  authorizedToolIds := [.str toolId]
  authorizedSkillRefs := []
  request := requestOf (reportRequest capabilityId toolId) []
  createdAt := 0

/-- A valid request for a capability that is not the agent's, and for a tool that
the context does not allow. -/
theorem payroll_outside :
    (begunReport "capability.payroll" "tool.write").result =
        .ok (reportRun "capability.payroll" "tool.write") ∧
      openAuthority.contracts.validate agentRunRequestSchema
          (reportRequest "capability.payroll" "tool.write") =
        .ok (reportRequest "capability.payroll" "tool.write") ∧
      ¬ Listed openAuthority reportAgent.payload "capability_ids" (.str "capability.payroll") ∧
      contains openAuthority.whole (names ["tool.read"]) (.str "tool.write") = .ok false ∧
      ¬ Inside openAuthority reportContext reportAgent
        (reportRun "capability.payroll" "tool.write") := by
  -- neither the capability nor the tool is one of the agent's
  have hcapability :
      ¬ Listed openAuthority reportAgent.payload "capability_ids" (.str "capability.payroll") := by
    rintro ⟨values, hvalues, y, hy, hequal⟩
    have hitems : items reportAgent.payload "capability_ids" = .ok [.str "capability.report"] := rfl
    rw [hitems] at hvalues
    cases hvalues
    rw [List.mem_singleton] at hy
    rw [hy, equal_str] at hequal
    simp at hequal
  have htool : contains openAuthority.whole (names ["tool.read"]) (.str "tool.write") =
      .ok false := by
    decide
  refine ⟨rfl, rfl, hcapability, htool, ?_⟩
  -- the run has both
  intro hinside
  exact hcapability hinside.capability

/-- The condition evaluated on a request of a capability and a tool. -/
theorem inside_iff_report :
    Inside openAuthority reportContext reportAgent (reportRun "capability.report" "tool.read") ↔
      Covered openAuthority (reportRequest "capability.report" "tool.read") reportContext
        reportAgent := by
  have h : (begunReport "capability.report" "tool.read").result =
      .ok (reportRun "capability.report" "tool.read") := rfl
  exact inside_iff h rfl rfl

end Alos.Agents
