import Alos.Skills.Stages
import Alos.Skills.Trail

/-! # What an assignment leaves

An assignment that nobody interferes with, in registries that any requests have
come to.

* `Assigns` is what an assignment that returns has checked, what it has
  registered, and what it has left alone;
* `assigns_of_returned`: so it is when an assignment returns, wherever the version that
  it answers with came from;
* `assign_raises`: an assignment that raises has changed nothing.
-/

namespace Alos.Skills

open Coop Py Registry Agents

section Frame

variable {κ : Type} [DecidableEq κ]

/-- The assignment answers with the version, over the agent and the skill: what it has found
in `s`, and what it leaves in `s'`. -/
structure Assigns (x : SkillAssignmentService κ) (a : Assignment) (version : String)
    (agent skill : RegistryEntry) (values : List Json) (s s' : Memory Subject κ) : Prop extends
    Eligible x a (s.entries .agent) (s.entries .skill) agent skill values where
  requiredTools : ∀ ref ∈ refs skill.payload "required_tool_ids",
    ref ∈ refs agent.payload "tool_ids"
  /-- The version is registered, with the payload up to the order of keys. -/
  draft : ∃ draft, (s'.entries .agent).get? (draftKey a version) = some draft ∧
    (assigned a agent values version).Same draft.payload
  /-- No version that was registered has changed. -/
  kept : ∀ i key entry, (s.entries i).get? key = some entry → (s'.entries i).get? key = some entry
  /-- No other version is new. -/
  others : ∀ i key, ¬ (i = .agent ∧ key = draftKey a version) →
    (s'.entries i).get? key = (s.entries i).get? key
  rows : ∀ k key, ¬ (k = (x.registries.registry .agent).store ∧
    key = ⟨"agent", draftKey a version⟩) → (s'.rows k).get? key = (s.rows k).get? key

variable {contracts : CanonicalContractCatalog} {sha256 : String → String} {repr : Json → String}
  {store : Subject → κ} {kind : κ → StoreKind} {x : SkillAssignmentService κ} {a : Assignment}
  {now : Datetime} {env : Env (Registry.Question Subject) Registry.Answer} {s : Memory Subject κ}
  {agent : RegistryEntry} {values : List Json} {version : String}

/-- What a registration leaves alone. -/
theorem registered_frame (hx : x.registries = application contracts sha256 repr store kind)
    (hagent : Formed x.registries .agent agent) (hsubject : agent.subjectId = a.agentId)
    {draft : RegistryEntry}
    (hdraft : (registered x a (assigned a agent values version) now env s).result = .ok draft) :
    let s' := (registered x a (assigned a agent values version) now env s).state
    (∀ i key entry, (s.entries i).get? key = some entry → (s'.entries i).get? key = some entry) ∧
      (∀ i key, ¬ (i = .agent ∧ key = draftKey a version) →
        (s'.entries i).get? key = (s.entries i).get? key) ∧
      ∀ k key, ¬ (k = (x.registries.registry .agent).store ∧
        key = ⟨"agent", draftKey a version⟩) → (s'.rows k).get? key = (s.rows k).get? key := by
  rcases registered_ok hdraft with ⟨entry, hprepare, -⟩
  rcases prepared_draft hx hagent hsubject hprepare with ⟨hkey, -, -, -, htype⟩
  obtain ⟨hentries, -, -⟩ := register_alone (x := x.registries) (i := Subject.agent)
    (assigned a agent values version) a.principal.tenantId a.principal.organizationId
    a.principal.workspaceId a.principal.actorId a.correlationId now env s
  -- the registration alone changes one key of one cache
  rcases registration_frame hprepare s.entries env with ⟨hkept, hothers⟩
  rw [hkey] at hothers
  refine ⟨?_, ?_, ?_⟩
  · rw [registered, hentries]
    exact hkept
  · rw [registered, hentries]
    exact hothers
  · intro k key hne
    apply register_rows hprepare env s
    rwa [RegistryEntry.storeKey, hkey, htype]

theorem assigns_of_returned (hx : x.registries = application contracts sha256 repr store kind)
    (hdistinct : DraftDistinct x a s) (hgenuine : AllGenuine x.registries s)
    (htyped : ∀ i, ∀ entry ∈ (s.entries i).values, Typed entry)
    {response : SkillAssignmentResponse}
    (h : ((assign x a now).alone env s).result = .ok response) :
    ∃ agent skill values, Assigns x a response.draftAgentVersion agent skill values s
      ((assign x a now).alone env s).state := by
  rcases assign_ok h with ⟨payload, draft, hpayload, hdraft, hresponse, hstate⟩
  unfold draftPayload at hpayload
  simp only [Except.bind_eq_ok, Except.pure_eq_ok] at hpayload
  rcases hpayload with ⟨⟨agent, values⟩, hfound, version, hversion, rfl⟩
  rcases eligible_ok (htyped .agent) (htyped .skill) hfound with ⟨skill, heligible⟩
  have hagent := hgenuine.dict .agent agent (Table.mem_of_get? heligible.agent_mem)
  have hsubject : agent.subjectId = a.agentId :=
    congrArg RegistryKey.subjectId (Table.key_of_get? heligible.agent_mem)
  have hformed : AllFormed x.registries s := fun i entry hentry =>
    (hgenuine.dict i entry hentry).toFormed
  rcases registered_draft hx hdistinct hformed hfound hversion hdraft with
    ⟨hdraftVersion, hget, horigin⟩
  -- the version is new, or was registered with the same digest
  have hsame : (assigned a agent values version).Same draft.payload := by
    rcases horigin with ⟨-, hsame⟩ | ⟨-, hpayload⟩
    · exact hsame
    · rw [hpayload]
      rfl
  rcases registered_frame hx hagent.toFormed hsubject hdraft with ⟨hkept, hothers, hrows⟩
  have hskill : skill.subjectType = "skill" := by
    rw [(hgenuine.dict .skill skill (Table.mem_of_get? heligible.skill_mem)).subjectType, hx]
    rfl
  have htools := heligible.tools
  rw [toolRefs, if_pos hskill] at htools
  rw [hresponse, hdraftVersion, hstate]
  exact ⟨agent, skill, values, heligible, htools, ⟨draft, hget, hsame⟩, hkept, hothers, hrows⟩

theorem assign_raises (henv : Audits env) {e : AssignmentError}
    (h : ((assign x a now).alone env s).result = .error e) :
    ((assign x a now).alone env s).state.entries = s.entries ∧
      ((assign x a now).alone env s).state.rows = s.rows := by
  -- a refusal before the registration, or one by it
  cases hpayload : draftPayload x a (s.entries .agent) (s.entries .skill) with
  | error refusal =>
      cases refusal with
      | rejected reason code message =>
          rw [assign_rejected henv hpayload]
          exact ⟨rfl, rfl⟩
      | raised e' =>
          rw [assign_raised hpayload]
          exact ⟨rfl, rfl⟩
  | ok payload =>
      cases hregistered : (registered x a payload now env s).result with
      | error e' =>
          rw [assign_refused hpayload hregistered]
          exact register_error henv hregistered
      | ok draft =>
          rw [assign_drafted henv hpayload hregistered] at h
          cases h

/-- An assignment after any run: when it returns, it has assigned the skill and nothing
else; when it raises, nothing has changed. -/
theorem assignment_frame (hx : x.registries = application contracts sha256 repr store kind)
    (xs : List RequestStep)
    (htyped : ∀ i, ∀ entry ∈ ((requested x xs).shared.entries i).values, Typed entry)
    (a : Assignment) (hdistinct : DraftDistinct x a (requested x xs).shared) (now : Datetime)
    (henv : Audits env) :
    let s := (requested x xs).shared
    let ended := (assign x a now).alone env s
    (∀ response, ended.result = .ok response → ∃ agent skill values,
      Assigns x a response.draftAgentVersion agent skill values s ended.state) ∧
    ∀ e, ended.result = .error e →
      ended.state.entries = s.entries ∧ ended.state.rows = s.rows := by
  intro s ended
  have hsep : Separate x.registries := by
    rw [hx]
    exact separate_application
  -- every entry of the run comes from a payload that was registered
  have hgenuine := requested_genuine hsep xs
  exact ⟨fun response h => assigns_of_returned hx hdistinct hgenuine htyped h,
    fun e h => assign_raises henv h⟩

end Frame

/-! ## A skill is assigned -/

/-- A call of a registry whose store is in memory, from its start to its end. -/
def undisturbedCall (j : ℕ) (c : Call Subject) : List RequestStep :=
  [.call j (.call c), .resume j (returned 0), .resume j (returned 0), .resume j (returned 0)]

/-- The agent and the skill are published. -/
def summarySteps : List RequestStep :=
  beforeSummary.zipIdx.flatMap fun y => undisturbedCall y.2 y.1.1

/-- The skill is assigned, with `n` answers. -/
def assigning (j n : ℕ) : List RequestStep :=
  .call j (.assign summaryAssignment 0) :: List.replicate n (.resume j (returned 0))

/-- The assignment has been made before. -/
def draftedSteps : List RequestStep := summarySteps ++ assigning 6 4

theorem draftedSteps_payloads (i : Subject) :
    (((requested summaryService draftedSteps).shared.entries i).values.map RegistryEntry.payload) =
      match i with
      | .agent => [summaryAgent, summaryDraft]
      | .skill => [summarySkill] := by
  cases i <;> rfl

/-- The version that is there under the key of the draft has its payload. -/
theorem drafted_distinct : DraftDistinct summaryService summaryAssignment
    (requested summaryService draftedSteps).shared := by
  intro payload version existing hpayload hversion hexisting _
  cases hpayload
  cases hversion
  cases hexisting
  rfl

/-- The draft is assigned again, and found. -/
theorem assignment_frame_summary : ∃ agent skill values,
    Assigns summaryService summaryAssignment "1.1.0" agent skill values
      (requested summaryService draftedSteps).shared
      ((assign summaryService summaryAssignment 0).alone returned
        (requested summaryService draftedSteps).shared).state := by
  have hregistries : summaryService.registries = application ⟨fun _ => true, fun _ _ => none⟩
      summaryDigest (fun _ => "") (fun _ => ()) fun _ => .inMemory := rfl
  -- the two definitions are the only entries
  have htyped : ∀ i, ∀ entry ∈ ((requested summaryService draftedSteps).shared.entries i).values,
      Typed entry := by
    intro i entry hentry
    have hmem := List.mem_map_of_mem (f := RegistryEntry.payload) hentry
    rw [draftedSteps_payloads] at hmem
    cases i with
    | agent =>
        simp only [List.mem_cons, List.not_mem_nil, or_false] at hmem
        exact summary_refs (hmem.imp_right .inr)
    | skill => exact summary_refs (.inr (.inl (List.mem_singleton.1 hmem)))
  have hreturned : ((assign summaryService summaryAssignment 0).alone returned
      (requested summaryService draftedSteps).shared).result = .ok
        ⟨"agent.summary", "1.0.0", "1.1.0", skillRefOf summaryAssignment, "corr"⟩ := by
    decide +kernel
  exact (assignment_frame hregistries draftedSteps htyped summaryAssignment drafted_distinct 0
    fun _ _ => rfl).1 _ hreturned

end Alos.Skills
