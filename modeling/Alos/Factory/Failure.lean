import Alos.Factory.Drafts

/-! # A creation that fails halfway

A call that raises should leave both registries as they were. A creation makes
two registrations and a response, one after the other, and takes nothing back.

* `Settles` is the condition on what follows a version that has been added;
* `failsClosed_iff`: it is exactly when a call fails closed;
* `half_created`: the conflict of an agent leaves its capability behind.
-/

namespace Alos.Factory

open Coop Py Registry Except

section Failure

variable {ι κ : Type} [DecidableEq ι] [DecidableEq κ] (F : FactoryOrchestrator ι κ)
  (principal : Principal) (correlationId : String) (now : ι → Datetime)

/-- A call that raises leaves the two registries as they were. Of the rows nothing is said,
because a call that adds nothing to the dicts has saved nothing (`failsClosed_rows`). -/
def FailsClosed (payload : Json.Fields) (env : Env (Question ι) Answer) (s : Memory ι κ) : Prop :=
  let ended := (analyze F payload principal correlationId now).alone env s
  (∃ e, ended.result = .error e) →
    ended.state.entries F.capabilities = s.entries F.capabilities ∧
      ended.state.entries F.agents = s.entries F.agents

/-- Once a version has been added, nothing fails: it is recorded, every later
definition is accepted and recorded, and so is the response. `added` says
whether one has been added so far. -/
def Settles (proposal : Proposal) : Bool → List (ι × Json.Fields) → List RegistryEntry →
    Env (Question ι) Answer → (ι → Table RegistryEntry.key) → Prop
  | added, [], registered, _, _ =>
      added = true → ∃ response, createResponse F proposal registered correlationId = .ok response
  | added, (i, definition) :: rest, registered, env, entries =>
      let r := registering F principal correlationId now i definition (entries i) env
      match r with
      | .refused _ => added = false
      | .found existing =>
          Settles proposal added rest (registered ++ [existing])
            (after env (r.questions F.toRegistries i)) (r.store i entries)
      | .added entry .returned =>
          Settles proposal true rest (registered ++ [entry])
            (after env (r.questions F.toRegistries i)) (r.store i entries)
      | .added _ .raised => False

/-- Whatever creation the call comes to, nothing that follows a new version
fails. -/
def Completes (payload : Json.Fields) (env : Env (Question ι) Answer) (s : Memory ι κ) : Prop :=
  ∀ proposal definition,
    proposing F principal correlationId payload (s.entries F.capabilities) env =
      .ok (.create proposal) →
    capabilityDefinition proposal.capabilityDraft = .ok definition →
    Settles F principal correlationId now proposal false
      (registrations F definition proposal.agentDraft) [] (after env 1) s.entries

variable {F principal correlationId now}

/-- The dicts differ from those at the start exactly when a version was added. -/
def Grown (base entries : ι → Table RegistryEntry.key) : Bool → Prop
  | false => entries = base
  | true => ∃ i key, (base i).get? key = none ∧ (entries i).get? key ≠ none

omit [DecidableEq ι] in
theorem Grown.eq_iff {base entries : ι → Table RegistryEntry.key} {added : Bool}
    (h : Grown base entries added) : entries = base ↔ added = false := by
  cases added with
  | false => exact ⟨fun _ => rfl, fun _ => h⟩
  | true =>
      obtain ⟨i, key, hbase, hentries⟩ := h
      constructor
      · rintro rfl
        exact absurd hbase hentries
      · intro hfalse
        cases hfalse

/-- A version that is added stays. -/
theorem Grown.put {base entries : ι → Table RegistryEntry.key} {added : Bool}
    (h : Grown base entries added) {i : ι} {entry : RegistryEntry}
    (hfree : (entries i).get? entry.key = none) :
    Grown base (Function.update entries i ((entries i).put entry)) true := by
  cases added with
  | false =>
      cases h
      refine ⟨i, entry.key, hfree, ?_⟩
      simp
  | true =>
      obtain ⟨j, key, hbase, hentries⟩ := h
      refine ⟨j, key, hbase, ?_⟩
      -- the same registry grows again, or another one
      by_cases hj : j = i
      · subst hj
        rw [Function.update_self, Table.get?_put]
        split <;> simp_all
      · rwa [Function.update_of_ne hj]

/-- The rest of a creation leaves the dicts of the start behind when it raises,
exactly if nothing fails after an addition. -/
theorem completing_settles (proposal : Proposal) {rs : List (ι × Json.Fields)} {added : Bool}
    (registered : List RegistryEntry) (env : Env (Question ι) Answer) (s : Memory ι κ)
    {base : ι → Table RegistryEntry.key} (hgrown : Grown base s.entries added) :
    let ended := (completing F principal correlationId now proposal rs registered).alone env s
    ((∃ e, ended.result = .error e) → ended.state.entries = base) ↔
      Settles F principal correlationId now proposal added rs registered env s.entries := by
  induction rs generalizing added registered env s with
  | nil =>
      simp only [completing, Settles]
      cases hresponse : createResponse F proposal registered correlationId with
      | ok response => simp [Proc.ofExcept, Proc.alone]
      | error e => simp [Proc.ofExcept, Proc.alone, hgrown.eq_iff]
  | cons r rest ih =>
      obtain ⟨i, definition⟩ := r
      simp only [Settles]
      cases hr : registering F principal correlationId now i definition (s.entries i) env with
      -- the registration that is refused ends the request, after those before it
      | refused e =>
          have hended := @completing_alone_error _ _ _ _ F principal correlationId now i definition
            env s e (by rw [hr]; rfl) proposal rest registered
          simp only [hr, Registration.store] at hended
          simp only [hended.1, hended.2.2, hgrown.eq_iff]
          simp
      -- a version that is there already adds nothing
      | found existing =>
          obtain ⟨s', hs', -, hstate, hresult⟩ := @completing_alone_ok _ _ _ _ F principal
            correlationId now i definition env s existing (by rw [hr]; rfl) proposal rest registered
          simp only [hr] at hs' hstate hresult
          simp only [hstate, hresult]
          rw [← hs']
          exact ih _ _ s' (by rw [hs']; exact hgrown)
      | added entry recorded =>
          have hput := hgrown.put ((registering_added hr).2)
          cases recorded with
          | returned =>
              obtain ⟨s', hs', -, hstate, hresult⟩ := @completing_alone_ok _ _ _ _ F principal
                correlationId now i definition env s entry (by rw [hr]; rfl) proposal rest registered
              simp only [hr] at hs' hstate hresult
              simp only [hstate, hresult]
              rw [← hs']
              exact ih _ _ s' (by rw [hs']; exact hput)
          | raised =>
              have hended := @completing_alone_error _ _ _ _ F principal correlationId now i
                definition env s .audit (by rw [hr]; rfl) proposal rest registered
              simp only [hr, Registration.store] at hended
              simp only [hended.1, hended.2.2, hput.eq_iff]
              simp

/-- **Failing closed.** Exactly when nothing fails after a version was added, a
call that raises leaves the registries as they were. -/
theorem failsClosed_iff (payload : Json.Fields) (env : Env (Question ι) Answer) (s : Memory ι κ) :
    FailsClosed F principal correlationId now payload env s ↔
      Completes F principal correlationId now payload env s := by
  have halone := @analyze_alone _ _ _ _ F principal correlationId now payload env s
  have hothers := fun i => @analyze_others _ _ _ _ F principal payload correlationId now env s i
  unfold FailsClosed Completes
  generalize (analyze F payload principal correlationId now).alone env s = ended at halone hothers ⊢
  -- only the two registries of the factory can change
  have hall : ended.state.entries F.capabilities = s.entries F.capabilities ∧
      ended.state.entries F.agents = s.entries F.agents ↔ ended.state.entries = s.entries := by
    constructor
    · intro h
      funext i
      by_cases hcapabilities : i = F.capabilities
      · rw [hcapabilities, h.1]
      · by_cases hagents : i = F.agents
        · rw [hagents, h.2]
        · exact hothers i hcapabilities hagents
    · intro h
      simp [h]
  simp only [hall]
  -- a request that proposes nothing fails closed
  cases hproposing : proposing F principal correlationId payload (s.entries F.capabilities) env with
  | error e =>
      simp only [hproposing] at halone
      simp [halone.1]
  | ok resolved =>
      cases resolved with
      | reuse response =>
          simp only [hproposing] at halone
          simp [halone.1]
      | create proposal =>
          simp only [hproposing] at halone
          obtain ⟨internalRequest, result, -, -, hchecked⟩ := proposing_create hproposing
          rw [create_eq hchecked] at halone
          cases hdefinition : capabilityDefinition proposal.capabilityDraft with
          | error e =>
              simp only [hdefinition, Proc.ofExcept, Proc.raise_bind, Proc.alone] at halone
              constructor
              · intro _ proposal' definition' hproposal hdefinition'
                cases hproposal
                rw [hdefinition] at hdefinition'
                cases hdefinition'
              · intro _ _
                rw [halone.1]
          | ok definition =>
              simp only [hdefinition, Proc.ofExcept, Proc.ret_bind] at halone
              have hsettles := @completing_settles _ _ _ _ F principal correlationId now proposal
                (registrations F definition proposal.agentDraft) false [] (after env 1) s s.entries rfl
              rw [halone.1, halone.2]
              simp only [hsettles]
              constructor
              · intro h proposal' definition' hproposal hdefinition'
                cases hproposal
                rw [hdefinition] at hdefinition'
                cases hdefinition'
                exact h
              · intro h
                exact h proposal definition rfl hdefinition

/-- A call that raises and fails closed leaves the rows as they were, too. -/
theorem failsClosed_rows {payload : Json.Fields} {env : Env (Question ι) Answer} {s : Memory ι κ}
    (h : FailsClosed F principal correlationId now payload env s)
    (hraised : ∃ e, ((analyze F payload principal correlationId now).alone env s).result =
      .error e) :
    ((analyze F payload principal correlationId now).alone env s).state.rows = s.rows := by
  obtain ⟨hcapabilities, hagents⟩ := h hraised
  obtain ⟨hentries, hrows⟩ := @analyze_leaves _ _ _ _ F principal payload correlationId now env s
  have hnone : added F principal payload correlationId now env s.entries = [] := by
    rw [List.eq_nil_iff_forall_not_mem]
    intro y hy
    have haddition := addition_of_mem hy
    have hkept : ((analyze F payload principal correlationId now).alone env s).state.entries y.1 =
        s.entries y.1 := by
      rcases haddition.registry with heq | heq
      · rw [heq, hcapabilities]
      · rw [heq, hagents]
    -- the version would be in the dict
    have hget := haddition.free
    rw [← hkept, hentries, addEntries_of_mem added_nodup hy, Table.get?_put_self] at hget
    cases hget
  rw [hrows, hnone]
  rfl

end Failure

/-! ## Half of a creation -/

/-- The version of the agent is registered, with another content. -/
def occupied : Memory Subject Subject :=
  Memory.empty.putEntry .agent {
    subjectType := "agent"
    subjectId := "agent.report"
    version := "1.0.0"
    tenantId := "tenant_factory"
    organizationId := "org_factory"
    workspaceId := "workspace_factory"
    payload := [("agent_id", .str "agent.report"), ("agent_version", .str "1.0.0")]
    digest := "e4952ead576851fa8a064e1adb6494830bea00e47969faba398f3567c2b43d00"
    state := .draft
    createdBy := "actor_other"
    correlationId := "corr_other"
    createdAt := 0 }

/-- The call that the conflict of the agent ends. -/
def conflicting : Proc.Finished (Memory Subject Subject) (Question Subject) Answer FactoryError
    Json.Fields :=
  (analyze factory [("requirement", .str "Create a report.")] requester "corr_factory"
    fun _ => 0).alone proposer occupied

/-- The agent is refused, its capability stays. -/
theorem half_created : ¬ FailsClosed factory requester "corr_factory" (fun _ => 0)
    [("requirement", .str "Create a report.")] proposer occupied := by
  intro h
  have hraised : conflicting.result.toOption.isNone = true := by
    decide +kernel
  have hadded : (conflicting.state.entries factory.capabilities).values.length = 1 := by
    decide +kernel
  have hfailed : ∃ e, conflicting.result = .error e := by
    generalize conflicting.result = result at hraised
    cases result with
    | error e => exact ⟨e, rfl⟩
    | ok response => cases hraised
  have hsame : conflicting.state.entries factory.capabilities =
      occupied.entries factory.capabilities := (h hfailed).1
  rw [hsame] at hadded
  cases hadded

end Alos.Factory
