import Alos.Coop.Guards
import Alos.Factory.Service

/-! # What the Factory checks

Every document of a proposal that gets to a registry has passed its checks.

* `Within`: the references of a document are held by the principal;
* `Entitled` is what is known of a definition that is registered;
* `resolve_create` and `capabilityDefinition_entitled` lead to it.
-/

namespace Alos.Factory

open Coop Py Registry Except

variable {ι κ : Type} {F : FactoryOrchestrator ι κ} {principal : Principal} {correlationId : String}
  {draft definition : Json.Fields}

/-- The references under the name, a list of texts, are among those held. -/
def Within (document : Json.Fields) (name : String) (held : Finset String) : Prop :=
  ∀ refs, document.get? name = some (texts refs) → ∀ ref ∈ refs, ref ∈ held

/-- What the principal may have registered: its references are the principal's
own, and so is the document. -/
structure Entitled (principal : Principal) (owner : String) (definition : Json.Fields) : Prop where
  owner : definition.get? owner = some (.str principal.actorId)
  permissions : Within definition "permission_refs" principal.permissions
  scopes : Within definition "scope_refs" principal.scopes

/-- A human has to decide on the capability. -/
def HumanGated (definition : Json.Fields) : Prop :=
  ∃ metadata : Json.Fields, definition.get? "metadata" = some (.obj metadata) ∧
    metadata.get? "human_gate_required" = some (.bool true)

/-! ## References -/

theorem lacking_eq_nil {refs : List String} {held : Finset String} (h : lacking refs held = []) :
    ∀ ref ∈ refs, ref ∈ held := by
  intro ref href
  by_contra hnot
  have hmem : ref ∈ lacking refs held := by
    simp [lacking, href, hnot]
  rw [h] at hmem
  cases hmem

/-- A reference that the draft lists is among those found. -/
theorem mem_references {name : String} {refs found : List String}
    (hrefs : draft.get? name = some (texts refs)) (h : references F draft name = .ok found) :
    ∀ ref ∈ refs, ref ∈ found := by
  intro ref href
  simp only [references, hrefs, Option.getD_some, texts, iter, Except.ok.injEq] at h
  subst h
  simp only [List.mem_dedup, List.mem_map]
  exact ⟨.str ref, ⟨ref, href, rfl⟩, rfl⟩

/-- A draft that is authorized asks for no permission and no scope beyond those of its principal. -/
theorem authorizeDraft_ok (h : authorizeDraft F draft principal correlationId = .ok ()) :
    Within draft "permission_refs" principal.permissions ∧
      Within draft "scope_refs" principal.scopes := by
  unfold authorizeDraft at h
  simp only [bind_eq_ok] at h
  obtain ⟨permissions, hpermissions, scopes, hscopes, h⟩ := h
  by_cases hlacking : lacking permissions principal.permissions ≠ [] ∨
      lacking scopes principal.scopes ≠ []
  · rw [if_pos hlacking] at h
    exact absurd h throw_ne_ok
  · simp only [not_or, not_not] at hlacking
    constructor
    · intro refs hrefs ref href
      exact lacking_eq_nil hlacking.1 ref (mem_references hrefs hpermissions ref href)
    · intro refs hrefs ref href
      exact lacking_eq_nil hlacking.2 ref (mem_references hrefs hscopes ref href)

/-- A draft that carries a value has it under the name. -/
theorem Carries.get? {name value : String} (h : Carries draft name value) :
    draft.get? name = some (.str value) := by
  obtain ⟨supplied, hsupplied, heq⟩ := h
  rw [heq.eq] at hsupplied
  exact hsupplied

/-! ## The documents of a proposal -/

theorem checkCapabilityDraft_ok (h : checkCapabilityDraft F draft principal correlationId = .ok ()) :
    Entitled principal "owner" draft := by
  unfold checkCapabilityDraft at h
  simp only [bind_eq_ok] at h
  obtain ⟨_, -, _, -, _, hauthorized, h⟩ := h
  by_cases howner : Carries draft "owner" principal.actorId
  · exact ⟨howner.get?, (authorizeDraft_ok hauthorized).1, (authorizeDraft_ok hauthorized).2⟩
  · rw [if_pos howner] at h
    exact absurd h throw_ne_ok

/-- The agent definition of a checked draft belongs to the principal. -/
theorem checkAgentDraft_ok (h : checkAgentDraft F draft principal correlationId = .ok ()) :
    ∃ definition, agentDefinition? draft = some definition ∧
      Entitled principal "owner_actor_id" definition := by
  unfold checkAgentDraft at h
  simp only [bind_eq_ok] at h
  obtain ⟨_, -, _, -, h⟩ := h
  cases hdefinition : (agentDefinition? draft).filter
      (Carries · "owner_actor_id" principal.actorId) with
  | none =>
      simp only [hdefinition] at h
      exact absurd h throw_ne_ok
  | some definition =>
      simp only [hdefinition] at h
      obtain ⟨hsome, howner⟩ := Option.filter_eq_some_iff.1 hdefinition
      exact ⟨definition, hsome, (of_decide_eq_true howner).get?, (authorizeDraft_ok h).1,
        (authorizeDraft_ok h).2⟩

/-- A required field is there. -/
theorem required_eq_ok {fields : Json.Fields} {key : String} {value : Json} :
    required fields key = .ok value ↔ fields.get? key = some value := by
  unfold required item
  cases h : fields.get? key with
  | none => simp [Except.mapError]
  | some found => simp [Except.mapError]

/-- The definition takes the authority of the draft, and is gated. -/
theorem capabilityDefinition_ok (h : capabilityDefinition draft = .ok definition) :
    definition.get? "owner" = draft.get? "owner" ∧
      definition.get? "permission_refs" = draft.get? "permission_refs" ∧
      definition.get? "scope_refs" = draft.get? "scope_refs" ∧ HumanGated definition := by
  unfold capabilityDefinition at h
  simp only [bind_eq_ok, required_eq_ok] at h
  obtain ⟨_, -, _, -, _, -, _, -, _, -, _, -, _, -, _, -, owner, howner, _, -, _, -, scopes, hscopes,
    permissions, hpermissions, _, -, _, -, _, -, _, -, _, -, h⟩ := h
  cases hiter : iter ((draft.get? "dependency_refs").getD (.arr [])) with
  | none => simp [hiter, throw_ne_ok] at h
  | some dependencies =>
      simp only [hiter, pure_eq_ok] at h
      subst h
      rw [howner, hscopes, hpermissions]
      exact ⟨rfl, rfl, rfl, _, rfl, rfl⟩

/-- The definition of a capability is owned as its draft is, and gated by a human. -/
theorem capabilityDefinition_entitled (hdraft : Entitled principal "owner" draft)
    (h : capabilityDefinition draft = .ok definition) :
    Entitled principal "owner" definition ∧ HumanGated definition := by
  obtain ⟨howner, hpermissions, hscopes, hgated⟩ := capabilityDefinition_ok h
  refine ⟨⟨howner.trans hdraft.owner, ?_, ?_⟩, hgated⟩
  · intro refs hrefs
    exact hdraft.permissions refs (hpermissions ▸ hrefs)
  · intro refs hrefs
    exact hdraft.scopes refs (hscopes ▸ hrefs)

/-! ## Resolutions -/

/-- The answer of GENESIS decides for a reuse. -/
def Reuses (result : Json.Fields) : Prop :=
  ∃ resolution : Json.Fields, result.get? "resolution" = some (.obj resolution) ∧
    resolution.get? "decision" = some (.str "REUSE")

/-- A request is made for an active principal with scopes. -/
theorem request_ok {entries : Table RegistryEntry.key} {payload internalRequest : Json.Fields}
    (h : request F entries payload principal correlationId = .ok internalRequest) :
    principal.active = true ∧ principal.scopes ≠ ∅ := by
  unfold request at h
  simp only [bind_eq_ok] at h
  obtain ⟨_, -, h⟩ := h
  by_cases hactive : principal.active = true
  · rw [if_neg (not_not.2 hactive)] at h
    by_cases hscopes : principal.scopes = ∅
    · rw [if_pos hscopes] at h
      simp [throw_ne_ok, bind_eq_ok] at h
    · exact ⟨hactive, hscopes⟩
  · rw [if_pos hactive] at h
    simp [throw_ne_ok, bind_eq_ok] at h

/-- What is known of a proposal that is to be registered. -/
structure Checked (F : FactoryOrchestrator ι κ) (principal : Principal) (correlationId : String)
    (result : Json.Fields) (proposal : Proposal) : Prop where
  decision : ¬ Reuses result
  capability : checkCapabilityDraft F proposal.capabilityDraft principal correlationId = .ok ()
  agent : ∀ draft, proposal.agentDraft = .obj draft →
    checkAgentDraft F draft principal correlationId = .ok ()

/-- The resolution is an object of the result. -/
theorem resolutionOf_eq_ok {result resolution : Json.Fields} :
    resolutionOf result = .ok resolution ↔ result.get? "resolution" = some (.obj resolution) := by
  unfold resolutionOf
  simp only [bind_eq_ok, required_eq_ok]
  constructor
  · rintro ⟨value, hvalue, h⟩
    cases value with
    | obj fields =>
        rw [pure_eq_ok.1 h] at hvalue
        exact hvalue
    | _ => exact absurd h throw_ne_ok
  · intro h
    exact ⟨_, h, rfl⟩

/-- A proposal to create has passed every check on the drafts it comes from. -/
theorem resolve_create {result : Json.Fields} {proposal : Proposal}
    (h : resolve F result principal correlationId = .ok (.create proposal)) :
    Checked F principal correlationId result proposal := by
  unfold resolve at h
  simp only [bind_eq_ok, mapError_eq_ok] at h
  obtain ⟨validated, hvalid, supplied, -, h⟩ := h
  obtain rfl := CanonicalContractCatalog.validate_eq hvalid
  by_cases hlinked : EqText supplied correlationId
  · rw [if_neg (not_not.2 hlinked)] at h
    simp only [bind_eq_ok, required_eq_ok] at h
    obtain ⟨resolution, hresolution, decision, hdecision, _, -, _, -, h⟩ := h
    -- an answer that reuses proposes nothing
    by_cases hreuse : EqText decision "REUSE"
    · rw [if_pos hreuse] at h
      simp only [bind_eq_ok, pure_eq_ok] at h
      obtain ⟨_, -, h⟩ := h
      cases h
    · rw [if_neg hreuse, bind_eq_ok] at h
      obtain ⟨capability, -, h⟩ := h
      have hkept : ¬ Reuses validated := by
        rintro ⟨resolution', hresolution', hdecision'⟩
        rw [resolutionOf_eq_ok.1 hresolution] at hresolution'
        cases hresolution'
        rw [hdecision] at hdecision'
        cases hdecision'
        exact hreuse rfl
      cases capability with
      | obj draft =>
          simp only [bind_eq_ok, required_eq_ok] at h
          obtain ⟨_, hcapability, agentDraft, -, h⟩ := h
          cases agentDraft with
          | obj agent =>
              simp only [bind_eq_ok, pure_eq_ok] at h
              obtain ⟨_, hagent, h⟩ := h
              cases h
              refine ⟨hkept, hcapability, ?_⟩
              rintro _ ⟨⟩
              exact hagent
          | _ =>
              simp only [pure_eq_ok] at h
              cases h
              refine ⟨hkept, hcapability, ?_⟩
              rintro _ ⟨⟩
      | _ => exact absurd h throw_ne_ok
  · rw [if_pos hlinked] at h
    simp [throw_ne_ok, bind_eq_ok] at h

end Alos.Factory
