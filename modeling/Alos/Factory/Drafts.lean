import Alos.Factory.Creation

/-! # What the Factory adds

The effect of a call on the registries: on their dicts, and on the rows of their stores.

* `Governed` is an entry that the Factory may add for a principal;
* `Drafted` is what it may do to a dict, and `Filed` to the rows of a store: add such
  entries under new keys, and nothing else;
* `Spares` is the condition: a save is decided on the dict alone, so what it adds there
  may overwrite a row that the dict does not know of;
* `analyze_framed_iff` is the law, and `persisted_agent_reset` a row that is overwritten.
-/

namespace Alos.Factory

open Coop Py Registry Except

section Drafts

variable {ι κ : Type} [DecidableEq ι] [DecidableEq κ] (F : FactoryOrchestrator ι κ)
  (principal : Principal)

/-- The field of a definition that names its owner. -/
def ownerField (i : ι) : String := if i = F.capabilities then "owner" else "owner_actor_id"

/-- A draft in the place and under the authority of the principal. -/
structure Governed (i : ι) (entry : RegistryEntry) : Prop where
  state : entry.state = .draft
  tenantId : entry.tenantId = principal.tenantId
  organizationId : entry.organizationId = principal.organizationId
  workspaceId : entry.workspaceId = principal.workspaceId
  createdBy : entry.createdBy = principal.actorId
  definition : Entitled principal (ownerField F i) entry.payload
  gated : i = F.capabilities → HumanGated entry.payload

/-- A dict is left as it was, or gets one governed entry under a new key. -/
inductive Drafted (i : ι) (entries : Table RegistryEntry.key) : Table RegistryEntry.key → Prop where
  | same : Drafted i entries entries
  | added {entry} (hfree : entries.get? entry.key = none) (h : Governed F principal i entry) :
      Drafted i entries (entries.put entry)

/-- The rows of a store are left as they were, or get governed entries under new keys. -/
structure Filed (k : κ) (rows rows' : Table RegistryEntry.storeKey) : Prop where
  kept : ∀ key row, rows.get? key = some row → rows'.get? key = some row
  new : ∀ row ∈ rows'.values, row ∈ rows.values ∨
    ∃ i, (i = F.capabilities ∨ i = F.agents) ∧ (F.registry i).store = k ∧ Governed F principal i row

/-- Neither the dicts nor the rows have changed. -/
def Untouched (s s' : Memory ι κ) : Prop := s'.entries = s.entries ∧ s'.rows = s.rows

/-- The only effect of a call that leaves `s'` of `s`. -/
structure Framed (payload : Json.Fields) (correlationId : String) (env : Env (Question ι) Answer)
    (s s' : Memory ι κ) : Prop where
  drafted : ∀ i, Drafted F principal i (s.entries i) (s'.entries i)
  others : ∀ i, i ≠ F.capabilities → i ≠ F.agents → s'.entries i = s.entries i
  filed : ∀ k, Filed F principal k (s.rows k) (s'.rows k)
  inactive : principal.active = false → Untouched s s'
  unscoped : principal.scopes = ∅ → Untouched s s'
  reuse : (∀ internalRequest, request F (s.entries F.capabilities) payload principal
      correlationId = .ok internalRequest →
    ∃ result, env 0 (.genesis internalRequest) = .returned result ∧ Reuses result) → Untouched s s'

/-! ## The condition -/

/-- The columns that a save writes over a row have its values already: four of them in a
database, all of them in memory. -/
def Spared (kind : StoreKind) (row entry : RegistryEntry) : Prop :=
  match kind with
  | .inMemory => row = entry
  | .sql => row.state = entry.state ∧ row.correlationId = entry.correlationId ∧
      row.decisionId = entry.decisionId ∧ row.releaseId = entry.releaseId

/-- The versions that the call adds to the dicts. -/
def added (payload : Json.Fields) (correlationId : String) (now : ι → Datetime)
    (env : Env (Question ι) Answer) (entries : ι → Table RegistryEntry.key) :
    List (ι × RegistryEntry) :=
  match proposing F principal correlationId payload (entries F.capabilities) env with
  | .ok (.create proposal) =>
      match capabilityDefinition proposal.capabilityDraft with
      | .ok definition => additions F principal correlationId now
          (registrations F definition proposal.agentDraft) (after env 1) entries
      | .error _ => []
  | _ => []

/-- A version that the call adds to a dict has no row in the store, or one that its save
does not change. -/
def Spares (payload : Json.Fields) (correlationId : String) (now : ι → Datetime)
    (env : Env (Question ι) Answer) (s : Memory ι κ) : Prop :=
  ∀ y ∈ added F principal payload correlationId now env s.entries, ∀ row,
    (s.rows (F.registry y.1).store).get? y.2.storeKey = some row →
      Spared (storeKind F.toRegistries y.1) row y.2

variable {F principal} {correlationId : String} {now : ι → Datetime}

omit [DecidableEq ι] [DecidableEq κ] in
theorem agents_ne_capabilities : F.agents ≠ F.capabilities := by
  intro heq
  obtain ⟨k, hk⟩ := F.capabilities_registry
  obtain ⟨k', hk'⟩ := F.agents_registry
  rw [heq, hk] at hk'
  have htype := congrArg VersionedContractRegistry.subjectType hk'
  simp [capabilityRegistry, agentRegistry] at htype

omit [DecidableEq κ] in
/-- The registrations of a checked proposal are those of two definitions that
the principal may have registered. -/
theorem registrations_entitled {result definition : Json.Fields} {proposal : Proposal}
    (h : Checked F principal correlationId result proposal)
    (hdefinition : capabilityDefinition proposal.capabilityDraft = .ok definition) :
    ((registrations F definition proposal.agentDraft).map Prod.fst).Nodup ∧
      ∀ r ∈ registrations F definition proposal.agentDraft,
        Entitled principal (ownerField F r.1) r.2 ∧ (r.1 = F.capabilities → HumanGated r.2) := by
  have hcapability := capabilityDefinition_entitled (checkCapabilityDraft_ok h.capability) hdefinition
  -- the capability comes first, in every proposal
  have hfirst : Entitled principal (ownerField F F.capabilities) definition := by
    rw [ownerField, if_pos rfl]
    exact hcapability.1
  -- an agent follows when the draft of one is an object
  cases hagent : proposal.agentDraft with
  | obj draft =>
      obtain ⟨agent, hsome, hentitled⟩ := checkAgentDraft_ok (h.agent draft hagent)
      have hsecond : Entitled principal (ownerField F F.agents) agent := by
        rw [ownerField, if_neg agents_ne_capabilities]
        exact hentitled
      simp only [registrations, hsome, Option.toList_some, List.map_cons, List.map_nil]
      constructor
      · simp [Ne.symm agents_ne_capabilities]
      · intro r hr
        rcases List.mem_cons.1 hr with rfl | hr
        · exact ⟨hfirst, fun _ => hcapability.2⟩
        · rw [List.mem_singleton.1 hr]
          exact ⟨hsecond, fun heq => absurd heq agents_ne_capabilities⟩
  | _ =>
      simp only [registrations]
      constructor
      · simp
      · intro r hr
        rw [List.mem_singleton.1 hr]
        exact ⟨hfirst, fun _ => hcapability.2⟩

omit [DecidableEq ι] [DecidableEq κ] in
theorem registrations_others {definition : Json.Fields} {agentDraft : Json} {i : ι}
    (hcapabilities : i ≠ F.capabilities) (hagents : i ≠ F.agents) :
    i ∉ (registrations F definition agentDraft).map Prod.fst := by
  intro hi
  cases agentDraft with
  | obj draft =>
      simp only [registrations, List.map_cons, List.map_map, List.mem_cons, List.mem_map,
        Function.comp_apply] at hi
      rcases hi with rfl | ⟨d, -, rfl⟩
      · exact hcapabilities rfl
      · exact hagents rfl
  | _ =>
      simp only [registrations, List.map_cons, List.map_nil, List.mem_singleton] at hi
      exact hcapabilities hi

omit [DecidableEq ι] [DecidableEq κ] in
/-- A save leaves the row that it finds as it is, exactly if it spares it. -/
theorem written_eq_iff {kind : StoreKind} {row entry : RegistryEntry} :
    kind.written (some row) entry = row ↔ Spared kind row entry := by
  -- the memory store writes the entry, SQL four columns of the row
  cases kind with
  | inMemory => exact eq_comm
  | sql =>
      obtain ⟨⟩ := row
      simp only [StoreKind.written, RegistryEntry.updated, Spared, RegistryEntry.mk.injEq,
        true_and]
      constructor
      · rintro ⟨hstate, hcorrelation, hdecision, hrelease⟩
        refine ⟨?_, ?_, ?_, ?_⟩
        · split at hstate <;> simp_all
        · split at hcorrelation <;> simp_all
        · split at hdecision <;> simp_all
        · split at hrelease <;> simp_all
      · rintro ⟨hstate, hcorrelation, hdecision, hrelease⟩
        simp [hstate, hcorrelation, hdecision, hrelease]

/-! ## What the additions of a creation are -/

variable {payload : Json.Fields} {env : Env (Question ι) Answer}
  {entries : ι → Table RegistryEntry.key}

omit [DecidableEq κ] in
/-- Where a call adds anything, GENESIS has proposed it for a principal who may ask. -/
theorem exists_of_mem_added {y : ι × RegistryEntry}
    (hy : y ∈ added F principal payload correlationId now env entries) :
    ∃ internalRequest result proposal definition,
      request F (entries F.capabilities) payload principal correlationId = .ok internalRequest ∧
      env 0 (.genesis internalRequest) = .returned result ∧
      Checked F principal correlationId result proposal ∧
      capabilityDefinition proposal.capabilityDraft = .ok definition ∧
      added F principal payload correlationId now env entries = additions F principal correlationId
        now (registrations F definition proposal.agentDraft) (after env 1) entries := by
  unfold added at hy ⊢
  -- only a proposal adds anything
  cases hproposing : proposing F principal correlationId payload (entries F.capabilities) env with
  | error e =>
      rw [hproposing] at hy
      cases hy
  | ok resolved =>
      rw [hproposing] at hy
      cases resolved with
      | reuse response => cases hy
      | create proposal =>
          cases hdefinition : capabilityDefinition proposal.capabilityDraft with
          | error e =>
              simp only [hdefinition] at hy
              cases hy
          | ok definition =>
              obtain ⟨internalRequest, result, hrequest, hanswer, hchecked⟩ :=
                proposing_create hproposing
              refine ⟨internalRequest, result, proposal, definition, hrequest, hanswer, hchecked,
                hdefinition, ?_⟩
              simp only [hdefinition]

/-- What is known of an addition. -/
structure Addition (F : FactoryOrchestrator ι κ) (principal : Principal)
    (entries : ι → Table RegistryEntry.key) (y : ι × RegistryEntry) : Prop where
  registry : y.1 = F.capabilities ∨ y.1 = F.agents
  subjectType : y.2.subjectType = (F.registry y.1).subjectType
  free : (entries y.1).get? y.2.key = none
  governed : Governed F principal y.1 y.2

omit [DecidableEq κ] in
theorem addition_of_mem {y : ι × RegistryEntry}
    (hy : y ∈ added F principal payload correlationId now env entries) :
    Addition F principal entries y := by
  obtain ⟨_, _, proposal, definition, -, -, hchecked, hdefinition, hadded⟩ := exists_of_mem_added hy
  obtain ⟨hnodup, hrs⟩ := registrations_entitled hchecked hdefinition
  rw [hadded] at hy
  obtain ⟨document, hmem, hprepare, hfree⟩ := mem_additions hnodup hy
  obtain ⟨hentitled, hgated⟩ := hrs _ hmem
  -- what is added is the capability or the agent of the proposal
  have hregistry : y.1 = F.capabilities ∨ y.1 = F.agents := by
    by_contra hother
    rw [not_or] at hother
    exact registrations_others hother.1 hother.2 (List.mem_map_of_mem hmem)
  obtain ⟨subjectId, version, hentry⟩ := prepare_ok hprepare
  refine ⟨hregistry, ?_, hfree, ?_⟩
  · rw [hentry]
  · rw [hentry]
    exact ⟨rfl, rfl, rfl, rfl, rfl, hentitled, hgated⟩

omit [DecidableEq κ] in
theorem added_nodup :
    ((added F principal payload correlationId now env entries).map Prod.fst).Nodup := by
  cases hys : added F principal payload correlationId now env entries with
  | nil => exact List.nodup_nil
  | cons y ys =>
      have hy : y ∈ added F principal payload correlationId now env entries := by
        rw [hys]
        exact List.mem_cons_self
      obtain ⟨_, _, proposal, definition, -, -, hchecked, hdefinition, hadded⟩ :=
        exists_of_mem_added hy
      rw [← hys, hadded]
      exact (additions_sublist ..).nodup (registrations_entitled hchecked hdefinition).1

omit [DecidableEq ι] [DecidableEq κ] in
/-- The two registries have different subject types. -/
theorem registry_of_subjectType {i j : ι} (hi : i = F.capabilities ∨ i = F.agents)
    (hj : j = F.capabilities ∨ j = F.agents)
    (h : (F.registry i).subjectType = (F.registry j).subjectType) : i = j := by
  obtain ⟨k, hk⟩ := F.capabilities_registry
  obtain ⟨k', hk'⟩ := F.agents_registry
  -- the two registries hold different subject types
  have hcapabilities : (F.registry F.capabilities).subjectType = "capability" := by
    rw [hk]
    rfl
  have hagents : (F.registry F.agents).subjectType = "agent" := by
    rw [hk']
    rfl
  rcases hi with rfl | rfl <;> rcases hj with rfl | rfl
  · rfl
  · rw [hcapabilities, hagents] at h
    simp at h
  · rw [hcapabilities, hagents] at h
    simp at h
  · rfl

omit [DecidableEq κ] in
/-- No two additions have a row in common. -/
theorem added_pairwise : (added F principal payload correlationId now env entries).Pairwise
    fun y z => y.2.storeKey ≠ z.2.storeKey := by
  have hnodup : (added F principal payload correlationId now env entries).Pairwise
      fun y z => y.1 ≠ z.1 := List.pairwise_map.1 added_nodup
  refine hnodup.imp_of_mem ?_
  intro y z hy hz hne hkey
  have hy := addition_of_mem hy
  have hz := addition_of_mem hz
  apply hne
  apply registry_of_subjectType hy.registry hz.registry
  rw [← hy.subjectType, ← hz.subjectType]
  exact congrArg StoreKey.subjectType hkey

/-! ## The frame -/

/-- A call leaves its additions, in the dicts and in the rows, and nothing else. -/
theorem analyze_leaves (payload : Json.Fields) (correlationId : String) (now : ι → Datetime)
    (env : Env (Question ι) Answer) (s : Memory ι κ) :
    let s' := ((analyze F payload principal correlationId now).alone env s).state
    let ys := added F principal payload correlationId now env s.entries
    s'.entries = addEntries s.entries ys ∧ s'.rows = addRows F s.rows ys := by
  have halone := @analyze_alone _ _ _ _ F principal correlationId now payload env s
  generalize (analyze F payload principal correlationId now).alone env s = ended at halone ⊢
  unfold added
  -- without a proposal the registries stay as they are
  cases hproposing : proposing F principal correlationId payload (s.entries F.capabilities) env with
  | error e =>
      simp only [hproposing] at halone
      rw [halone.1]
      exact ⟨rfl, rfl⟩
  | ok resolved =>
      cases resolved with
      | reuse response =>
          simp only [hproposing] at halone
          rw [halone.1]
          exact ⟨rfl, rfl⟩
      | create proposal =>
          simp only [hproposing] at halone
          obtain ⟨internalRequest, result, -, -, hchecked⟩ := proposing_create hproposing
          rw [create_eq hchecked] at halone
          cases hdefinition : capabilityDefinition proposal.capabilityDraft with
          | error e =>
              rw [hdefinition] at halone
              rw [halone.1]
              simp only [hdefinition]
              exact ⟨rfl, rfl⟩
          | ok definition =>
              rw [hdefinition] at halone
              rw [halone.1]
              simp only [hdefinition]
              exact completing_leaves ..

/-- The other registries are left alone. -/
theorem analyze_others (payload : Json.Fields) (correlationId : String) (now : ι → Datetime)
    (env : Env (Question ι) Answer) (s : Memory ι κ) {i : ι} (hcapabilities : i ≠ F.capabilities)
    (hagents : i ≠ F.agents) :
    ((analyze F payload principal correlationId now).alone env s).state.entries i =
      s.entries i := by
  rw [(analyze_leaves payload correlationId now env s).1]
  apply addEntries_of_notMem
  intro hi
  rcases List.mem_map.1 hi with ⟨y, hy, rfl⟩
  rcases (addition_of_mem hy).registry with heq | heq
  · exact hcapabilities heq
  · exact hagents heq

omit [DecidableEq κ] in
/-- What the additions make of a dict. -/
theorem drafted_of_added (i : ι) :
    Drafted F principal i (entries i)
      (addEntries entries (added F principal payload correlationId now env entries) i) := by
  by_cases hi : i ∈ (added F principal payload correlationId now env entries).map Prod.fst
  · rcases List.mem_map.1 hi with ⟨y, hy, rfl⟩
    rw [addEntries_of_mem added_nodup hy]
    exact .added (addition_of_mem hy).free (addition_of_mem hy).governed
  · rw [addEntries_of_notMem hi]
    exact .same

/-- The additions file new rows, exactly if they spare those that are there. -/
theorem filed_iff {s : Memory ι κ} :
    (∀ k, Filed F principal k (s.rows k)
      (addRows F s.rows (added F principal payload correlationId now env s.entries) k)) ↔
      Spares F principal payload correlationId now env s := by
  constructor
  · intro h y hy row hrow
    have hkept := (h (F.registry y.1).store).kept y.2.storeKey row hrow
    rw [addRows_of_mem added_pairwise hy, hrow, Option.some.injEq] at hkept
    exact written_eq_iff.1 hkept
  · intro h k
    have hget : ∀ key, (∃ y ∈ added F principal payload correlationId now env s.entries,
        k = (F.registry y.1).store ∧ key = y.2.storeKey) ∨
        (addRows F s.rows (added F principal payload correlationId now env s.entries) k).get? key =
          (s.rows k).get? key := by
      intro key
      by_cases hy : ∃ y ∈ added F principal payload correlationId now env s.entries,
          k = (F.registry y.1).store ∧ key = y.2.storeKey
      · exact .inl hy
      · refine .inr (addRows_of_forall ?_ s.rows)
        intro y hmem hkey
        exact hy ⟨y, hmem, hkey⟩
    constructor
    · intro key row hrow
      rcases hget key with ⟨y, hy, rfl, rfl⟩ | hsame
      · rw [addRows_of_mem added_pairwise hy, hrow, written_eq_iff.2 (h y hy row hrow)]
      · rw [hsame, hrow]
    · intro row hrow
      have hfound := Table.get?_of_mem hrow
      rcases hget row.storeKey with ⟨y, hy, rfl, hkey⟩ | hsame
      · rw [hkey, addRows_of_mem added_pairwise hy] at hfound
        cases hold : (s.rows (F.registry y.1).store).get? y.2.storeKey with
        | some old =>
            rw [hold, written_eq_iff.2 (h y hy old hold)] at hfound
            cases hfound
            exact .inl (Table.mem_of_get? hold)
        | none =>
            -- there is nothing to overwrite
            rw [hold] at hfound
            have hwritten : (storeKind F.toRegistries y.1).written none y.2 = y.2 := by
              cases storeKind F.toRegistries y.1 <;> rfl
            rw [hwritten, Option.some.injEq] at hfound
            subst hfound
            exact .inr ⟨y.1, (addition_of_mem hy).registry, rfl, (addition_of_mem hy).governed⟩
      · rw [hsame] at hfound
        exact .inl (Table.mem_of_get? hfound)

omit [DecidableEq κ] in
/-- Nothing is added for a principal who may not ask, or when GENESIS decides for a reuse. -/
theorem added_eq_nil (h : ∀ internalRequest result,
    request F (entries F.capabilities) payload principal correlationId = .ok internalRequest →
    env 0 (.genesis internalRequest) = .returned result → ¬ Reuses result →
      principal.active = true → principal.scopes ≠ ∅ → False) :
    added F principal payload correlationId now env entries = [] := by
  cases hys : added F principal payload correlationId now env entries with
  | nil => rfl
  | cons y ys =>
      -- whatever is added comes of a request that was made by an active principal in scope
      have hy : y ∈ added F principal payload correlationId now env entries := by
        rw [hys]
        exact List.mem_cons_self
      obtain ⟨internalRequest, result, proposal, _, hrequest, hanswer, hchecked, -, -⟩ :=
        exists_of_mem_added hy
      obtain ⟨hactive, hscoped⟩ := request_ok hrequest
      exact (h internalRequest result hrequest hanswer hchecked.decision hactive hscoped).elim

/-- **The frame of the Factory.** Whatever GENESIS answers, and however the call ends: it
does nothing but add governed drafts, exactly if it spares the rows. -/
theorem analyze_framed_iff (payload : Json.Fields) (correlationId : String) (now : ι → Datetime)
    (env : Env (Question ι) Answer) (s : Memory ι κ) :
    Framed F principal payload correlationId env s
        ((analyze F payload principal correlationId now).alone env s).state ↔
      Spares F principal payload correlationId now env s := by
  obtain ⟨hentries, hrows⟩ := @analyze_leaves _ _ _ _ F principal payload correlationId now env s
  -- where nothing is added, everything stays
  have huntouched : added F principal payload correlationId now env s.entries = [] →
      Untouched s ((analyze F payload principal correlationId now).alone env s).state := by
    intro hnone
    rw [hnone] at hentries hrows
    exact ⟨hentries, hrows⟩
  constructor
  · intro h
    apply filed_iff.1
    rw [← hrows]
    exact h.filed
  · intro h
    constructor
    · intro i
      rw [hentries]
      exact drafted_of_added i
    · intro i
      exact analyze_others payload correlationId now env s
    · rw [hrows]
      exact filed_iff.2 h
    · intro hinactive
      apply huntouched
      apply added_eq_nil
      intro _ _ _ _ _ hactive _
      rw [hinactive] at hactive
      cases hactive
    · intro hunscoped
      apply huntouched
      apply added_eq_nil
      intro _ _ _ _ _ _ hscoped
      exact hscoped hunscoped
    · intro hreuse
      apply huntouched
      apply added_eq_nil
      intro internalRequest result hrequest hanswer hkept _ _
      obtain ⟨result', hanswer', hreuses⟩ := hreuse internalRequest hrequest
      rw [hanswer] at hanswer'
      cases hanswer'
      exact hkept hreuses

omit [DecidableEq κ] in
/-- Dicts that know of every row of their subject type, as after a hydration with nobody
else at the stores, meet the condition. -/
theorem spares_of_known {s : Memory ι κ} (hknown : ∀ i, ∀ row ∈ (s.rows (F.registry i).store).values,
    row.subjectType = (F.registry i).subjectType → (s.entries i).get? row.key ≠ none) :
    Spares F principal payload correlationId now env s := by
  intro y hy row hrow
  have haddition := addition_of_mem hy
  have hkey : row.storeKey = y.2.storeKey := Table.key_of_get? hrow
  have htype : row.subjectType = (F.registry y.1).subjectType :=
    (congrArg StoreKey.subjectType hkey).trans haddition.subjectType
  have hplace : row.key = y.2.key := congrArg StoreKey.place hkey
  refine absurd ?_ (hknown y.1 row (Table.mem_of_get? hrow) htype)
  rw [hplace]
  exact haddition.free

end Drafts

/-! ## A row that the cache does not know of -/

inductive Subject where
  | capability
  | agent
deriving DecidableEq

def agentDefinition : Json.Fields :=
  [("agent_id", .str "agent.report"), ("agent_version", .str "1.0.0"),
    ("owner_actor_id", .str "actor_requester"), ("name", .str "Report agent")]

/-- `hashlib.sha256(text.encode()).hexdigest()` of the text of this definition, and of the
other one that is proposed. -/
def factoryDigest (text : String) : String :=
  if text = Json.dumps (.obj agentDefinition) then
    "c57c86615cc282d1e6427bd2979fe55fffc8f53b867bca9e01482babdecc0580"
  else "0e3c824c65e488f692bd07c13a40b2c5b20045d9d0e7804e510f38d12592e501"

/-- A Factory whose contracts accept every document. -/
def factory : FactoryOrchestrator Subject Subject where
  contracts := ⟨fun _ => true, fun _ _ => none⟩
  sha256 := factoryDigest
  repr := Json.dumps
  registry
    | .capability => capabilityRegistry .capability
    | .agent => agentRegistry .agent
  store := fun _ => .inMemory
  capabilities := .capability
  agents := .agent
  capabilities_registry := ⟨_, rfl⟩
  agents_registry := ⟨_, rfl⟩

def requester : Principal where
  actorId := "actor_requester"
  tenantId := "tenant_factory"
  organizationId := "org_factory"
  workspaceId := "workspace_factory"
  scopes := {"scope.workspace.factory"}

/-- The authority context that both drafts carry. -/
def context : Json.Fields :=
  [("tenant_id", .str "tenant_factory"), ("organization_id", .str "org_factory"),
    ("workspace_id", .str "workspace_factory"), ("correlation_id", .str "corr_factory")]

def proposed : Json.Fields :=
  [("correlation_id", .str "corr_factory"),
    ("resolution", .obj [("decision", .str "CREATE"), ("reason", .str "No capability matches.")]),
    ("capability_draft", .obj (context ++ [
      ("capability_id", .str "capability_report"), ("version", .str "0.1.0"),
      ("name", .str "Report"), ("purpose", .str "Create a report."),
      ("owner", .str "actor_requester"), ("capability_type", .str "REPORT"),
      ("lifecycle_state", .str "DRAFT"), ("scope_refs", .arr []), ("tool_ids", .arr []),
      ("permission_refs", .arr []), ("prohibited_actions", .arr []), ("risk_level", .str "LOW"),
      ("evidence_requirements", .arr []), ("test_requirements", .arr [])])),
    ("agent_draft", .obj (context ++ [("agent_definition", .obj agentDefinition)]))]

/-- GENESIS proposes; the stores and the audit sink return. -/
def proposer : Env (Question Subject) Answer := fun _ question =>
  match question with
  | .genesis _ => .returned proposed
  | .registry (.acquire _) => ()
  | .registry .save => .returned
  | .registry .execute => .returned
  | .registry .commit => .returned
  | .registry .close => ()
  | .registry .load => .returned
  | .registry (.append _) => .returned

/-- The version of the agent is released, and persisted; this process was hydrated before. -/
def releasedAgent : RegistryEntry where
  subjectType := "agent"
  subjectId := "agent.report"
  version := "1.0.0"
  tenantId := "tenant_factory"
  organizationId := "org_factory"
  workspaceId := "workspace_factory"
  payload := [("agent_id", .str "agent.report"), ("agent_version", .str "1.0.0")]
  digest := "e4952ead576851fa8a064e1adb6494830bea00e47969faba398f3567c2b43d00"
  state := .active
  createdBy := "actor_other"
  correlationId := "corr_other"
  createdAt := 0
  decisionId := some "decision_report"
  releaseId := some "release_report"

def persisted : Memory Subject Subject := Memory.empty.putRow .agent releasedAgent

/-- The registries over a database. -/
def persistentFactory : FactoryOrchestrator Subject Subject := { factory with store := fun _ => .sql }

/-- The row of the agent after the call. -/
def rowAfter : Option RegistryEntry :=
  (((analyze persistentFactory [("requirement", .str "Create a report.")] requester "corr_factory"
    fun _ => 0).alone proposer persisted).state.rows .agent).get? releasedAgent.storeKey

/-- The released agent is a draft again, without its decision and its release. -/
theorem persisted_agent_reset : ¬ Framed persistentFactory requester
    [("requirement", .str "Create a report.")] "corr_factory" proposer persisted
      ((analyze persistentFactory [("requirement", .str "Create a report.")] requester
        "corr_factory" fun _ => 0).alone proposer persisted).state := by
  intro h
  have hreset : rowAfter.map (fun row => (row.state, row.decisionId, row.releaseId)) =
      some (.draft, none, none) := by
    decide +kernel
  have hkept : rowAfter = some releasedAgent :=
    (h.filed .agent).kept releasedAgent.storeKey releasedAgent rfl
  rw [hkept] at hreset
  cases hreset

end Alos.Factory
