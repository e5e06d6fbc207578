import Alos.Api.Public
import Alos.Factory.Drafts
import Alos.Registry.Drafting

/-! # What the public routes do to the registries

Whoever sends requests, and however they overlap.

* `draftPayload_within` and `Factory.registrations_entitled`: what a route registers
  needs nothing that its principal does not hold;
* `prog_delegates`: a request changes the registries by such registrations only;
* `public_drafts`: so all that a run of requests leaves behind are drafts of the
  principals that have sent them.
-/

namespace Alos.Api

open Coop Py Registry Authentication

/-! ## What is registered -/

section Within

variable {principal : Principal} {entry : RegistryEntry} {view : RegistryAuthorityView}

/-- The refs of a field that a view has read. -/
theorem refs_of_references {payload : Json.Fields} {key : String} {refs read : List String}
    (hrefs : payload.get? key = some (Factory.texts refs))
    (h : RegistryAuthorityView.references
      (Py.or (RegistryAuthorityView.field payload key) (.arr [])) = .ok (some read)) :
    read = refs := by
  rw [or_of_refs (.inl hrefs), references_strings] at h
  split at h
  · exact (Option.some.inj (Except.ok.inj h)).symm
  · cases h

/-- A view reads the refs of its entry. -/
theorem refs_of_fromEntry (h : RegistryAuthorityView.fromEntry entry = .ok view) :
    (∀ refs, entry.payload.get? "permission_refs" = some (Factory.texts refs) →
      view.permissions = refs) ∧
    ∀ refs, entry.payload.get? "scope_refs" = some (Factory.texts refs) → view.scope = refs := by
  unfold RegistryAuthorityView.fromEntry at h
  -- a definition without an owner or a risk is refused
  by_cases howner : RegistryAuthorityView.text? (RegistryAuthorityView.owner entry) = none
  · rw [if_pos howner] at h
    simp [Except.throw_ne_ok, Except.bind_eq_ok] at h
  rw [if_neg howner] at h
  by_cases hrisk : RegistryAuthorityView.text? (RegistryAuthorityView.risk entry) = none
  · rw [if_pos hrisk] at h
    simp [Except.throw_ne_ok, Except.bind_eq_ok] at h
  rw [if_neg hrisk] at h
  simp only [Except.bind_eq_ok] at h
  rcases h with ⟨tools, -, permissions, hpermissions, scope, hscope, h⟩
  split at h
  · cases h
    constructor
    · intro refs hrefs
      exact refs_of_references hrefs hpermissions
    · intro refs hrefs
      exact refs_of_references hrefs hscope
  · exact absurd h Except.throw_ne_ok

/-- An authorized entry needs what the principal holds. -/
theorem within_of_authorized (hview : RegistryAuthorityView.fromEntry entry = .ok view)
    (h : view.authorize principal = .ok ()) : principal.active = true ∧
      Factory.Within entry.payload "permission_refs" principal.permissions ∧
      Factory.Within entry.payload "scope_refs" principal.scopes := by
  rcases authorize_eq view principal with ⟨hauthorizes, -⟩ | ⟨-, message, hrefused⟩
  · refine ⟨hauthorizes.active, ?_, ?_⟩
    · intro refs hrefs ref href
      rw [← (refs_of_fromEntry hview).1 refs hrefs] at href
      exact hauthorizes.permissions ref href
    · intro refs hrefs ref href
      rw [← (refs_of_fromEntry hview).2 refs hrefs] at href
      exact hauthorizes.scope ref href
  · rw [hrefused] at h
    cases h

/-- So it is of an entry that `get_authorized` gives. -/
theorem within_of_getAuthorized {entries : Table RegistryEntry.key} {subjectId version : String}
    (hentry : entries.get? ⟨principal.tenantId, principal.workspaceId, subjectId, version⟩ =
      some entry)
    (h : getAuthorized entries (some principal) subjectId version = .ok view) :
    principal.active = true ∧
      Factory.Within entry.payload "permission_refs" principal.permissions ∧
      Factory.Within entry.payload "scope_refs" principal.scopes := by
  simp only [getAuthorized, Except.bind_eq_ok, Except.pure_eq_ok] at h
  rcases h with ⟨found, hfound, _, -, _, -, view', hview, u, hauthorize, rfl⟩
  rw [Registry.get, hentry] at hfound
  cases hfound
  exact within_of_authorized hview hauthorize

open Skills in
/-- The draft of an assignment needs what its agent needs. -/
theorem draftPayload_within {κ : Type} {x : SkillAssignmentService κ} {a : Assignment}
    {agents skills : Table RegistryEntry.key} {payload : Json.Fields}
    (h : draftPayload x a agents skills = .ok payload) : a.principal.active = true ∧
      Factory.Within payload "permission_refs" a.principal.permissions ∧
      Factory.Within payload "scope_refs" a.principal.scopes := by
  simp only [draftPayload, eligible, Except.bind_eq_ok, Except.pure_eq_ok] at h
  rcases h with ⟨_, ⟨agent, hagent, skill, -, view, hview, _, -, refs, -, _, -, _, -, _, -, _, -,
    rfl⟩, version, -, rfl⟩
  -- the assignment passed the check on the agent, so the principal holds its refs
  rcases within_of_getAuthorized (activeEntry_ok hagent) (Except.mapError_eq_ok.1 hview) with
    ⟨hactive, hpermissions, hscopes⟩
  refine ⟨hactive, ?_, ?_⟩
  · intro found hfound
    rw [get?_assigned (by decide) (by decide)] at hfound
    exact hpermissions found hfound
  · intro found hfound
    rw [get?_assigned (by decide) (by decide)] at hfound
    exact hscopes found hfound

end Within

/-! ## Requests delegate registrations -/

section Delegating

variable {ι κ : Type} [DecidableEq ι] [DecidableEq κ] {x : Registries ι κ} {P : Call ι → Prop}
  {Q' ε' α : Type} {A' : Q' → Type} {f : Registry.Question ι → Q'}
  {back : (q : Registry.Question ι) → A' (f q) → Registry.Answer q} {g : RegistryError → ε'}

/-- What follows a registration is reached with the entry. -/
theorem delegates_register {i : ι} {payload : Json.Fields}
    {tenantId organizationId workspaceId actorId correlationId : String} {now : Datetime}
    {k : RegistryEntry → Proc (Memory ι κ) Q' A' ε' α}
    (hP : P (.register i payload tenantId organizationId workspaceId actorId correlationId now))
    (hk : ∀ entry, (k entry).Delegates (Call.prog x) f back P) :
    (((Registry.register x i payload tenantId organizationId workspaceId actorId correlationId
      now).embed f back g).bind k).Delegates (Call.prog x) f back P := by
  -- as a call it returns an option, which is never none
  let next (found : Option RegistryEntry) : Proc (Memory ι κ) Q' A' ε' α :=
    found.elim (.raise (g .audit)) k
  have hcall : ((Registry.register x i payload tenantId organizationId workspaceId actorId
      correlationId now).embed f back g).bind k =
      ((Call.prog x (.register i payload tenantId organizationId workspaceId actorId correlationId
        now)).embed f back g).bind next := by
    change _ = (((Registry.register x i payload tenantId organizationId workspaceId actorId
      correlationId now).bind fun entry => .ret (some entry)).embed f back g).bind next
    rw [Proc.embed_bind, Proc.bind_assoc]
    rfl
  rw [hcall]
  apply Proc.Delegates.call hP
  intro entry
  cases entry with
  | none => exact .raise
  | some entry => exact hk entry

open Skills in
theorem assignOn_delegates {κ' : Type} {y : SkillAssignmentService κ'} {agents skills : ι}
    {a : Assignment} {now : Datetime}
    (hP : ∀ payload, a.principal.active = true →
      Factory.Within payload "permission_refs" a.principal.permissions →
      Factory.Within payload "scope_refs" a.principal.scopes →
      P (.register agents payload a.principal.tenantId a.principal.organizationId
        a.principal.workspaceId a.principal.actorId a.correlationId now)) :
    (assignOn y a x agents skills now).Delegates (Call.prog x) id (fun _ answer => answer) P := by
  -- recording asks the sink and calls no registry
  have hrecord : ∀ outcome reason,
      (recordAssignment (κ := κ) y a outcome reason : Proc (Memory ι κ) _ _ _ _).Delegates
        (Call.prog x) id (fun _ answer => answer) P := by
    intro outcome reason
    unfold recordAssignment
    split
    · refine .await ?_
      intro answer
      cases answer with
      | returned => exact .ret
      | raised => exact .raise
    · exact .ret
  simp only [assignOn, registerDraft, Proc.bind_def, Proc.get_bind]
  refine .read ?_
  intro s
  cases hpayload : draftPayload y a (s.entries agents) (s.entries skills) with
  | error refusal =>
      cases refusal with
      | raised e => exact .raise
      | rejected reason code message => exact (hrecord _ _).bind fun _ => .raise
  | ok payload =>
      rcases draftPayload_within hpayload with ⟨hactive, hpermissions, hscopes⟩
      apply delegates_register (hP payload hactive hpermissions hscopes)
      intro draft
      exact (hrecord _ _).bind fun _ => .ret

/-! ### The Factory -/

section Factory

open Factory

variable {F : FactoryOrchestrator ι κ} {principal : Principal} {correlationId : String}
  {now : ι → Datetime}

/-- A creation makes its registrations one after the other. -/
theorem completing_delegates (proposal : Proposal) {rs : List (ι × Json.Fields)}
    (hrs : ∀ r ∈ rs, P (.register r.1 r.2 principal.tenantId principal.organizationId
      principal.workspaceId principal.actorId correlationId (now r.1)))
    (registered : List RegistryEntry) :
    (completing F principal correlationId now proposal rs registered).Delegates
      (Call.prog F.toRegistries) Factory.Question.registry (fun _ answer => answer) P := by
  induction rs generalizing registered with
  | nil =>
      unfold completing
      cases createResponse F proposal registered correlationId with
      | ok response => exact .ret
      | error e => exact .raise
  -- the first registration is one call, the others follow it
  | cons r rest ih =>
      unfold completing enroll
      apply delegates_register (hrs r List.mem_cons_self)
      intro entry
      exact ih (fun r hr => hrs r (List.mem_cons_of_mem _ hr)) _

theorem analyze_delegates {payload : Json.Fields}
    (hP : ∀ i definition, principal.active = true →
      Entitled principal (ownerField F i) definition →
      (i = F.capabilities → HumanGated definition) → i = F.capabilities ∨ i = F.agents →
      P (.register i definition principal.tenantId principal.organizationId principal.workspaceId
        principal.actorId correlationId (now i))) :
    (analyze F payload principal correlationId now).Delegates (Call.prog F.toRegistries)
      Factory.Question.registry (fun _ answer => answer) P := by
  simp only [analyze, Proc.bind_def, Proc.get_bind]
  refine .read ?_
  intro s
  apply Proc.Delegates.ofExcept
  intro internalRequest hrequest
  -- the request was made, so the principal is active
  have hactive := (request_ok hrequest).1
  unfold consult
  simp only [Proc.bind_def, Proc.ask_bind, Proc.bind]
  refine .await ?_
  intro answer
  cases answer with
  | failed e => exact .raise
  | raised => exact .raise
  | returned result =>
      apply Proc.Delegates.ofExcept
      intro resolved hresolve
      cases resolved with
      | reuse response => exact .ret
      | create proposal =>
          have hchecked := resolve_create hresolve
          simp only [create_eq hchecked]
          apply Proc.Delegates.ofExcept
          intro definition hdefinition
          apply completing_delegates
          intro r hr
          rcases (registrations_entitled hchecked hdefinition).2 r hr with ⟨hentitled, hgated⟩
          apply hP r.1 r.2 hactive hentitled hgated
          by_contra hothers
          rw [not_or] at hothers
          exact registrations_others hothers.1 hothers.2 (List.mem_map_of_mem hr)

end Factory

end Delegating

/-! ## What a request may register -/

section Requests

variable (b : Application) (accounts : List Authentication.Call) (xs : List PublicStep)

/-- The registrations that a request of the run may make: of an agent or a
capability, in the place and the name of the active principal that has sent it, and
of nothing that needs what the principal does not hold. -/
inductive Proposes : Registry.Call Subject → Prop where
  | mk {j r p i payload} (hrequest : .call j r ∈ xs) (hsender : b.sender accounts r = .ok p)
      (hactive : p.active = true) (hsubject : i ≠ .skill)
      (hpermissions : Factory.Within payload "permission_refs" p.permissions)
      (hscopes : Factory.Within payload "scope_refs" p.scopes)
      (hgated : i = .capability → Factory.HumanGated payload) :
      Proposes (.register i payload p.tenantId p.organizationId p.workspaceId p.actorId
        r.correlationId (r.now i))

variable {b accounts xs}

theorem serve_delegates {j : ℕ} {r : PublicRequest} {p : Principal} (hrequest : .call j r ∈ xs)
    (hsender : b.sender accounts r = .ok p) :
    (serve b p r.correlationId r.now r.route).Delegates (Call.prog b.registries)
      Factory.Question.registry (fun _ answer => answer) (Proposes b accounts xs) := by
  -- the routes that only read call no registry
  have hanswer : ∀ route, (Proc.get.bind fun s =>
      Proc.ofExcept (answer b p r.correlationId s route) : PublicOp Json.Fields).Delegates
        (Call.prog b.registries) Factory.Question.registry (fun _ answer => answer)
        (Proposes b accounts xs) := by
    intro route
    refine .read ?_
    intro s
    change (Proc.ofExcept (answer b p r.correlationId s route)).Delegates ..
    cases answer b p r.correlationId s route with
    | ok body => exact .ret
    | error e => exact .raise
  cases hroute : r.route with
  | assignSkill agentId payload =>
      by_cases hmismatch : payload.agentId.val ≠ agentId
      · rw [serve, if_pos hmismatch]
        exact .raise
      · rw [serve, if_neg hmismatch]
        have hassign : (Skills.assignOn b.skills (assignmentOf p r.correlationId payload) b.registries
            .agent .skill (r.now .agent)).Delegates
              (Call.prog b.registries) id (fun _ answer => answer) (Proposes b accounts xs) := by
          apply assignOn_delegates
          intro definition hactive hpermissions hscopes
          exact .mk hrequest hsender hactive (by decide) hpermissions hscopes (by simp)
        refine Proc.Delegates.bind ?_ fun _ => .ret
        exact hassign.embed Factory.Answer Factory.Question.registry (fun _ answer => answer)
          (assignmentRefusal r.correlationId)
  | analyzeFactoryRequirement payload =>
      have hanalyze : (Factory.analyze b.factory payload p r.correlationId r.now).Delegates
          (Call.prog b.factory.toRegistries) Factory.Question.registry (fun _ answer => answer)
          (Proposes b accounts xs) := by
        apply analyze_delegates
        intro i definition hactive hentitled hgated hi
        refine .mk hrequest hsender hactive ?_ hentitled.permissions hentitled.scopes hgated
        rcases hi with rfl | rfl
        · show Subject.capability ≠ .skill
          decide
        · show Subject.agent ≠ .skill
          decide
      exact hanalyze.embed Factory.Answer id (fun _ answer => answer) PublicError.factory
  | _ => exact hanswer _

theorem prog_delegates {j : ℕ} {r : PublicRequest} (hrequest : .call j r ∈ xs) :
    (b.prog accounts r).Delegates (Call.prog b.registries) Factory.Question.registry
      (fun _ answer => answer) (Proposes b accounts xs) := by
  unfold Application.prog
  split
  · exact .raise
  · exact .raise
  · rename_i hsender
    exact serve_delegates hrequest hsender

/-! ## What a run of requests leaves behind -/

theorem separate_registries : Separate b.registries := by
  intro i j hstore hsubject
  have htypes : "agent" ≠ "skill" := by decide
  cases i <;> cases j
  case agent.skill => exact absurd hsubject htypes
  case skill.agent => exact absurd hsubject.symm htypes
  all_goals first | rfl | cases hstore

/-- A lock is handed over to a request as to the registration that it makes. -/
theorem answers_of_granted {s : Memory Subject StoreName}
    (h : Along (b.prog accounts) publicLocks.Granted (init s) xs) :
    Along (b.prog accounts) (Answers Factory.Question.registry Available) (init s) xs := by
  intro pre step post hxs
  have hstep := h pre step post hxs
  cases step with
  | call j r => trivial
  | resume j reply =>
      intro th hth q hq l hl
      rw [hl] at hq
      exact hstep th hth l hq

variable (b accounts xs)

/-- The entry is as the principal `p` may ask for it with the request `r`. -/
structure AskedFor (r : PublicRequest) (p : Principal) (entry : RegistryEntry) : Prop where
  active : p.active = true
  tenantId : entry.tenantId = p.tenantId
  organizationId : entry.organizationId = p.organizationId
  workspaceId : entry.workspaceId = p.workspaceId
  createdBy : entry.createdBy = p.actorId
  correlationId : entry.correlationId = r.correlationId
  permissions : Factory.Within entry.payload "permission_refs" p.permissions
  scopes : Factory.Within entry.payload "scope_refs" p.scopes

/-- A draft of the registry `i` that one of the requests has asked for, on which
nobody has decided. -/
structure Drafted (i : Subject) (entry : RegistryEntry) : Prop where
  subject : i ≠ .skill
  subjectType : entry.subjectType = (b.registries.registry i).subjectType
  state : entry.state = .draft
  decisionId : entry.decisionId = none
  releaseId : entry.releaseId = none
  gated : i = .capability → Factory.HumanGated entry.payload
  asked : ∃ j r p, .call j r ∈ xs ∧
    getCurrentPrincipal b.library (after b.library .empty accounts) r.authorization = .ok p ∧
      AskedFor r p entry

/-- What the requests `xs` do to registries that are hydrated over the rows. -/
structure DraftsOnly (rows : Table RegistryEntry.storeKey) : Prop where
  /-- Nothing in the dicts is changed or lost, and what is new is a draft. -/
  entries : Table.Grows (Drafted b accounts xs) (b.started rows).entries
    (b.served accounts rows xs).shared.entries
  /-- And so it is in the stores. -/
  stored : Table.Grows
    (fun k row => ∃ i, (b.registries.registry i).store = k ∧ Drafted b accounts xs i row)
    (b.started rows).rows (b.served accounts rows xs).shared.rows
  /-- What anybody has decided on was there before. -/
  decided : ∀ i, ∀ entry ∈ ((b.served accounts rows xs).shared.entries i).values,
    entry.state ≠ .draft → entry ∈ ((b.started rows).entries i).values

variable {b accounts xs}

/-- The authority of the sender is still that of the header when all the accounts
are registered. -/
theorem sender_lasting {r : PublicRequest} {p : Principal} (h : b.sender accounts r = .ok p) :
    getCurrentPrincipal b.library (after b.library .empty accounts) r.authorization = .ok p := by
  have hlasting := (sessions b.library (accounts.take r.registered)).lasting
    (accounts.drop r.registered) r.authorization p h
  rwa [List.take_append_drop] at hlasting

theorem Proposes.drafted {c : Registry.Call Subject} {entry : RegistryEntry}
    (hc : Proposes b accounts xs c) (h : Moves b.registries c none entry) :
    Drafted b accounts xs c.registry entry := by
  cases hc with
  | mk hrequest hsender hactive hsubject hpermissions hscopes hgated =>
      cases h with
      | registered hprepare =>
          rcases prepare_ok hprepare with ⟨subjectId, version, rfl⟩
          refine ⟨hsubject, rfl, rfl, rfl, rfl, hgated, _, _, _, hrequest,
            sender_lasting hsender, ?_⟩
          exact ⟨hactive, rfl, rfl, rfl, rfl, rfl, hpermissions, hscopes⟩

/-- **The public API only adds drafts.** Whatever the requests are, however they
overlap, whatever GENESIS, the store and the audit sink answer, and whoever has
registered. -/
theorem public_drafts (b : Application) (accounts : List Authentication.Call)
    (rows : Table RegistryEntry.storeKey) (xs : List PublicStep)
    (h : Along (b.prog accounts) publicLocks.Granted (init (b.started rows)) xs) :
    DraftsOnly b accounts xs rows := by
  rcases delegation_refines (b.started rows) xs (fun j r hr => prog_delegates hr)
    (answers_of_granted h) with ⟨ys, hys, hshared⟩
  -- every call that is made is a registration
  have hregisters : ∀ c, Proposes b accounts xs c → c.Registers := by
    intro c hc
    cases hc
    trivial
  -- so cache and rows only grow, by drafts of these calls
  have hadds : Adds b.registries (Proposes b accounts xs) (b.started rows)
      (b.served accounts rows xs).shared := by
    rw [Application.served, ← hshared]
    exact adds_run separate_registries hregisters hys
  have hentries : Table.Grows (Drafted b accounts xs) (b.started rows).entries
      (b.served accounts rows xs).shared.entries := by
    refine ⟨hadds.entries.kept, ?_⟩
    intro i entry hentry
    rcases hadds.entries.added i entry hentry with hold | ⟨c, hc, rfl, hmoves⟩
    · exact .inl hold
    · exact .inr (hc.drafted hmoves)
  refine ⟨hentries, ⟨hadds.rows.kept, ?_⟩, ?_⟩
  · intro k row hrow
    rcases hadds.rows.added k row hrow with hold | ⟨c, hc, hstore, hmoves⟩
    · exact .inl hold
    · exact .inr ⟨c.registry, hstore, hc.drafted hmoves⟩
  · intro i entry hentry hstate
    rcases hentries.added i entry hentry with hold | hnew
    · exact hold
    · exact absurd hnew.state hstate

end Requests

/-! ## A skill is assigned -/

section Assigning

open Skills

/-- The lock that a suspended request waits for. -/
def lock? : Stop (Factory.Question Subject) PublicError Json.Fields → Option Subject
  | .awaiting (.registry (.acquire i)) => some i
  | _ => none

theorem public_granted_resume {t : Sys PublicRequest (Memory Subject StoreName)
      (Factory.Question Subject) Factory.Answer PublicError Json.Fields} {j : ℕ}
    {reply : (q : Factory.Question Subject) → Factory.Answer q} :
    publicLocks.Granted t (.resume j reply) ↔
      ∀ i ∈ (t.threads j).bind fun th => lock? th.now.stop, t.shared.locked i = false := by
  -- the lock that a request waits for is the one in its question
  have hlock : ∀ stop i, stop = .awaiting (publicLocks.acquire i) ↔ lock? stop = some i := by
    intro stop i
    rcases stop with _ | _ | ⟨_ | ⟨_ | _ | _ | _ | _ | _ | _⟩⟩ <;> simp [lock?, publicLocks]
  constructor
  · intro h i hi
    rw [Option.mem_def, Option.bind_eq_some_iff] at hi
    rcases hi with ⟨th, hth, hstop⟩
    exact h th hth i ((hlock _ i).2 hstop)
  · intro h th hth i hstop
    apply h i
    rw [hth]
    exact (hlock _ i).1 hstop

instance (t : Sys PublicRequest (Memory Subject StoreName) (Factory.Question Subject)
    Factory.Answer PublicError Json.Fields) (step : PublicStep) :
    Decidable (publicLocks.Granted t step) :=
  match step with
  | .call _ _ => isTrue trivial
  | .resume _ _ => decidable_of_iff _ public_granted_resume.symm

def office : Application where
  contracts := ⟨fun _ => true, fun _ _ => none⟩
  library := plain
  registryStore := .sql
  whole := fun _ => none
  isDigit := Char.isDigit
  decimal := fun _ => none

/-- Somebody registers with the permission and the scope of the agent. -/
def maker : Authentication.Call where
  payload := [("email", .str "maker@alos.id"), ("password", .str "password1"),
    ("tenant_id", .str "tenant"), ("organization_id", .str "organization"),
    ("workspace_id", .str "workspace"), ("permissions", Factory.texts ["permission.read"]),
    ("scopes", Factory.texts ["scope.ledger"])]
  uuid := "0a1b2c3d4e5f"
  salt := "5f1d7a84db00d2fce00b31a7fc73224f"

def assignSummary : PublicRequest where
  authorization := some "Bearer alos_maker@alos.id:actor_0a1b2c3d4e5f:workspace:tenant"
  registered := 1
  correlationId := "corr"
  now := fun _ => 0
  route := .assignSkill "agent.summary" {
    agentId := ⟨"agent.summary", by decide⟩
    agentVersion := ⟨"1.0.0", by decide⟩
    skillId := ⟨"skill.summary", by decide⟩
    skillVersion := ⟨"1.0.0", by decide⟩
    proposedAgentVersion := some ⟨"1.1.0", by decide⟩ }

/-- The agent and the skill are in the store. -/
def summaryRows : Table RegistryEntry.storeKey :=
  .ofList [publishedEntry .agent "agent.summary" "1.0.0" summaryAgent,
    publishedEntry .skill "skill.summary" "1.0.0" summarySkill]

/-- The store and the audit sink answer, and GENESIS does not. -/
def replied : (q : Factory.Question Subject) → Factory.Answer q
  | .genesis _ => Factory.GenesisAnswer.raised
  | .registry (.acquire _) | .registry .close => ()
  | .registry .save | .registry .execute | .registry .commit | .registry .load => Stored.returned
  | .registry (.append _) => Appended.returned

/-- The same for a later version, in another request. -/
def assignLater : PublicRequest :=
  { assignSummary with
    correlationId := "corr_later"
    route := .assignSkill "agent.summary" {
      agentId := ⟨"agent.summary", by decide⟩
      agentVersion := ⟨"1.0.0", by decide⟩
      skillId := ⟨"skill.summary", by decide⟩
      skillVersion := ⟨"1.0.0", by decide⟩
      proposedAgentVersion := some ⟨"1.2.0", by decide⟩ } }

/-- Both requests wait for the lock at once; the second one gets it before the events of
the first one are stored. -/
def assigningSteps : List PublicStep :=
  .call 0 assignSummary :: .call 1 assignLater ::
    [0, 0, 0, 0, 1, 0, 1, 0, 1, 1, 1, 1].map fun i => .resume i replied

theorem public_drafts_summary : DraftsOnly office [maker] assigningSteps summaryRows ∧
    ((office.served [maker] summaryRows assigningSteps).shared.entries .agent).values.map
      RegistryEntry.state = [.active, .draft, .draft] := by
  refine ⟨public_drafts office [maker] summaryRows assigningSteps ?_, ?_⟩
  · decide +kernel
  · decide +kernel

end Assigning

end Alos.Api
