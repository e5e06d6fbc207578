import Alos.Factory.Checks
import Alos.Registry.Alone
import Alos.Registry.Moves

/-! # A creation that nobody interferes with

A creation is a list of registrations, one after the other, and a response
(`completing`).

* `enroll_alone` says what one registration does;
* `additions` are the versions that a creation adds, and `completing_leaves` says that it
  leaves nothing else behind, in the dicts or in the rows;
* `create_eq` connects the list with the procedure;
* `analyze_alone` says how a call gets there.
-/

namespace Alos.Factory

open Coop Py Registry Except

/-- The answers that a registration gets. -/
abbrev within {ι : Type} (env : Env (Question ι) Answer) : Env (Registry.Question ι) Registry.Answer :=
  Env.within Question.registry (fun _ answer => answer) env

/-- The answers that follow the first `n`. -/
abbrev after {ι : Type} (env : Env (Question ι) Answer) (n : ℕ) : Env (Question ι) Answer :=
  fun m => env (m + n)

section Creation

variable {ι κ : Type} [DecidableEq ι] [DecidableEq κ] (F : FactoryOrchestrator ι κ)
  (principal : Principal) (correlationId : String) (now : ι → Datetime)

/-- What the registration of a definition comes to. -/
def registering (i : ι) (definition : Json.Fields) (entries : Table RegistryEntry.key)
    (env : Env (Question ι) Answer) : Registration :=
  registration F.toRegistries i definition principal.tenantId principal.organizationId
    principal.workspaceId principal.actorId correlationId (now i) entries (within env)

/-- The registrations of a creation, in their order. -/
def registrations (definition : Json.Fields) : Json → List (ι × Json.Fields)
  | .obj agentDraft =>
      (F.capabilities, definition) :: ((agentDefinition? agentDraft).toList.map fun d => (F.agents, d))
  | _ => [(F.capabilities, definition)]

/-- What is left of a creation. -/
def completing (proposal : Proposal) :
    List (ι × Json.Fields) → List RegistryEntry → Op ι κ Json.Fields
  | [], registered => .ofExcept (createResponse F proposal registered correlationId)
  | (i, definition) :: rest, registered =>
      (enroll F i definition principal correlationId now).bind fun entry =>
        completing proposal rest (registered ++ [entry])

/-- The versions that the registrations add, up to the one that fails. -/
def additions : List (ι × Json.Fields) → Env (Question ι) Answer → (ι → Table RegistryEntry.key) →
    List (ι × RegistryEntry)
  | [], _, _ => []
  | (i, definition) :: rest, env, entries =>
      let r := registering F principal correlationId now i definition (entries i) env
      match r with
      | .refused _ => []
      | .found _ =>
          additions rest (after env (r.questions F.toRegistries i)) (r.store i entries)
      | .added entry .returned =>
          (i, entry) :: additions rest (after env (r.questions F.toRegistries i)) (r.store i entries)
      | .added entry .raised => [(i, entry)]

/-- The dicts with the versions. -/
def addEntries (entries : ι → Table RegistryEntry.key) (ys : List (ι × RegistryEntry)) :
    ι → Table RegistryEntry.key :=
  ys.foldl (fun entries y => Function.update entries y.1 ((entries y.1).put y.2)) entries

/-- The rows, after the saves of the versions. -/
def addRows (rows : κ → Table RegistryEntry.storeKey) (ys : List (ι × RegistryEntry)) :
    κ → Table RegistryEntry.storeKey :=
  ys.foldl (fun rows y => savedRows F.toRegistries y.1 rows y.2) rows

variable {F principal correlationId now}

theorem enroll_alone (i : ι) (definition : Json.Fields) (env : Env (Question ι) Answer)
    (s : Memory ι κ) :
    let ended := (enroll F i definition principal correlationId now).alone env s
    let r := registering F principal correlationId now i definition (s.entries i) env
    ended.state.entries = r.store i s.entries ∧
      ended.result = r.result.mapError (registryRefusal correlationId) ∧
      ∀ entry, r.result = .ok entry → ended.log.length = r.questions F.toRegistries i := by
  obtain ⟨hstate, hresult, hlog⟩ := Proc.alone_embed Question.registry (fun _ answer => answer)
    (registryRefusal correlationId) (Registry.register F.toRegistries i definition
      principal.tenantId principal.organizationId principal.workspaceId principal.actorId
      correlationId (now i)) env s
  -- inside the factory a registration does what it does alone
  obtain ⟨hentries, hended, hquestions⟩ := register_alone (x := F.toRegistries) (i := i) definition
    principal.tenantId principal.organizationId principal.workspaceId principal.actorId
    correlationId (now i) (within env) s
  refine ⟨?_, ?_, ?_⟩
  · exact (congrArg Memory.entries hstate).trans hentries
  · exact hresult.trans (congrArg (Except.mapError _) hended)
  · intro entry hentry
    exact hlog.trans (hquestions entry hentry)

theorem enroll_alone_rows (i : ι) (definition : Json.Fields) (env : Env (Question ι) Answer)
    (s : Memory ι κ) :
    ((enroll F i definition principal correlationId now).alone env s).state.rows =
      (registering F principal correlationId now i definition (s.entries i) env).rows
        F.toRegistries i s.rows := by
  obtain ⟨hstate, -, -⟩ := Proc.alone_embed Question.registry (fun _ answer => answer)
    (registryRefusal correlationId) (Registry.register F.toRegistries i definition
      principal.tenantId principal.organizationId principal.workspaceId principal.actorId
      correlationId (now i)) env s
  exact (congrArg Memory.rows hstate).trans (register_alone_rows ..)

/-- After a registration that returns, the rest of a creation goes on. -/
theorem completing_alone_ok {i : ι} {definition : Json.Fields} {env : Env (Question ι) Answer}
    {s : Memory ι κ} {entry : RegistryEntry}
    (h : (registering F principal correlationId now i definition (s.entries i) env).result =
      .ok entry) (proposal : Proposal) (rest : List (ι × Json.Fields))
    (registered : List RegistryEntry) :
    ∃ s' : Memory ι κ,
      s'.entries = (registering F principal correlationId now i definition (s.entries i) env).store i
        s.entries ∧
      s'.rows = (registering F principal correlationId now i definition (s.entries i) env).rows
        F.toRegistries i s.rows ∧
      let first := (completing F principal correlationId now proposal ((i, definition) :: rest)
        registered).alone env s
      let next := (completing F principal correlationId now proposal rest
        (registered ++ [entry])).alone (after env ((registering F principal correlationId now i
          definition (s.entries i) env).questions F.toRegistries i)) s'
      first.state = next.state ∧ first.result = next.result := by
  obtain ⟨hentries, hresult, hlog⟩ := @enroll_alone _ _ _ _ F principal correlationId now i
    definition env s
  rw [h] at hresult
  refine ⟨_, hentries, enroll_alone_rows .., ?_⟩
  -- the others follow the first in the state it leaves
  have hfollowed := Proc.Finished.followed_of_ok hresult fun entry n =>
    (completing F principal correlationId now proposal rest (registered ++ [entry])).alone
      (after env n)
  rw [hlog entry h] at hfollowed
  simp only [completing, Proc.alone_bind]
  exact hfollowed

/-- A registration that raises ends the creation. -/
theorem completing_alone_error {i : ι} {definition : Json.Fields} {env : Env (Question ι) Answer}
    {s : Memory ι κ} {e : RegistryError}
    (h : (registering F principal correlationId now i definition (s.entries i) env).result =
      .error e) (proposal : Proposal) (rest : List (ι × Json.Fields))
    (registered : List RegistryEntry) :
    let ended := (completing F principal correlationId now proposal ((i, definition) :: rest)
      registered).alone env s
    ended.state.entries = (registering F principal correlationId now i definition (s.entries i)
      env).store i s.entries ∧
    ended.state.rows = (registering F principal correlationId now i definition (s.entries i)
      env).rows F.toRegistries i s.rows ∧
    ended.result = .error (registryRefusal correlationId e) := by
  obtain ⟨hentries, hresult, -⟩ := @enroll_alone _ _ _ _ F principal correlationId now i
    definition env s
  rw [h] at hresult
  simp only [completing, Proc.alone_bind, Proc.Finished.followed_of_error hresult]
  exact ⟨hentries, enroll_alone_rows .., trivial⟩

/-- A creation leaves its additions behind, and nothing else. -/
theorem completing_leaves (proposal : Proposal) (rs : List (ι × Json.Fields))
    (registered : List RegistryEntry) (env : Env (Question ι) Answer) (s : Memory ι κ) :
    let ended := (completing F principal correlationId now proposal rs registered).alone env s
    let ys := additions F principal correlationId now rs env s.entries
    ended.state.entries = addEntries s.entries ys ∧ ended.state.rows = addRows F s.rows ys := by
  induction rs generalizing registered env s with
  | nil =>
      simp only [completing, additions]
      cases createResponse F proposal registered correlationId <;> exact ⟨rfl, rfl⟩
  | cons r rest ih =>
      obtain ⟨i, definition⟩ := r
      simp only [additions]
      -- a registration that returns leaves the rest to the rest
      have hrest : ∀ entry, (registering F principal correlationId now i definition (s.entries i)
          env).result = .ok entry → ∃ s' : Memory ι κ,
          s'.entries = (registering F principal correlationId now i definition (s.entries i)
            env).store i s.entries ∧
          s'.rows = (registering F principal correlationId now i definition (s.entries i) env).rows
            F.toRegistries i s.rows ∧
          ((completing F principal correlationId now proposal ((i, definition) :: rest)
            registered).alone env s).state.entries = addEntries s'.entries (additions F principal
              correlationId now rest (after env ((registering F principal correlationId now i
                definition (s.entries i) env).questions F.toRegistries i)) s'.entries) ∧
          ((completing F principal correlationId now proposal ((i, definition) :: rest)
            registered).alone env s).state.rows = addRows F s'.rows (additions F principal
              correlationId now rest (after env ((registering F principal correlationId now i
                definition (s.entries i) env).questions F.toRegistries i)) s'.entries) := by
        intro entry hentry
        obtain ⟨s', hentries, hrows, hstate, -⟩ := completing_alone_ok hentry proposal rest registered
        rw [hstate]
        exact ⟨s', hentries, hrows, ih _ _ s'⟩
      cases hr : registering F principal correlationId now i definition (s.entries i) env with
      | refused e =>
          obtain ⟨hentries, hrows, -⟩ := @completing_alone_error _ _ _ _ F principal correlationId
            now i definition env s e (by rw [hr]; rfl) proposal rest registered
          rw [hr] at hentries hrows
          exact ⟨hentries, hrows⟩
      | found existing =>
          obtain ⟨s', hs', hs'', hentries, hrows⟩ := hrest existing (by rw [hr]; rfl)
          rw [hr] at hs' hs'' hentries hrows
          rw [hentries, hrows, hs', hs'']
          exact ⟨rfl, rfl⟩
      | added entry recorded =>
          cases recorded with
          | returned =>
              obtain ⟨s', hs', hs'', hentries, hrows⟩ := hrest entry (by rw [hr]; rfl)
              rw [hr] at hs' hs'' hentries hrows
              rw [hentries, hrows, hs', hs'']
              exact ⟨rfl, rfl⟩
          | raised =>
              obtain ⟨hentries, hrows, -⟩ := @completing_alone_error _ _ _ _ F principal
                correlationId now i definition env s .audit (by rw [hr]; rfl) proposal rest registered
              rw [hr] at hentries hrows
              exact ⟨hentries, hrows⟩

/-- The registrations of a checked proposal are those that its creation makes. -/
theorem create_eq {proposal : Proposal} {result : Json.Fields}
    (h : Checked F principal correlationId result proposal) :
    create F proposal principal correlationId now =
      (Proc.ofExcept (capabilityDefinition proposal.capabilityDraft)).bind fun definition =>
        completing F principal correlationId now proposal
          (registrations F definition proposal.agentDraft) [] := by
  unfold create
  simp only [Proc.bind_def]
  congr 1
  funext definition
  cases hagent : proposal.agentDraft with
  | obj draft =>
      obtain ⟨agent, hdefinition, -⟩ := checkAgentDraft_ok (h.agent draft hagent)
      simp [registrations, hdefinition, completing]
  | _ => simp [registrations, completing]

variable (F principal correlationId) in
/-- What a call has come to when GENESIS has answered and all is checked. -/
def proposing (payload : Json.Fields) (entries : Table RegistryEntry.key)
    (env : Env (Question ι) Answer) : Except FactoryError Resolved := do
  let internalRequest ← request F entries payload principal correlationId
  match env 0 (.genesis internalRequest) with
  | .returned result => resolve F result principal correlationId
  | .failed e => throw (clientRefusal e correlationId)
  | .raised => throw .genesis

/-- A call alone: an error, the response of a reuse, or a creation. -/
theorem analyze_alone (payload : Json.Fields) (env : Env (Question ι) Answer) (s : Memory ι κ) :
    let ended := (analyze F payload principal correlationId now).alone env s
    match proposing F principal correlationId payload (s.entries F.capabilities) env with
    | .error e => ended.state = s ∧ ended.result = .error e
    | .ok (.reuse response) => ended.state = s ∧ ended.result = .ok response
    | .ok (.create proposal) =>
        let created := (create F proposal principal correlationId now).alone (after env 1) s
        ended.state = created.state ∧ ended.result = created.result := by
  simp only [analyze, proposing, Proc.bind_def, Proc.get_bind, Proc.alone]
  -- the request may be refused, GENESIS may fail, and its answer may be refused
  cases request F (s.entries F.capabilities) payload principal correlationId with
  | error e => simp [Proc.ofExcept, Proc.alone, bind, Except.bind]
  | ok internalRequest =>
      simp only [Proc.ofExcept, Proc.ret_bind, consult, Proc.ask_bind, Proc.bind,
        Proc.alone, bind, Except.bind]
      cases env 0 (.genesis internalRequest) with
      | failed e => simp [Proc.bind, Proc.alone, throw, throwThe, MonadExceptOf.throw]
      | raised => simp [Proc.bind, Proc.alone, throw, throwThe, MonadExceptOf.throw]
      | returned result =>
          simp only [Proc.pure_def, Proc.ret_bind]
          cases resolve F result principal correlationId with
          | error e => simp [Proc.alone]
          | ok resolved => cases resolved <;> simp [Proc.alone]

omit [DecidableEq ι] [DecidableEq κ] in
theorem proposing_create {payload : Json.Fields} {entries : Table RegistryEntry.key}
    {env : Env (Question ι) Answer} {proposal : Proposal}
    (h : proposing F principal correlationId payload entries env = .ok (.create proposal)) :
    ∃ internalRequest result, request F entries payload principal correlationId =
        .ok internalRequest ∧ env 0 (.genesis internalRequest) = .returned result ∧
      Checked F principal correlationId result proposal := by
  simp only [proposing, bind_eq_ok] at h
  obtain ⟨internalRequest, hrequest, h⟩ := h
  cases hanswer : env 0 (.genesis internalRequest) with
  | failed e => simp [hanswer, throw_ne_ok] at h
  | raised => simp [hanswer, throw_ne_ok] at h
  | returned result =>
      simp only [hanswer] at h
      exact ⟨internalRequest, result, hrequest, hanswer, resolve_create h⟩

/-! ## What is added -/

omit [DecidableEq ι] [DecidableEq κ] in
/-- What a registration adds has been prepared, and is new. -/
theorem registering_added {i : ι} {definition : Json.Fields} {entries : Table RegistryEntry.key}
    {env : Env (Question ι) Answer} {entry : RegistryEntry} {recorded : Appended}
    (h : registering F principal correlationId now i definition entries env =
      .added entry recorded) :
    prepare F.toRegistries i definition principal.tenantId principal.organizationId
        principal.workspaceId principal.actorId correlationId (now i) = .ok entry ∧
      entries.get? entry.key = none := by
  unfold registering registration at h
  -- nothing is added unless the payload is valid and its version is new
  split at h
  · cases h
  · rename_i hprepare
    split at h
    · split at h <;> cases h
    · rename_i hget
      split at h
      · cases h
        exact ⟨hprepare, hget⟩
      · cases h

theorem store_of_ne (r : Registration) {i j : ι} (h : j ≠ i) (s : ι → Table RegistryEntry.key) :
    r.store i s j = s j := by
  cases r with
  | refused e => rfl
  | found existing => rfl
  | added entry recorded => exact Function.update_of_ne h ..

omit [DecidableEq κ] in
/-- There is at most one addition for each registration. -/
theorem additions_sublist (rs : List (ι × Json.Fields)) (env : Env (Question ι) Answer)
    (entries : ι → Table RegistryEntry.key) :
    ((additions F principal correlationId now rs env entries).map Prod.fst).Sublist
      (rs.map Prod.fst) := by
  induction rs generalizing env entries with
  | nil => exact .slnil
  | cons r rest ih =>
      obtain ⟨i, definition⟩ := r
      simp only [additions]
      cases registering F principal correlationId now i definition (entries i) env with
      | refused e => exact List.nil_sublist _
      | found existing => exact (ih ..).cons _
      | added entry recorded =>
          cases recorded with
          | returned => exact (ih ..).cons_cons _
          | raised => exact (List.nil_sublist _).cons_cons _

omit [DecidableEq κ] in
/-- An addition is what is prepared of a definition, and new in its dict. -/
theorem mem_additions {rs : List (ι × Json.Fields)} {env : Env (Question ι) Answer}
    {entries : ι → Table RegistryEntry.key} (hnodup : (rs.map Prod.fst).Nodup)
    {y : ι × RegistryEntry} (hy : y ∈ additions F principal correlationId now rs env entries) :
    ∃ definition, (y.1, definition) ∈ rs ∧
      prepare F.toRegistries y.1 definition principal.tenantId principal.organizationId
        principal.workspaceId principal.actorId correlationId (now y.1) = .ok y.2 ∧
      (entries y.1).get? y.2.key = none := by
  induction rs generalizing env entries with
  | nil => cases hy
  | cons r rest ih =>
      obtain ⟨i, definition⟩ := r
      simp only [List.map_cons, List.nodup_cons] at hnodup
      -- a later registration finds its dict as it was
      have hlater : ∀ {env' : Env (Question ι) Answer},
          y ∈ additions F principal correlationId now rest env' ((registering F principal
            correlationId now i definition (entries i) env).store i entries) → ∃ definition',
          (y.1, definition') ∈ (i, definition) :: rest ∧
          prepare F.toRegistries y.1 definition' principal.tenantId principal.organizationId
            principal.workspaceId principal.actorId correlationId (now y.1) = .ok y.2 ∧
          (entries y.1).get? y.2.key = none := by
        intro env' hy
        obtain ⟨definition', hmem, hprepare, hfree⟩ := ih hnodup.2 hy
        have hne : y.1 ≠ i := by
          intro heq
          rw [heq] at hmem
          exact hnodup.1 (List.mem_map_of_mem hmem)
        rw [store_of_ne _ hne] at hfree
        exact ⟨definition', List.mem_cons_of_mem _ hmem, hprepare, hfree⟩
      simp only [additions] at hy
      cases hr : registering F principal correlationId now i definition (entries i) env with
      | refused e =>
          rw [hr] at hy
          cases hy
      | found existing =>
          rw [hr] at hlater hy
          exact hlater hy
      | added entry recorded =>
          rw [hr] at hlater hy
          obtain ⟨hprepare, hfree⟩ := registering_added hr
          cases recorded with
          | returned =>
              rcases List.mem_cons.1 hy with rfl | hy
              · exact ⟨definition, List.mem_cons_self, hprepare, hfree⟩
              · exact hlater hy
          | raised =>
              obtain rfl := List.mem_singleton.1 hy
              exact ⟨definition, List.mem_cons_self, hprepare, hfree⟩

/-! ## What the additions leave -/

theorem addEntries_of_notMem {ys : List (ι × RegistryEntry)} {i : ι} (h : i ∉ ys.map Prod.fst)
    (entries : ι → Table RegistryEntry.key) : addEntries entries ys i = entries i := by
  induction ys generalizing entries with
  | nil => rfl
  | cons y ys ih =>
      simp only [List.map_cons, List.mem_cons, not_or] at h
      exact (ih h.2 _).trans (Function.update_of_ne h.1 ..)

theorem addEntries_of_mem {ys : List (ι × RegistryEntry)} (hnodup : (ys.map Prod.fst).Nodup)
    {y : ι × RegistryEntry} (hy : y ∈ ys) (entries : ι → Table RegistryEntry.key) :
    addEntries entries ys y.1 = (entries y.1).put y.2 := by
  induction ys generalizing entries with
  | nil => cases hy
  | cons z ys ih =>
      simp only [List.map_cons, List.nodup_cons] at hnodup
      rcases List.mem_cons.1 hy with rfl | hy
      · exact (addEntries_of_notMem hnodup.1 _).trans (Function.update_self ..)
      · have hne : y.1 ≠ z.1 := by
          intro heq
          rw [← heq] at hnodup
          exact hnodup.1 (List.mem_map_of_mem hy)
        refine (ih hnodup.2 hy _).trans ?_
        simp only [Function.update_of_ne hne]

omit [DecidableEq ι] in
theorem addRows_of_forall {ys : List (ι × RegistryEntry)} {k : κ} {key : StoreKey}
    (h : ∀ y ∈ ys, ¬ (k = (F.registry y.1).store ∧ key = y.2.storeKey))
    (rows : κ → Table RegistryEntry.storeKey) :
    (addRows F rows ys k).get? key = (rows k).get? key := by
  induction ys generalizing rows with
  | nil => rfl
  | cons y ys ih =>
      refine (ih (fun z hz => h z (List.mem_cons_of_mem _ hz)) _).trans ?_
      exact savedRows_get? rows (h y List.mem_cons_self)

omit [DecidableEq ι] in
/-- Additions with different keys do not get into each other's way. -/
theorem addRows_of_mem {ys : List (ι × RegistryEntry)}
    (hys : ys.Pairwise fun y z => y.2.storeKey ≠ z.2.storeKey) {y : ι × RegistryEntry}
    (hy : y ∈ ys) (rows : κ → Table RegistryEntry.storeKey) :
    (addRows F rows ys (F.registry y.1).store).get? y.2.storeKey =
      some ((storeKind F.toRegistries y.1).written
        ((rows (F.registry y.1).store).get? y.2.storeKey) y.2) := by
  induction ys generalizing rows with
  | nil => cases hy
  | cons z ys ih =>
      rw [List.pairwise_cons] at hys
      rcases List.mem_cons.1 hy with rfl | hy
      · refine (addRows_of_forall (fun w hw h => hys.1 w hw h.2) _).trans ?_
        rw [savedRows_get?_self]
      · refine (ih hys.2 hy _).trans ?_
        rw [savedRows_get? rows fun h => hys.1 y hy h.2.symm]

end Creation

end Alos.Factory
