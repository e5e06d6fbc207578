import Alos.Registry.Sync

/-! # The lifecycle of a registered version

Every run of the operations, overlapping as their locks allow, over stores that
are empty at first and whose accesses may fail.

* `dict_step`: a step of the run leaves a dict alone, or stores what its call
  may store;
* `registeredIn_run`: what a dict holds was registered in the run, so that digests
  are compared between payloads of the run only (`CollisionFree`);
* `registry_lawful` is the result: content never changes, states go forward
  one by one, and a version is registered once.
-/

namespace Alos.Registry

open Coop Py

section Runs

variable {ι κ : Type} [DecidableEq ι] [DecidableEq κ] (x : Registries ι κ)

/-- A step of a run of registry calls. -/
abbrev RegistryStep (ι : Type) := Step (Call ι) (Question ι) Answer

/-- The state after the steps `xs`, from empty stores. -/
def operated (xs : List (RegistryStep ι)) : RegistrySys ι κ :=
  run (Call.prog x) (init .empty) xs

/-- The steps that the lock and the hydrations allow. -/
def OrderlyRun (xs : List (RegistryStep ι)) : Prop :=
  Along (Call.prog x) Orderly (init .empty) xs

/-- The lock that a suspended call waits for. -/
def Question.lock? : Stop (Question ι) RegistryError (Option RegistryEntry) → Option ι
  | .awaiting (.acquire i) => some i
  | _ => none

omit [DecidableEq κ] in
/-- A lock is granted only while it is free. -/
theorem granted_resume {t : RegistrySys ι κ} {j : ℕ} {reply : (q : Question ι) → Answer q} :
    (locks ι κ).Granted t (.resume j reply) ↔
      ∀ i ∈ (t.threads j).bind fun th => Question.lock? th.now.stop, t.shared.locked i = false := by
  have hlock : ∀ (stop : Stop (Question ι) RegistryError (Option RegistryEntry)) i,
      stop = .awaiting (.acquire i) ↔ Question.lock? stop = some i := by
    intro stop i
    rcases stop with _ | _ | ⟨⟨_⟩ | _ | _ | _ | _ | _ | _⟩ <;> simp [Question.lock?]
  constructor
  · intro h i hi
    rw [Option.mem_def, Option.bind_eq_some_iff] at hi
    rcases hi with ⟨th, hth, hstop⟩
    exact h th hth i ((hlock th.now.stop i).2 hstop)
  · intro h th hth i hstop
    apply h i
    rw [hth]
    exact (hlock th.now.stop i).1 hstop

instance (t : RegistrySys ι κ) (step : RegistryStep ι) :
    Decidable ((locks ι κ).Granted t step) :=
  match step with
  | .call _ _ => isTrue trivial
  | .resume _ _ => decidable_of_iff _ granted_resume.symm

variable {x}

/-- Where nothing hydrates, no hydration is in the way. -/
theorem hydratesAlone_of_none {s : Memory ι κ} {xs : List (RegistryStep ι)}
    (h : ∀ j i, .call j (.hydrate i) ∉ xs) :
    Along (Call.prog x) HydratesAlone (init s) xs := by
  intro pre step post hxs
  cases step with
  | resume j reply => trivial
  | call j c =>
      have hc : ∀ i, c ≠ .hydrate i := by
        rintro i rfl
        exact h j i (by simp [hxs])
      -- no thread of the run is a hydration
      have hothers : ∀ k th, (run (Call.prog x) (init s) pre).threads k = some th →
          th.call = .hydrate c.registry → th.now.stop.Over := by
        intro k th hth hcall
        have hmem := (run_started (Call.prog x) s pre).threads k th hth
        rw [hcall] at hmem
        exact absurd (by simp [hxs, hmem]) (h k c.registry)
      cases c with
      | hydrate i => exact absurd rfl (hc i)
      | _ => exact hothers

/-- The beginnings of an orderly run are orderly. -/
theorem OrderlyRun.of_prefix {pre xs : List (RegistryStep ι)} (h : OrderlyRun x xs)
    (hpre : pre <+: xs) : OrderlyRun x pre := by
  rcases hpre with ⟨post, rfl⟩
  exact Along.of_append h

/-- A run ends with its last step. -/
theorem operated_snoc (xs : List (RegistryStep ι)) (step : RegistryStep ι) :
    operated x (xs ++ [step]) = next (Call.prog x) (operated x xs) step :=
  run_snoc ..

omit [DecidableEq ι] [DecidableEq κ] in
/-- Empty caches and empty rows are in step. -/
theorem synced_init : Synced x (⟨.empty, []⟩ : RegistryWorld ι κ) fun _ => none where
  exclusive := exclusive_empty
  lone := by
    intro i j c d st u hi
    cases hi
  fits := by
    intro i c st hi
    cases hi
  inStep := inStep_empty

/-- They are in step after any orderly run. -/
theorem synced_operated (hsep : Separate x) {xs : List (RegistryStep ι)} (h : OrderlyRun x xs) :
    (staging x).Staged (Synced x) (operated x xs) :=
  (synced_keeps hsep).run_inv (staging_follows x)
    ⟨fun _ => none, Staging.describes_init _, synced_init⟩ xs h

/-! ## One step -/

/-- What one step makes of the dict of the registry `i`. -/
inductive DictStep (x : Registries ι κ) (t : RegistrySys ι κ) (step : RegistryStep ι) (i : ι) :
    Table RegistryEntry.key → Prop where
  | same : DictStep x t step i (t.shared.entries i)
  | stored {j reply th entry} (hstep : step = .resume j reply) (hth : t.threads j = some th)
      (hregistry : th.call.registry = i)
      (hmoves : Moves x th.call ((t.shared.entries i).get? entry.key) entry) :
      DictStep x t step i ((t.shared.entries i).put entry)

/-- A step changes at most one version of a cache, and by the rules of the lifecycle. -/
theorem dict_step {t : RegistrySys ι κ} (h : (staging x).Staged (Synced x) t)
    (step : RegistryStep ι) (i : ι) :
    DictStep x t step i ((next (Call.prog x) t step).shared.entries i) := by
  rcases h with ⟨pool, hpool, hsynced⟩
  rcases hpool.next (staging_follows x) step with ⟨pool', -, hmoved⟩
  generalize (next (Call.prog x) t step).toWorld = w at hmoved
  cases hmoved with
  | idle => exact .same
  | start hi hbegins =>
      cases hbegins <;> exact .same
  | @turn j reply c st q k s' st' hj hnow hturn =>
      have hth := hpool.thread_some hj
      have heffect := hsynced.effect hj hturn
      rw [World.push_shared]
      -- a dict that is written is that of the call
      have hput : ∀ entry, Stores x c t.shared entry →
          s'.entries = (t.shared.putEntry c.registry entry).entries →
          DictStep x t (.resume j reply) i (s'.entries i) := by
        intro entry hstores hentries
        rw [hentries, Memory.putEntry_entries]
        by_cases hi : i = c.registry
        · subst hi
          rw [Function.update_self]
          exact .stored rfl hth rfl hstores.moves
        · rw [Function.update_of_ne hi]
          exact .same
      cases heffect with
      | idle hentries hrows _ _ =>
          rw [hentries]
          exact .same
      | saved hstores hentries hrows => exact hput _ hstores hentries
      | committed hstores hentries hrows =>
          rw [hentries]
          exact .same
      | closed hstores hentries hrows => exact hput _ hstores hentries

omit [DecidableEq ι] [DecidableEq κ] in
/-- A version changes only by the call that moves it. -/
theorem DictStep.changes {t : RegistrySys ι κ} {step : RegistryStep ι} {i : ι}
    {after : Table RegistryEntry.key} (h : DictStep x t step i after) (key : RegistryKey) :
    after.get? key = (t.shared.entries i).get? key ∨
      ∃ j reply th, step = .resume j reply ∧ t.threads j = some th ∧
        Changes th.call i key ((t.shared.entries i).get? key) (after.get? key) := by
  cases h with
  | same => exact .inl rfl
  | @stored j reply th entry hstep hth hregistry hmoves =>
      by_cases hkey : entry.key = key
      · subst hkey hregistry
        refine .inr ⟨j, reply, th, hstep, hth, ?_⟩
        rw [Table.get?_put_self]
        exact hmoves.changes fun old hold => Table.key_of_get? hold
      · exact .inl (Table.get?_put_of_ne _ hkey)

/-- Nothing is forgotten: a version that is registered stays, and evolves. -/
theorem evolves_run (hsep : Separate x) {pre post : List (RegistryStep ι)}
    (h : OrderlyRun x (pre ++ post)) {i : ι} {key : RegistryKey} {entry : RegistryEntry}
    (hentry : ((operated x pre).shared.entries i).get? key = some entry) :
    ∃ entry', ((operated x (pre ++ post)).shared.entries i).get? key = some entry' ∧
      entry.Evolves entry' := by
  -- on the later steps: each leaves the version or moves it one state on
  induction post using List.reverseRecOn with
  | nil => exact ⟨entry, by rwa [List.append_nil], .refl entry⟩
  | append_singleton post step ih =>
      rw [← List.append_assoc] at h ⊢
      have hpre : OrderlyRun x (pre ++ post) := Along.of_append h
      rcases ih hpre with ⟨entry', hentry', hevolves⟩
      rw [operated_snoc]
      rcases (dict_step (synced_operated hsep hpre) step i).changes key with
        hsame | ⟨j, reply, th, -, -, hchanges⟩
      · exact ⟨entry', hsame.trans hentry', hevolves⟩
      · rcases hchanges.found with ⟨new, hnew⟩
        obtain ⟨hcontent, hsuccessor⟩ := hchanges.evolved entry' new hentry' hnew
        have hrank := RegistryState.rank_of_successor hsuccessor
        exact ⟨new, hnew, hevolves.trans ⟨hcontent, by omega⟩⟩

/-- The digest of an entry is that of its payload. -/
theorem digest_run (hsep : Separate x) {xs : List (RegistryStep ι)} (h : OrderlyRun x xs) {i : ι}
    {key : RegistryKey} {entry : RegistryEntry}
    (hentry : ((operated x xs).shared.entries i).get? key = some entry) :
    entry.digest = digest x entry.payload := by
  induction xs using List.reverseRecOn generalizing entry key with
  | nil => cases hentry
  | append_singleton xs step ih =>
      have hpre : OrderlyRun x xs := Along.of_append h
      rw [operated_snoc] at hentry
      have hstep := dict_step (synced_operated hsep hpre) step i
      generalize (next (Call.prog x) (operated x xs) step).shared.entries i = after at hstep hentry
      cases hstep with
      | same => exact ih hpre hentry
      | @stored j reply th stored hstep hth hregistry hmoves =>
          -- the version is stored in this step, or was there before
          by_cases hkey : stored.key = key
          · subst hkey
            rw [Table.get?_put_self] at hentry
            cases hentry
            exact hmoves.digest fun old hold => ih hpre hold
          · rw [Table.get?_put_of_ne _ hkey] at hentry
            exact ih hpre hentry

/-- The run has a call that registers the payload. -/
def RegisteredIn (xs : List (RegistryStep ι)) (payload : Json.Fields) : Prop :=
  ∃ j i tenantId organizationId workspaceId actorId correlationId now,
    .call j (.register i payload tenantId organizationId workspaceId actorId correlationId now) ∈ xs

/-- SHA-256 does not collide on the payloads that the run registers. -/
def CollisionFree (x : Registries ι κ) (xs : List (RegistryStep ι)) : Prop :=
  ∀ p q, RegisteredIn xs p → RegisteredIn xs q → digest x p = digest x q → p.Same q

omit [DecidableEq ι] in
/-- What was registered in a run was registered in a longer one. -/
theorem RegisteredIn.append {pre : List (RegistryStep ι)} {payload : Json.Fields}
    (h : RegisteredIn pre payload) (post : List (RegistryStep ι)) :
    RegisteredIn (pre ++ post) payload := by
  rcases h with ⟨j, i, tenantId, organizationId, workspaceId, actorId, correlationId, now, h⟩
  exact ⟨j, i, tenantId, organizationId, workspaceId, actorId, correlationId, now,
    List.mem_append_left _ h⟩

omit [DecidableEq ι] [DecidableEq κ] in
/-- A beginning of a collision-free run is collision-free. -/
theorem CollisionFree.of_append {pre post : List (RegistryStep ι)}
    (h : CollisionFree x (pre ++ post)) : CollisionFree x pre :=
  fun p q hp hq => h p q (hp.append post) (hq.append post)

/-- A dict holds only what the run has registered. -/
theorem registeredIn_run (hsep : Separate x) {xs : List (RegistryStep ι)} (h : OrderlyRun x xs)
    {i : ι} {key : RegistryKey} {entry : RegistryEntry}
    (hentry : ((operated x xs).shared.entries i).get? key = some entry) :
    RegisteredIn xs entry.payload := by
  induction xs using List.reverseRecOn generalizing entry key with
  | nil => cases hentry
  | append_singleton xs step ih =>
      have hpre : OrderlyRun x xs := Along.of_append h
      rw [operated_snoc] at hentry
      have hstep := dict_step (synced_operated hsep hpre) step i
      generalize (next (Call.prog x) (operated x xs) step).shared.entries i = after at hstep hentry
      cases hstep with
      | same => exact (ih hpre hentry).append _
      | @stored j reply th stored hstep hth hregistry hmoves =>
          by_cases hkey : stored.key = key
          · subst hkey
            rw [Table.get?_put_self] at hentry
            cases hentry
            refine RegisteredIn.append ?_ _
            -- the payload is that of the call, or of the version that is moved
            have hcall := (run_started (Call.prog x) Memory.empty xs).threads j th hth
            rcases hmoves.origin with ⟨old, hold, hpayload⟩ | hregister
            · rw [hpayload]
              exact ih hpre hold
            · rcases hregister with
                ⟨tenantId, organizationId, workspaceId, actorId, correlationId, now, hregister⟩
              rw [hregister] at hcall
              exact ⟨j, _, _, _, _, _, _, _, hcall⟩
          · rw [Table.get?_put_of_ne _ hkey] at hentry
            exact (ih hpre hentry).append _

/-! ## Registering again -/

abbrev RegistryLabel (ι : Type) :=
  Label (Call ι) (Question ι) Answer RegistryError (Option RegistryEntry)

/-- The events that are handed to the audit sink. -/
def asked (ls : List (RegistryLabel ι)) : List AuditEvent :=
  ls.filterMap fun l => match l.stop with
    | .awaiting (.append event) => some event
    | _ => none

/-- What a call at a stage has handed to the audit sink. -/
def Stage.Asked (st : Stage) (events : List AuditEvent) : Prop :=
  match st with
  | .recording u entry | .recorded u entry =>
      events = [auditEvent entry u.actorId u.eventType u.outcome]
  | .raised _ => True
  | _ => events = []

omit [DecidableEq ι] in
/-- The questions of a run come in the order of its steps. -/
theorem asked_append (ls : List (RegistryLabel ι)) (l : RegistryLabel ι) :
    asked (ls ++ [l]) = asked ls ++ asked [l] :=
  List.filterMap_append

/-- A thread that has handed nothing over yet has handed over what its next segment does. -/
theorem asked_push {t t' : RegistrySys ι κ} {j : ℕ} {c : Call ι}
    {input : Input (Question ι) Answer} {s' : Memory ι κ} {st' : Stage}
    (hworld : t'.toWorld = t.toWorld.push s' ((staging x).label j c input st'))
    (hnone : asked (own j t.trace) = []) :
    asked (own j t'.trace) = asked [(staging x).label j c input st'] := by
  have htrace : t'.trace = t.trace ++ [(staging x).label j c input st'] := by
    rw [show t'.trace = t'.toWorld.trace from rfl, hworld, World.push_trace]
  have hown : own j (t.trace ++ [(staging x).label j c input st']) =
      own j t.trace ++ [(staging x).label j c input st'] :=
    own_append_self t.trace ((staging x).label j c input st')
  rw [htrace, hown, asked_append, hnone, List.nil_append]

/-- A call hands its event over once, after its save. -/
theorem asked_keeps : (staging x).Keeps Orderly
    (Staging.Histories fun _ _ st ls => st.Asked (asked ls)) := by
  apply Staging.histories_keeps
  · intro i c s s' st hbegins
    cases hbegins with
    | refused h => trivial
    | opened h => rfl
    | loads h => rfl
  -- a turn asks the next question of the call, or ends it
  · intro i c s st q k a s' st' ls hasked hnow hturn
    rw [asked_append]
    cases hturn with
    | stores hdecide =>
        rw [show asked ls = [] from hasked]
        change (entering x c.registry _ _).Asked (asked [(staging x).label i c _ _])
        unfold entering
        cases hkind : x.store (x.registry c.registry).store <;> rfl
    | stopped | failed | unrecorded | unloaded => trivial
    | found | saved | selected | inserted | updated | closed | loaded | reloaded =>
        rw [show asked ls = [] from hasked]
        rfl
    | recorded =>
        rw [show asked ls = _ from hasked]
        rfl

/-- The joint invariant, together with the events of every call. -/
theorem watched_operated (hsep : Separate x) {xs : List (RegistryStep ι)} (h : OrderlyRun x xs) :
    (staging x).Staged (fun w pool => Synced x w pool ∧
      Staging.Histories (fun _ _ st ls => st.Asked (asked ls)) w pool) (operated x xs) := by
  apply ((synced_keeps hsep).and asked_keeps).run_inv (staging_follows x) _ xs h
  refine ⟨fun _ => none, Staging.describes_init _, synced_init, ?_, fun _ _ => rfl⟩
  intro i c st hi
  cases hi

/-- A call that awaits the lock has decided on nothing yet. -/
theorem waiting_of_acquire {c : Call ι} {st : Stage} {l : ι}
    (h : (st.now x c.registry).stop = .awaiting (.acquire l)) (hupdate : c.update? x ≠ none)
    {s : Memory ι κ} (hfits : st.Fits x c s) : ∃ u, st = .waiting u := by
  cases st with
  | waiting u => exact ⟨u, rfl⟩
  | reloading loaded => exact absurd hfits.1 hupdate
  | _ => cases h

omit [DecidableEq ι] [DecidableEq κ] in
/-- The update of a registration. -/
theorem update_register {i : ι} {payload : Json.Fields}
    {tenantId organizationId workspaceId actorId correlationId : String} {now : Datetime}
    {entry : RegistryEntry} {u : Update}
    (hprepare : prepare x i payload tenantId organizationId workspaceId actorId correlationId now =
      .ok entry)
    (hupdate : (Call.register i payload tenantId organizationId workspaceId actorId correlationId
      now).update? x = some (.ok u)) : u.key = entry.key ∧ u.decide = decideRegister entry := by
  cases Call.opens hupdate with
  | register h =>
      rw [hprepare] at h
      cases h
      exact ⟨rfl, rfl⟩

/-- The call `th`, a registration of `entry`, awaits the lock, and the version
is registered already. -/
structure RegisteringAgain (x : Registries ι κ) (t : RegistrySys ι κ)
    (th : Thread (Call ι) (Memory ι κ) (Question ι) Answer RegistryError (Option RegistryEntry))
    (entry existing : RegistryEntry) : Prop where
  call : ∃ payload tenantId organizationId workspaceId actorId correlationId now,
    th.call = .register th.call.registry payload tenantId organizationId workspaceId actorId
      correlationId now ∧
    prepare x th.call.registry payload tenantId organizationId workspaceId actorId correlationId
      now = .ok entry
  stop : th.now.stop = .awaiting (.acquire th.call.registry)
  existing : (t.shared.entries th.call.registry).get? entry.key = some existing

/-- What becomes of a registration of a version that is registered already, in
the step in which it takes the lock. -/
structure RegistersAgain (t t' : RegistrySys ι κ) (j : ℕ) (c : Call ι)
    (entry existing : RegistryEntry) : Prop where
  unchanged : t'.shared = t.shared
  /-- The existing entry is returned, and no event has been handed over. -/
  same : entry.payload.Same existing.payload →
    t'.threads j = some ⟨c, .returned (some existing)⟩ ∧ asked (own j t'.trace) = []
  different : ¬ entry.payload.Same existing.payload →
    t'.threads j =
      some ⟨c, .raised (.conflict "immutable registry version already exists")⟩

/-- In a run without collisions, a version that stands under the key of a registration
has its digest just when it has its payload. -/
theorem RegisteringAgain.digest_eq_iff (hsep : Separate x) {xs : List (RegistryStep ι)}
    (hcollision : CollisionFree x xs) (h : OrderlyRun x xs) {j : ℕ}
    {th : Thread (Call ι) (Memory ι κ) (Question ι) Answer RegistryError (Option RegistryEntry)}
    {entry existing : RegistryEntry} (hth : (operated x xs).threads j = some th)
    (hagain : RegisteringAgain x (operated x xs) th entry existing) :
    existing.digest = entry.digest ↔ entry.payload.Same existing.payload := by
  rcases hagain with ⟨⟨payload, tenantId, organizationId, workspaceId, actorId, correlationId, now,
    hcall, hprepare⟩, -, hexisting⟩
  obtain ⟨subjectId, version, rfl⟩ := prepare_ok hprepare
  rw [digest_run hsep h hexisting]
  constructor
  · -- both payloads are registered in the run
    intro heq
    have hregistered := (run_started (Call.prog x) Memory.empty xs).threads j th hth
    rw [hcall] at hregistered
    exact hcollision _ _ ⟨j, _, _, _, _, _, _, _, hregistered⟩
      (registeredIn_run hsep h hexisting) heq.symm
  · intro hsame
    exact congrArg x.sha256 (Json.dumps_eq_iff.2 hsame).symm

/-- Registering the payload of a version again gives that version back. -/
theorem registers_again (hsep : Separate x) {xs : List (RegistryStep ι)}
    (hcollision : CollisionFree x xs) {j : ℕ} {reply : (q : Question ι) → Answer q}
    (h : OrderlyRun x (xs ++ [.resume j reply]))
    {th : Thread (Call ι) (Memory ι κ) (Question ι) Answer RegistryError (Option RegistryEntry)}
    {entry existing : RegistryEntry} (hth : (operated x xs).threads j = some th)
    (hagain : RegisteringAgain x (operated x xs) th entry existing) :
    RegistersAgain (operated x xs) (operated x (xs ++ [.resume j reply])) j th.call entry
      existing := by
  have hpre : OrderlyRun x xs := Along.of_append h
  have hdigest := hagain.digest_eq_iff hsep hcollision hpre hth
  rcases hagain with ⟨⟨payload, tenantId, organizationId, workspaceId, actorId, correlationId, now,
    hcall, hprepare⟩, hstop, hexisting⟩
  rcases watched_operated hsep hpre with ⟨pool, hpool, hsynced, hhistories⟩
  -- the call is at the stage `waiting`
  rcases hpool.stage hth with ⟨st, hj, hnow⟩
  rw [hnow] at hstop
  have hfits := hsynced.fits j _ _ hj
  have hne : th.call.update? x ≠ none := by
    rw [hcall]
    simp [Call.update?]
  rcases waiting_of_acquire hstop hne hfits with ⟨u, rfl⟩
  have hupdate : th.call.update? x = some (.ok u) := hfits
  rw [hcall] at hupdate
  obtain ⟨hkey, hdecide⟩ := update_register hprepare hupdate
  have hfound : ((operated x xs).shared.entries th.call.registry).get? u.key = some existing := by
    rw [hkey, hexisting]
  have hfree : (operated x xs).shared.locked th.call.registry = false := by
    have horderly := h xs (.resume j reply) [] rfl
    apply horderly.granted th hth
    rw [hnow]
    exact hstop
  -- the segment that the lock lets run
  rcases hpool.resume (staging_follows x) hj rfl reply with ⟨s', st', hturn, hpool', hworld⟩
  rw [operated_snoc]
  have hthread := hpool'.thread_some (Pool.put_self ..)
  have hasked := asked_push hworld (hhistories.started j _ _ hj)
  have hshared : (next (Call.prog x) (operated x xs) (.resume j reply)).shared = s' :=
    congrArg World.shared hworld
  cases hturn with
  | stopped hstopped =>
      rw [hfound, hdecide] at hstopped
      by_cases heq : existing.digest = entry.digest
      · simp [decideRegister, heq] at hstopped
      · simp only [decideRegister, heq, if_false, Except.error.injEq] at hstopped
        subst hstopped
        refine ⟨hshared.trans (Memory.setLocked_eq_self hfree), ?_, fun _ => hthread⟩
        intro hsame
        exact absurd (hdigest.2 hsame) heq
  | found hreturned =>
      rw [hfound, hdecide] at hreturned
      by_cases heq : existing.digest = entry.digest
      · simp only [decideRegister, heq, if_true, Except.ok.injEq, Locked.found.injEq] at hreturned
        subst hreturned
        refine ⟨hshared.trans (Memory.setLocked_eq_self hfree), fun _ => ⟨hthread, hasked⟩, ?_⟩
        intro hdifferent
        exact absurd (hdigest.1 heq) hdifferent
      · simp [decideRegister, heq] at hreturned
  | stores hstored =>
      rw [hfound, hdecide] at hstored
      cases (decideRegister_stored hstored).1
  | failed hst => cases hst

/-! ## Every run -/

/-- The law of the versions along the steps `xs`. -/
structure Lawful (x : Registries ι κ) (xs : List (RegistryStep ι)) : Prop where
  /-- Content never changes, and states go forward. -/
  evolves : ∀ pre post, xs = pre ++ post → ∀ i key entry,
    ((operated x pre).shared.entries i).get? key = some entry →
    ∃ entry', ((operated x xs).shared.entries i).get? key = some entry' ∧ entry.Evolves entry'
  /-- A version changes only by the call that moves it. -/
  changes : ∀ pre step post, xs = pre ++ step :: post → ∀ i key,
    ((operated x (pre ++ [step])).shared.entries i).get? key =
      ((operated x pre).shared.entries i).get? key ∨
    ∃ j reply th, step = .resume j reply ∧ (operated x pre).threads j = some th ∧
      Changes th.call i key (((operated x pre).shared.entries i).get? key)
        (((operated x (pre ++ [step])).shared.entries i).get? key)
  /-- A version is registered once, as far as digests tell payloads apart. -/
  once : CollisionFree x xs → ∀ pre j reply post, xs = pre ++ .resume j reply :: post →
    ∀ th entry existing, (operated x pre).threads j = some th →
    RegisteringAgain x (operated x pre) th entry existing →
    RegistersAgain (operated x pre) (operated x (pre ++ [.resume j reply])) j th.call entry existing

/-- The lifecycle of every version, in every run. -/
theorem registry_lawful (hsep : Separate x) {xs : List (RegistryStep ι)} (h : OrderlyRun x xs) :
    Lawful x xs where
  evolves := by
    rintro pre post rfl i key entry hentry
    exact evolves_run hsep h hentry
  changes := by
    intro pre step post hxs i key
    have hpre : OrderlyRun x pre := h.of_prefix ⟨step :: post, hxs.symm⟩
    rw [operated_snoc]
    exact (dict_step (synced_operated hsep hpre) step i).changes key
  once := by
    intro hcollision pre j reply post hxs th entry existing hth hagain
    have hpre : OrderlyRun x (pre ++ [.resume j reply]) := h.of_prefix ⟨post, by simp [hxs]⟩
    subst hxs
    exact registers_again hsep hcollision.of_append hpre hth hagain

end Runs

/-! ## A version that is saved at the second attempt -/

def skillPayload (name : String) : Json.Fields :=
  [("skill_id", .str "skill.registry.atomicity"), ("skill_version", .str "1.0.0"),
    ("name", .str name)]

/-- `hashlib.sha256(text.encode()).hexdigest()` of the texts of two payloads. -/
def atomicityDigest (text : String) : String :=
  if text = Json.dumps (.obj (skillPayload "Registry atomicity")) then
    "849997d1489bca3ca450e6166df7c0b7a1db598535cd121700d8c9bbc4aad99d"
  else if text = Json.dumps (.obj (skillPayload "Registry atomicity changed")) then
    "e38b429e52a87fcf6ea7cf0789a2d1bf6653297f4a90584ff10b785056ce9564"
  else ""

/-- Skills alone, in memory, with a catalog that accepts every payload. -/
def atomicity : Registries Unit Unit where
  contracts := ⟨fun _ => true, fun _ _ => none⟩
  sha256 := atomicityDigest
  repr := Json.dumps
  registry := fun _ => skillRegistry ()
  store := fun _ => .inMemory

/-- The registration of the skill under a given name. -/
def registerNamedSkill (name : String) : Call Unit :=
  .register () (skillPayload name) "tenant_atomicity" "organization_atomicity"
    "workspace_atomicity" "actor_atomicity" "corr_atomicity" 0

/-- The registration that the attempts repeat. -/
def registerSkill : Call Unit :=
  registerNamedSkill "Registry atomicity"

/-- The store answers with `saved`, everything else succeeds. -/
def answering (saved : Stored) : (q : Question Unit) → Answer q
  | .acquire _ => ()
  | .save => saved
  | .execute => .returned
  | .commit => .returned
  | .close => ()
  | .load => .returned
  | .append _ => .returned

/-- A save that fails, the registration, the registration again, and another payload. -/
def attempts : List (RegistryStep Unit) :=
  [.call 0 registerSkill, .resume 0 (answering .raised), .resume 0 (answering .raised),
    .call 1 registerSkill, .resume 1 (answering .returned), .resume 1 (answering .returned),
    .resume 1 (answering .returned), .call 2 registerSkill, .resume 2 (answering .returned),
    .call 3 (registerNamedSkill "Registry atomicity changed"), .resume 3 (answering .returned)]

/-- The two payloads of the run have different digests. -/
theorem collisionFree_attempts : CollisionFree atomicity attempts := by
  have hpayload : ∀ payload, RegisteredIn attempts payload →
      payload = skillPayload "Registry atomicity" ∨
        payload = skillPayload "Registry atomicity changed" := by
    rintro payload ⟨j, i, tenantId, organizationId, workspaceId, actorId, correlationId, now, h⟩
    simp only [attempts, registerSkill, registerNamedSkill, List.mem_cons, Step.call.injEq,
      Call.register.injEq, reduceCtorEq, List.not_mem_nil, or_false, false_or] at h
    rcases h with ⟨-, -, h, -⟩ | ⟨-, -, h, -⟩ | ⟨-, -, h, -⟩ | ⟨-, -, h, -⟩
    · exact .inl h
    · exact .inl h
    · exact .inl h
    · exact .inr h
  -- the two digests are computed
  have hne : digest atomicity (skillPayload "Registry atomicity") ≠
      digest atomicity (skillPayload "Registry atomicity changed") := by
    decide +kernel
  intro p q hp hq hdigest
  rcases hpayload p hp with rfl | rfl <;> rcases hpayload q hq with rfl | rfl
  · rfl
  · exact absurd hdigest hne
  · exact absurd hdigest.symm hne
  · rfl

/-- The law on a failed save, a registration, its repetition and a conflict. -/
theorem registry_lawful_attempts :
    Lawful atomicity attempts ∧ CollisionFree atomicity attempts := by
  refine ⟨registry_lawful ?_ ?_, collisionFree_attempts⟩
  · exact fun _ _ _ _ => rfl
  · have hgranted : Along (Call.prog atomicity) (locks Unit Unit).Granted (init .empty) attempts := by
      decide +kernel
    intro pre step post hxs
    refine ⟨hgranted pre step post hxs, hydratesAlone_of_none ?_ pre step post hxs⟩
    simp [attempts, registerSkill, registerNamedSkill]

end Alos.Registry
