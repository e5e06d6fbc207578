import Alos.Registry.Reads
import Alos.Registry.Shared

/-! # Agents and skills over one store in memory

The agent registry and the skill registry share an `InMemoryRegistryStore`
whose saves may fail. Dicts, rows and the audit trail stay in step.

* `Unsuspended` is what a store without awaits means for a run: a call that
  waits for it, or for a lock that is free, goes on at once;
* `Mirrored` says that every dict is what a hydration would make it;
* `CallLog` lists the segments that a call can have had;
* `platform_atomic` is the result.
-/

namespace Alos.Registry

open Coop Py

section Mirror

variable {ι κ : Type}

/-- The answer comes without a suspension. -/
def Immediate (s : Memory ι κ) : Question ι → Prop
  | .save | .load => True
  | .acquire i => s.locked i = false
  | _ => False

instance (s : Memory ι κ) : (q : Question ι) → Decidable (Immediate s q)
  | .save | .load => isTrue trivial
  | .acquire i => inferInstanceAs (Decidable (s.locked i = false))
  | .execute | .commit | .close | .append _ => isFalse fun h => h

/-- A call that awaits such an answer goes on before anything else. -/
def Unsuspended (t : RegistrySys ι κ) (step : RegistryStep ι) : Prop :=
  ∀ j, ∀ th ∈ t.threads j, ∀ q ∈ th.now.stop.question?, Immediate t.shared q →
    step.resumed? = some j

/-- The call is neither over nor at the append of its event. -/
def Stage.Busy : Stage → Prop
  | .recording _ _ | .recorded _ _ | .returned _ | .raised _ => False
  | _ => True

variable (x : Registries ι κ)

/-- What is known at a stage, where every store is in memory. -/
def Stage.Mirrors (c : Call ι) (s : Memory ι κ) : Stage → Prop
  | .waiting u => c.update? x = some (.ok u)
  | .saving _ entry => entry.subjectType = (x.registry c.registry).subjectType
  | .selecting _ _ | .committing _ _ _ | .closing _ _ => False
  | .reloading loaded =>
      loaded = s.load (x.registry c.registry).store (x.registry c.registry).subjectType
  | _ => True

/-- Every dict is what a hydration would make it, and one call at most is
busy. -/
structure Mirrored (w : RegistryWorld ι κ) (pool : RegistryPool ι) : Prop where
  stages : ∀ j c st, pool j = some (c, st) → st.Mirrors x c w.shared
  alone : ∀ j k c d st u, pool j = some (c, st) → pool k = some (d, u) → st.Busy → u.Busy → j = k
  held : ∀ i, w.shared.locked i = true →
    ∃ j c u entry, pool j = some (c, .saving u entry) ∧ c.registry = i
  dict : ∀ i, view x w.shared i = w.shared.entries i

variable {x} {w : RegistryWorld ι κ} {pool : RegistryPool ι} {c : Call ι} {st : Stage} {j : ℕ}

theorem mirrored_init : Mirrored x (⟨.empty, []⟩ : RegistryWorld ι κ) fun _ => none where
  stages := by
    intro j c st hj
    cases hj
  alone := by
    intro j k c d st u hj
    cases hj
  held := by
    intro i hi
    cases hi
  dict := fun _ => rfl

/-- What is known of a call that is not busy does not depend on the state. -/
theorem Stage.Mirrors.idle {s s' : Memory ι κ} (h : st.Mirrors x c s) (hbusy : ¬ st.Busy) :
    st.Mirrors x c s' := by
  cases st with
  | recording | recorded | returned | raised => trivial
  | _ => exact absurd trivial hbusy

variable [DecidableEq ι] [DecidableEq κ] {s' : Memory ι κ} {st' : Stage}
  {y : Exchange (Question ι) Answer}

/-- A busy call goes on at once. -/
theorem Mirrored.immediate (h : Mirrored x w pool) (hj : pool j = some (c, st)) (hbusy : st.Busy) :
    ∃ q ∈ (st.now x c.registry).stop.question?, Immediate w.shared q := by
  -- nobody else holds a lock
  have hfree : (∀ u entry, st ≠ .saving u entry) → ∀ i, w.shared.locked i = false := by
    intro hst i
    by_contra hlocked
    rcases h.held i (by simpa using hlocked) with ⟨k, d, u, entry, hk, -⟩
    obtain rfl := h.alone j k c d st _ hj hk hbusy trivial
    rw [hj] at hk
    cases hk
    exact hst u entry rfl
  cases st with
  | waiting u => exact ⟨_, rfl, hfree (by simp) _⟩
  | saving u entry => exact ⟨_, rfl, trivial⟩
  | loading => exact ⟨_, rfl, trivial⟩
  | reloading loaded => exact ⟨_, rfl, hfree (by simp) _⟩
  | selecting => exact (h.stages j c _ hj).elim
  | committing => exact (h.stages j c _ hj).elim
  | closing => exact (h.stages j c _ hj).elim
  | _ => exact hbusy.elim

/-- What the call knows at its new stage. -/
theorem Mirrored.stage_turn (hmemory : ∀ k, x.store k = .inMemory) (h : Mirrored x w pool)
    (hj : pool j = some (c, st)) (hturn : Turn x c.registry w.shared st y s' st') :
    st'.Mirrors x c s' := by
  have hstage := h.stages j c st hj
  cases hturn with
  | @stores u entry hdecide =>
      unfold entering
      rw [hmemory]
      -- what the cache holds under the key is of the registry's own type
      have hfound : ∀ old, (w.shared.entries c.registry).get? u.key = some old →
          old.key = u.key := fun old hold => Table.key_of_get? hold
      apply (Call.stores hstage hfound hdecide).subjectType
      intro old hold
      have hmem := Table.mem_of_get? hold
      rw [← h.dict, view_values] at hmem
      simpa using (List.mem_filter.1 hmem).2
  | selected => exact hstage
  | inserted => exact hstage
  | updated => exact hstage
  | loaded => exact rfl
  | _ => trivial

/-- The dicts and the rows after a turn. -/
theorem Mirrored.dict_turn (hsep : Separate x) (h : Mirrored x w pool)
    (hj : pool j = some (c, st)) (hturn : Turn x c.registry w.shared st y s' st') (i : ι) :
    view x s' i = s'.entries i := by
  have hstage := h.stages j c st hj
  cases hturn with
  | @saved u entry =>
      rw [Memory.setLocked_entries, Memory.putEntry_entries]
      -- the save puts the entry into the cache of its registry and into no other
      by_cases hi : i = c.registry
      · subst hi
        rw [Function.update_self]
        exact (view_putRow w.shared c.registry entry hstage).trans
          (congrArg (·.put entry) (h.dict c.registry))
      · rw [Function.update_of_ne hi, Memory.putRow_entries, ← h.dict i]
        exact congrArg _ (load_putRow _ fun hstore htype =>
          hi (hsep i c.registry hstore (htype.symm.trans hstage)))
  | inserted => exact hstage.elim
  | updated => exact hstage.elim
  | closed => exact hstage.elim
  | @reloaded loaded =>
      rw [Memory.setLocked_entries, Memory.setEntries_entries, show loaded = _ from hstage]
      rw [show Table.ofList _ = view x w.shared c.registry from rfl, h.dict,
        Function.update_eq_self]
      exact h.dict i
  | _ => exact h.dict i

/-- A call that is not busy changes nothing. -/
theorem Turn.idle (hturn : Turn x c.registry w.shared st y s' st') (hbusy : ¬ st.Busy) :
    s' = w.shared ∧ ¬ st'.Busy := by
  cases hturn with
  | recorded => exact ⟨rfl, fun h => h⟩
  | unrecorded => exact ⟨rfl, fun h => h⟩
  | failed hst => exact absurd (by cases st <;> trivial) hbusy
  | _ => exact absurd trivial hbusy

/-- The locks after the turn of a busy call: its own, if it saves now. -/
theorem Mirrored.locked_turn (h : Mirrored x w pool) (hj : pool j = some (c, st))
    (hbusy : st.Busy) (hmemory : ∀ k, x.store k = .inMemory)
    (hturn : Turn x c.registry w.shared st y s' st') {i : ι} (hi : s'.locked i = true) :
    i = c.registry ∧ ∃ u entry, st' = .saving u entry := by
  -- no lock but that of the call was held before
  have hold : w.shared.locked i = true → i = c.registry ∧ ∃ u entry, st = .saving u entry := by
    intro hlocked
    rcases h.held i hlocked with ⟨k, d, u, entry, hk, hregistry⟩
    obtain rfl := h.alone j k c d st _ hj hk hbusy trivial
    rw [hj] at hk
    cases hk
    exact ⟨hregistry.symm, u, entry, rfl⟩
  have hreleased : ∀ s : Memory ι κ, s.locked = w.shared.locked →
      (s.setLocked c.registry false).locked i = true → False := by
    intro s hs hlocked
    rw [Memory.setLocked_locked, hs] at hlocked
    by_cases hne : i = c.registry
    · subst hne
      simp at hlocked
    · rw [Function.update_of_ne hne] at hlocked
      exact hne (hold hlocked).1
  have hstage := h.stages j c st hj
  cases hturn with
  | stores hdecide =>
      unfold entering
      rw [hmemory]
      refine ⟨?_, _, _, rfl⟩
      by_contra hne
      rw [Memory.setLocked_locked, Function.update_of_ne hne] at hi
      exact hne (hold hi).1
  | stopped | found | failed => exact (hreleased _ rfl hi).elim
  | saved => exact (hreleased _ rfl hi).elim
  | reloaded => exact (hreleased _ rfl hi).elim
  | closed => exact hstage.elim
  | selected | inserted | updated => exact hstage.elim
  | recorded | unrecorded => exact hbusy.elim
  | unloaded | loaded =>
      obtain ⟨-, u, entry, hst⟩ := hold hi
      cases hst

theorem mirrored_keeps (hsep : Separate x) (hmemory : ∀ k, x.store k = .inMemory) :
    (staging x).Keeps Unsuspended (Mirrored x) where
  start := by
    intro t pool i c s' st hpool h hP hi hbegins
    have hs : s' = t.shared := by
      cases hbegins <;> rfl
    subst hs
    -- nobody is busy, else it would go on
    have hquiet : ∀ k d u, pool k = some (d, u) → ¬ u.Busy := by
      intro k d u hk hbusy
      rcases h.immediate hk hbusy with ⟨q, hq, himmediate⟩
      cases hP k _ (hpool.thread_some hk) q hq himmediate
    refine ⟨?_, ?_, ?_, h.dict⟩
    · intro j d u hj
      rcases Pool.put_eq_some.1 hj with ⟨rfl, rfl, rfl⟩ | ⟨hne, hj⟩
      · cases hbegins with
        | refused hupdate => trivial
        | opened hupdate => exact hupdate
        | loads hupdate => trivial
      · exact h.stages j d u hj
    · intro j k d e u v hj hk hu hv
      rcases Pool.put_eq_some.1 hj with ⟨rfl, -, -⟩ | ⟨-, hj⟩
      · rcases Pool.put_eq_some.1 hk with ⟨rfl, -, -⟩ | ⟨-, hk⟩
        · rfl
        · exact absurd hv (hquiet k e v hk)
      · exact absurd hu (hquiet j d u hj)
    · intro l hl
      rcases h.held l hl with ⟨k, d, u, entry, hk, -⟩
      exact absurd trivial (hquiet k d _ hk)
  turn := by
    intro t pool i reply c st q k a s' st' hpool h hP hi hnow hreply hturn
    by_cases hbusy : st.Busy
    · -- the call was the only one that was busy
      have hothers : ∀ k d u, k ≠ i → pool k = some (d, u) → ¬ u.Busy :=
        fun k d u hne hk hu => hne (h.alone k i d c u st hk hi hu hbusy)
      refine ⟨?_, ?_, ?_, h.dict_turn hsep hi hturn⟩
      · intro j d u hj
        rcases Pool.put_eq_some.1 hj with ⟨rfl, rfl, rfl⟩ | ⟨hne, hj⟩
        · exact h.stage_turn hmemory hi hturn
        · exact (h.stages j d u hj).idle (hothers j d u hne hj)
      · intro j k d e u v hj hk hu hv
        rcases Pool.put_eq_some.1 hj with ⟨rfl, -, -⟩ | ⟨hnej, hj⟩
        · rcases Pool.put_eq_some.1 hk with ⟨rfl, -, -⟩ | ⟨hnek, hk⟩
          · rfl
          · exact absurd hv (hothers k e v hnek hk)
        · exact absurd hu (hothers j d u hnej hj)
      · intro l hl
        rcases h.locked_turn hi hbusy hmemory hturn hl with ⟨rfl, u, entry, rfl⟩
        exact ⟨i, c, u, entry, Pool.put_self .., rfl⟩
    · obtain ⟨rfl, hbusy'⟩ := Turn.idle hturn hbusy
      have hold : ∀ j d u, pool.put i c st' j = some (d, u) → u.Busy → pool j = some (d, u) := by
        intro j d u hj hu
        rcases Pool.put_eq_some.1 hj with ⟨rfl, rfl, rfl⟩ | ⟨-, hj⟩
        · exact absurd hu hbusy'
        · exact hj
      refine ⟨?_, ?_, ?_, h.dict⟩
      · intro j d u hj
        rcases Pool.put_eq_some.1 hj with ⟨rfl, rfl, rfl⟩ | ⟨hne, hj⟩
        · exact h.stage_turn hmemory hi hturn
        · exact h.stages j d u hj
      · intro j k d e u v hj hk hu hv
        exact h.alone j k d e u v (hold j d u hj hu) (hold k e v hk hv) hu hv
      · intro l hl
        rcases h.held l hl with ⟨k, d, u, entry, hk, hregistry⟩
        refine ⟨k, d, u, entry, ?_, hregistry⟩
        rw [Pool.put_of_ne]
        · exact hk
        · rintro rfl
          rw [hi] at hk
          cases hk
          exact hbusy trivial

/-- Dicts and rows change only when an entry is saved. -/
theorem Mirrored.frame (h : Mirrored x w pool) (hj : pool j = some (c, st))
    (hturn : Turn x c.registry w.shared st y s' st') :
    (s'.entries = w.shared.entries ∧ s'.rows = w.shared.rows) ∨ y = ⟨.save, .returned⟩ := by
  have hstage := h.stages j c st hj
  -- only a save and a reload change a cache
  cases hturn with
  | saved => exact .inr rfl
  | inserted => exact hstage.elim
  | updated => exact hstage.elim
  | closed => exact hstage.elim
  | @reloaded loaded =>
      refine .inl ⟨?_, rfl⟩
      rw [Memory.setLocked_entries, Memory.setEntries_entries, show loaded = _ from hstage]
      rw [show Table.ofList _ = view x w.shared c.registry from rfl, h.dict,
        Function.update_eq_self]
  | _ => exact .inl ⟨rfl, rfl⟩

/-- The other registries keep their dicts and would load what they would have
loaded. -/
theorem Mirrored.others (hsep : Separate x) (h : Mirrored x w pool) (hj : pool j = some (c, st))
    (hturn : Turn x c.registry w.shared st y s' st') {i : ι} (hi : i ≠ c.registry) :
    s'.entries i = w.shared.entries i ∧
      s'.load (x.registry i).store (x.registry i).subjectType =
        w.shared.load (x.registry i).store (x.registry i).subjectType := by
  have hstage := h.stages j c st hj
  -- the other registries have other types, so their rows are not touched
  cases hturn with
  | @saved u entry =>
      refine ⟨?_, ?_⟩
      · rw [Memory.setLocked_entries, Memory.putEntry_entries, Function.update_of_ne hi]
        rfl
      · exact load_putRow _ fun hstore htype =>
          hi (hsep i c.registry hstore (htype.symm.trans hstage))
  | inserted => exact hstage.elim
  | updated => exact hstage.elim
  | closed => exact hstage.elim
  | reloaded =>
      refine ⟨?_, rfl⟩
      rw [Memory.setLocked_entries, Memory.setEntries_entries, Function.update_of_ne hi]
  | _ => exact ⟨rfl, rfl⟩

end Mirror

/-! ## The segments of a call -/

section Logs

variable {ι κ : Type} (j : ℕ) (c : Call ι)

/-- The call asks for the lock. -/
def opening : List (RegistryLabel ι) := [⟨j, c, .start, .awaiting (.acquire c.registry)⟩]

/-- It finds its version registered. -/
def foundLog (existing : RegistryEntry) : List (RegistryLabel ι) :=
  opening j c ++ [⟨j, c, .answer ⟨.acquire c.registry, ()⟩, .returned (some existing)⟩]

/-- It takes the lock and has its entry saved. -/
def saves : List (RegistryLabel ι) :=
  opening j c ++ [⟨j, c, .answer ⟨.acquire c.registry, ()⟩, .awaiting .save⟩]

def failedLog : List (RegistryLabel ι) :=
  saves j c ++ [⟨j, c, .answer ⟨.save, .raised⟩, .raised .store⟩]

/-- The entry is saved, then its event is appended. -/
def recordingLog (event : AuditEvent) : List (RegistryLabel ι) :=
  saves j c ++ [⟨j, c, .answer ⟨.save, .returned⟩, .awaiting (.append event)⟩]

def savedLog (event : AuditEvent) (entry : RegistryEntry) : List (RegistryLabel ι) :=
  recordingLog j c event ++
    [⟨j, c, .answer ⟨.append event, .returned⟩, .returned (some entry)⟩]

/-- The event of an update. -/
def Update.event (u : Update) (entry : RegistryEntry) : AuditEvent :=
  auditEvent entry u.actorId u.eventType u.outcome

/-- The segments that a call at a stage has had, where every store is in
memory. -/
inductive CallLog (x : Registries ι κ) : Stage → List (RegistryLabel ι) → Prop where
  | refused {e} : CallLog x (.raised e) [⟨j, c, .start, .raised e⟩]
  | waiting {u} (h : c.update? x = some (.ok u)) : CallLog x (.waiting u) (opening j c)
  | stopped {e} : CallLog x (.raised e)
      (opening j c ++ [⟨j, c, .answer ⟨.acquire c.registry, ()⟩, .raised e⟩])
  | found {existing} (h : c.payload? ≠ none) :
      CallLog x (.returned (some existing)) (foundLog j c existing)
  | saving {u entry} (h : c.update? x = some (.ok u)) : CallLog x (.saving u entry) (saves j c)
  | failed : CallLog x (.raised .store) (failedLog j c)
  | recording {u entry} (h : c.update? x = some (.ok u)) :
      CallLog x (.recording u entry) (recordingLog j c (u.event entry))
  | recorded {u entry} (h : c.update? x = some (.ok u)) :
      CallLog x (.recorded u entry) (savedLog j c (u.event entry) entry)
  | unrecorded {event} : CallLog x (.raised .audit) (recordingLog j c event ++
      [⟨j, c, .answer ⟨.append event, .raised⟩, .raised .audit⟩])
  | hydrating {st ls} (h : c.update? x = none)
      (hst : st = .loading ∨ (∃ loaded, st = .reloading loaded) ∨ st = .returned none ∨
        st = .raised .store)
      (hls : ∀ l ∈ ls, ∀ answer, l.input ≠ .answer ⟨.save, answer⟩) : CallLog x st ls

/-- Only a registration finds its version. -/
theorem payload_of_found {x : Registries ι κ} {c : Call ι} {u : Update}
    {found : Option RegistryEntry} {existing : RegistryEntry} (h : c.update? x = some (.ok u))
    (hdecide : u.decide found = .ok (.found existing)) : c.payload? ≠ none := by
  cases Call.opens h with
  | register => simp [Call.payload?]
  | approve hauthority => exact absurd hdecide decideTransition_ne_found
  | activate => exact absurd hdecide decideTransition_ne_found
  | suspend => exact absurd hdecide decideTransition_ne_found

variable [DecidableEq ι] [DecidableEq κ] {x : Registries ι κ} {P : RegistrySys ι κ →
  RegistryStep ι → Prop}

theorem callLog_keeps (hmemory : ∀ k, x.store k = .inMemory) :
    (staging x).Keeps P (Staging.Histories fun j c st ls => CallLog j c x st ls) := by
  apply Staging.histories_keeps
  · intro i c s s' st hbegins
    cases hbegins with
    | refused h => exact .refused
    | opened h => exact .waiting h
    | loads h => exact .hydrating h (.inl rfl) (by simp [Staging.label])
  · intro i c s st q k a s' st' ls hlog hnow hturn
    cases hlog with
    | @waiting u h =>
        cases hturn with
        | stopped hdecide => exact .stopped
        | found hdecide => exact .found (payload_of_found h hdecide)
        | @stores _ entry hdecide =>
            -- the in-memory store has a single step
            have hentering : entering x c.registry u entry = .saving u entry := by
              rw [entering, hmemory]
            rw [hentering]
            exact .saving h
        | failed hst => cases hst
    | saving h =>
        cases hturn with
        | failed hst hy =>
            cases hnow
            cases a with
            | returned => exact absurd rfl hy
            | raised => exact .failed
        | saved => exact .recording h
    | recording h =>
        cases hnow
        cases hturn with
        | failed hst => cases hst
        | recorded => exact .recorded h
        | unrecorded => exact .unrecorded
    | hydrating h hst hls =>
        -- a hydration saves nothing
        have hlabel : ∀ st', q ≠ .save → ∀ l ∈ ls ++ [(staging x).label i c (.answer ⟨q, a⟩) st'],
            ∀ answer, l.input ≠ .answer ⟨.save, answer⟩ := by
          intro st' hq l hl answer hinput
          rcases List.mem_append.1 hl with hl | hl
          · exact hls l hl answer hinput
          · obtain rfl := List.mem_singleton.1 hl
            cases hinput
            exact hq rfl
        rcases hst with rfl | ⟨loaded, rfl⟩ | rfl | rfl
        · cases hturn with
          | failed hst => cases hst
          | unloaded => exact .hydrating h (by simp) (hlabel _ (by simp))
          | loaded => exact .hydrating h (by simp) (hlabel _ (by simp))
        · cases hturn with
          | failed hst => cases hst
          | reloaded => exact .hydrating h (by simp) (hlabel _ (by simp))
        · cases hnow
        · cases hnow
    | refused | stopped | found | failed | recorded | unrecorded => cases hnow

end Logs

/-! ## The platform -/

/-- The reads of a registry give the same results. -/
structure SameReads (entries entries' : Table RegistryEntry.key) : Prop where
  get : ∀ key, Registry.get entries' key = Registry.get entries key
  listEntries : ∀ tenantId organizationId workspaceId subjectId,
    Registry.listEntries entries' tenantId organizationId workspaceId subjectId =
      Registry.listEntries entries tenantId organizationId workspaceId subjectId
  listAuthorizedEntries : ∀ principal,
    Registry.listAuthorizedEntries entries' principal =
      Registry.listAuthorizedEntries entries principal
  latestEntry : ∀ tenantId organizationId workspaceId subjectId,
    Registry.latestEntry entries' tenantId organizationId workspaceId subjectId =
      Registry.latestEntry entries tenantId organizationId workspaceId subjectId

theorem SameReads.of_eq {entries entries' : Table RegistryEntry.key} (h : entries' = entries) :
    SameReads entries entries' := by
  subst h
  exact ⟨fun _ => rfl, fun _ _ _ _ => rfl, fun _ => rfl, fun _ _ _ _ => rfl⟩

/-- The events that the registries append. -/
def registryEvents : List String :=
  ["registry.version.created", "registry.version.approved", "registry.version.activated",
    "registry.version.suspended"]

theorem event_mem {ι κ : Type} {x : Registries ι κ} {c : Call ι} {u : Update}
    (h : c.update? x = some (.ok u)) : u.eventType ∈ registryEvents := by
  cases Call.opens h <;> simp [registryEvents]

section Runs

variable {ι κ : Type} [DecidableEq ι] [DecidableEq κ] (x : Registries ι κ)

/-- Dicts, rows and audit trail are in step along the steps `xs`. -/
structure Atomic (xs : List (RegistryStep ι)) : Prop where
  /-- A hydration changes no read. -/
  hydrated : ∀ i env j, SameReads ((operated x xs).shared.entries j)
    (((Registry.hydrate x i).alone env (operated x xs).shared).state.entries j)
  /-- A call whose save raises changes nothing and appends nothing. -/
  failed : ∀ j, (∃ l ∈ own j (operated x xs).trace, l.input = .answer ⟨.save, .raised⟩) →
    asked (own j (operated x xs).trace) = [] ∧
    ∀ pre step post, xs = pre ++ step :: post → step.thread = j →
      (operated x (pre ++ [step])).shared.entries = (operated x pre).shared.entries ∧
      (operated x (pre ++ [step])).shared.rows = (operated x pre).shared.rows
  /-- A call that succeeds found its version registered, or appended one event
  after its save. -/
  recorded : ∀ j th entry, (operated x xs).threads j = some th →
    th.now.stop = .returned (some entry) →
    (th.call.payload? ≠ none ∧ own j (operated x xs).trace = foundLog j th.call entry) ∨
    ∃ u, th.call.update? x = some (.ok u) ∧ u.eventType ∈ registryEvents ∧
      own j (operated x xs).trace = savedLog j th.call (u.event entry) entry
  /-- The other registry sees nothing of a step. -/
  apart : ∀ pre step post, xs = pre ++ step :: post → ∀ th,
    (operated x (pre ++ [step])).threads step.thread = some th → ∀ i, th.call.registry ≠ i →
      (operated x (pre ++ [step])).shared.entries i = (operated x pre).shared.entries i ∧
      (operated x (pre ++ [step])).shared.load (x.registry i).store (x.registry i).subjectType =
        (operated x pre).shared.load (x.registry i).store (x.registry i).subjectType

variable {x}

omit [DecidableEq κ] in
/-- A hydration that nothing interferes with makes the dict its view. -/
theorem hydrate_alone (i : ι) (env : Env (Question ι) Answer) (s : Memory ι κ)
    (h : view x s i = s.entries i) :
    ((Registry.hydrate x i).alone env s).state.entries = s.entries := by
  have hset : Function.update s.entries i (view x s i) = s.entries := by
    rw [h, Function.update_eq_self]
  change (Proc.alone (.await .load _) env s).state.entries = s.entries
  simp only [Proc.alone]
  cases env 0 .load with
  | raised => rfl
  | returned => exact hset

theorem mirrored_operated (hsep : Separate x) (hmemory : ∀ k, x.store k = .inMemory)
    {xs : List (RegistryStep ι)} (h : Along (Call.prog x) Unsuspended (init .empty) xs) :
    (staging x).Staged (fun w pool => Mirrored x w pool ∧
      Staging.Histories (fun j c st ls => CallLog j c x st ls) w pool) (operated x xs) := by
  apply ((mirrored_keeps hsep hmemory).and (callLog_keeps hmemory)).run_inv (staging_follows x) _ xs
    h
  refine ⟨fun _ => none, Staging.describes_init _, mirrored_init, ?_, fun _ _ => rfl⟩
  intro i c st hi
  cases hi

omit [DecidableEq ι] [DecidableEq κ] in
/-- The segments of a call whose save raises. -/
theorem CallLog.failed_of_mem {j : ℕ} {c : Call ι} {st : Stage} {ls : List (RegistryLabel ι)}
    (h : CallLog j c x st ls) (hmem : ∃ l ∈ ls, l.input = .answer ⟨.save, .raised⟩) :
    ls = failedLog j c := by
  rcases hmem with ⟨l, hl, hinput⟩
  cases h with
  | failed => rfl
  | hydrating h hst hls => exact absurd hinput (hls l hl _)
  | _ =>
      simp only [foundLog, savedLog, recordingLog, saves, opening, List.cons_append,
        List.nil_append, List.mem_cons, List.not_mem_nil, or_false] at hl
      rcases hl with rfl | rfl | rfl | rfl <;> simp at hinput

/-- The labels of a prefix of the run. -/
theorem own_operated {pre post : List (RegistryStep ι)} (j : ℕ) :
    own j (operated x pre).trace <+: own j (operated x (pre ++ post)).trace := by
  rw [operated, operated, run_append]
  exact (trace_extends ..).filter _

/-- A call whose save raises has written nothing in any of its segments. -/
theorem frame_of_failed (hsep : Separate x) (hmemory : ∀ k, x.store k = .inMemory)
    {pre post : List (RegistryStep ι)} {step : RegistryStep ι}
    (h : Along (Call.prog x) Unsuspended (init .empty) (pre ++ step :: post)) {c : Call ι}
    (hlog : own step.thread (operated x (pre ++ step :: post)).trace = failedLog step.thread c) :
    (operated x (pre ++ [step])).shared.entries = (operated x pre).shared.entries ∧
      (operated x (pre ++ [step])).shared.rows = (operated x pre).shared.rows := by
  rcases mirrored_operated hsep hmemory h.of_append with ⟨pool, hpool, hmirrored, -⟩
  rcases hpool.next (staging_follows x) step with ⟨pool', -, hmoved⟩
  have hown : own step.thread (operated x (pre ++ [step])).trace <+:
      failedLog step.thread c := by
    rw [← hlog, show pre ++ step :: post = pre ++ [step] ++ post by simp]
    exact own_operated _
  rw [operated_snoc] at hown ⊢
  generalize (next (Call.prog x) (operated x pre) step).toWorld = w at hmoved hown ⊢
  cases hmoved with
  | idle => exact ⟨rfl, rfl⟩
  | start hi hbegins => cases hbegins <;> exact ⟨rfl, rfl⟩
  | @turn j reply d st q k s' st' hj hnow hturn =>
      rcases hmirrored.frame hj hturn with hsame | hsaved
      · exact hsame
      · -- the log would hold the answer that saved the entry
        have hmem : (staging x).label j d (.answer ⟨q, reply q⟩) st' ∈ failedLog j c := by
          apply hown.subset
          simp [Step.thread, Staging.label]
        rw [hsaved] at hmem
        simp [failedLog, saves, opening, Staging.label] at hmem

/-- A step changes nothing of the registries of other calls. -/
theorem apart_of_step (hsep : Separate x) (hmemory : ∀ k, x.store k = .inMemory)
    {pre : List (RegistryStep ι)} {step : RegistryStep ι}
    (h : Along (Call.prog x) Unsuspended (init .empty) pre)
    {th : Thread (Call ι) (Memory ι κ) (Question ι) Answer RegistryError (Option RegistryEntry)}
    (hth : (operated x (pre ++ [step])).threads step.thread = some th) {i : ι}
    (hi : th.call.registry ≠ i) :
    (operated x (pre ++ [step])).shared.entries i = (operated x pre).shared.entries i ∧
      (operated x (pre ++ [step])).shared.load (x.registry i).store (x.registry i).subjectType =
        (operated x pre).shared.load (x.registry i).store (x.registry i).subjectType := by
  rcases mirrored_operated hsep hmemory h with ⟨pool, hpool, hmirrored, -⟩
  rcases hpool.next (staging_follows x) step with ⟨pool', hpool', hmoved⟩
  rw [operated_snoc] at hth ⊢
  rcases hpool'.stage hth with ⟨st, hst, -⟩
  generalize (next (Call.prog x) (operated x pre) step).toWorld = w at hmoved ⊢
  -- only the turn of the call itself moves it
  cases hmoved with
  | idle => exact ⟨rfl, rfl⟩
  | start hnone hbegins => cases hbegins <;> exact ⟨rfl, rfl⟩
  | @turn j reply d st q k s' st' hj hnow hturn =>
      have hput : pool.put j d st' j = some (th.call, _) := hst
      rw [Pool.put_self, Option.some.injEq, Prod.mk.injEq] at hput
      rw [← hput.1] at hi
      exact hmirrored.others hsep hj hturn (Ne.symm hi)

theorem atomic_of_unsuspended (hsep : Separate x) (hmemory : ∀ k, x.store k = .inMemory)
    {xs : List (RegistryStep ι)} (h : Along (Call.prog x) Unsuspended (init .empty) xs) :
    Atomic x xs := by
  rcases mirrored_operated hsep hmemory h with ⟨pool, hpool, hmirrored, hhistories⟩
  refine ⟨?_, ?_, ?_, ?_⟩
  · intro i env j
    apply SameReads.of_eq
    rw [hydrate_alone i env _ (hmirrored.dict i)]
  · intro j hmem
    cases hj : pool j with
    | none =>
        rw [hhistories.fresh j hj] at hmem
        rcases hmem with ⟨l, hl, -⟩
        cases hl
    | some p =>
        -- a call that has failed has left a log that tells so
        have hlog := (hhistories.started j p.1 p.2 hj).failed_of_mem hmem
        refine ⟨by rw [hlog]; rfl, ?_⟩
        rintro pre step post rfl rfl
        exact frame_of_failed hsep hmemory h hlog
  · intro j th entry hth hstop
    rcases hpool.stage hth with ⟨st, hj, hnow⟩
    have hlog := hhistories.started j _ st hj
    rw [hnow] at hstop
    generalize own j (operated x xs).trace = ls at hlog
    cases hlog with
    | found hpayload =>
        cases hstop
        exact .inl ⟨hpayload, rfl⟩
    | recorded hupdate =>
        cases hstop
        exact .inr ⟨_, hupdate, event_mem hupdate, rfl⟩
    | hydrating hupdate hst hls =>
        rcases hst with rfl | ⟨loaded, rfl⟩ | rfl | rfl <;> cases hstop
    | refused | waiting | stopped | saving | failed | recording | unrecorded => cases hstop
  · intro pre step post hxs th hth i hi
    subst hxs
    exact apart_of_step hsep hmemory h.of_append hth hi

/-- Whether a run has no suspensions where there are none can be checked on the
calls that it starts. -/
theorem unsuspended_of_lt {n : ℕ} {s : Memory ι κ} {xs : List (RegistryStep ι)}
    (hcalls : ∀ j c, .call j c ∈ xs → j < n)
    (h : Along (Call.prog x) (fun t step => ∀ j < n, ∀ th ∈ t.threads j,
      ∀ q ∈ th.now.stop.question?, Immediate t.shared q → step.resumed? = some j) (init s) xs) :
    Along (Call.prog x) Unsuspended (init s) xs := by
  intro pre step post hxs j th hth
  apply h pre step post hxs j _ th hth
  have hmem := (run_started (Call.prog x) s pre).threads j th hth
  exact hcalls j th.call (by simp [hxs, hmem])

end Runs

/-- The two registries of the platform. -/
inductive Subject where
  | agent
  | skill
deriving DecidableEq

/-- `AgentRegistry` and `SkillRegistry` over one `InMemoryRegistryStore`. -/
def platform (contracts : CanonicalContractCatalog) (sha256 : String → String)
    (repr : Json → String) : Registries Subject Unit where
  contracts := contracts
  sha256 := sha256
  repr := repr
  registry
    | .agent => agentRegistry ()
    | .skill => skillRegistry ()
  store := fun _ => .inMemory

theorem platform_atomic (contracts : CanonicalContractCatalog) (sha256 : String → String)
    (repr : Json → String) (xs : List (RegistryStep Subject))
    (h : Along (Call.prog (platform contracts sha256 repr)) Unsuspended (init .empty) xs) :
    Atomic (platform contracts sha256 repr) xs := by
  apply atomic_of_unsuspended _ (fun _ => rfl) h
  intro i j _ htype
  cases i <;> cases j <;> first | rfl | simp [platform, agentRegistry, skillRegistry] at htype

def registerOn (subject : Subject) (idField versionField : String) : Call Subject :=
  .register subject [(idField, .str "registry.atomicity"), (versionField, .str "1.0.0")]
    "tenant_atomicity" "organization_atomicity" "workspace_atomicity" "actor_atomicity"
    "corr_atomicity" 0

/-- The store answers with `saved`, everything else succeeds. -/
def replying (saved : Stored) : (q : Question Subject) → Answer q
  | .acquire _ => ()
  | .save => saved
  | .execute => .returned
  | .commit => .returned
  | .close => ()
  | .load => .returned
  | .append _ => .returned

/-- A skill that is not saved, an agent that is, and a hydration before its
event is appended. -/
def mixed : List (RegistryStep Subject) :=
  [.call 0 (registerOn .skill "skill_id" "skill_version"), .resume 0 (replying .raised),
    .resume 0 (replying .raised), .call 1 (registerOn .agent "agent_id" "agent_version"),
    .resume 1 (replying .returned), .resume 1 (replying .returned), .call 2 (.hydrate .agent),
    .resume 2 (replying .returned), .resume 2 (replying .returned), .resume 1 (replying .returned)]

theorem platform_atomic_mixed :
    Atomic (platform ⟨fun _ => true, fun _ _ => none⟩ id Json.dumps) mixed := by
  apply platform_atomic
  apply unsuspended_of_lt (n := 3)
  · intro j c hc
    simp only [mixed, List.mem_cons, Step.call.injEq, reduceCtorEq, List.not_mem_nil, or_false,
      false_or] at hc
    omega
  · decide +kernel

end Alos.Registry
