import Alos.Registry.Service

/-! # The stages of a registry operation

Every place at which an operation can be suspended or finished, by name, and
what each of its segments can do.

* `Update` is the common form of the four operations that write: a decision on
  the entry found under a key, and the event that records what it stored;
* `staging` is the stage machine of the operations;
* `staging_follows`: every segment of an operation is one of its turns.
-/

namespace Alos.Registry

open Coop Py

/-- What an operation that writes has to do once it holds the lock: `decide` is
applied to the entry under `key`. -/
structure Update where
  key : RegistryKey
  decide : Option RegistryEntry → Except RegistryError Locked
  actorId : String
  eventType : String
  outcome : String

/-- The entry is registered if there is none yet. -/
def decideRegister (entry : RegistryEntry) : Option RegistryEntry → Except RegistryError Locked
  | none => .ok (.stored entry)
  | some existing =>
      if existing.digest = entry.digest then .ok (.found existing)
      else .error (.conflict "immutable registry version already exists")

/-- The entry found goes from `expected` to `target`. -/
def decideTransition (expected target : RegistryState) (correlationId : String)
    (decisionId releaseId : Option String) : Option RegistryEntry → Except RegistryError Locked
  | none => .error (.notFound "registry version was not found in tenant workspace")
  | some current =>
      if current.state ≠ expected then
        .error (.conflict s!"cannot transition {current.state.value} to {target.value}")
      else .ok (.stored (transitioned current target correlationId decisionId releaseId))

section Machine

variable {ι κ : Type} [DecidableEq ι] [DecidableEq κ] (x : Registries ι κ)

/-- The update of a call, or what its own checks raise; `hydrate` has none. -/
def Call.update? : Call ι → Option (Except RegistryError Update)
  | .register i payload tenantId organizationId workspaceId actorId correlationId now =>
      some ((prepare x i payload tenantId organizationId workspaceId actorId correlationId now).map
        fun entry => ⟨entry.key, decideRegister entry, actorId, "registry.version.created", "DRAFT"⟩)
  | .approve _ key actorId decisionId authority correlationId =>
      some (match DecisionAuthority.ofString authority with
        | none => .error (.conflict "AI recommendation cannot approve a registry version")
        | some resolvedAuthority =>
            .ok ⟨key, decideTransition .draft .approved correlationId (some decisionId) none, actorId,
              "registry.version.approved", resolvedAuthority.value⟩)
  | .activate _ key actorId releaseId correlationId =>
      some (.ok ⟨key, decideTransition .approved .active correlationId none (some releaseId),
        actorId, "registry.version.activated", "ACTIVE"⟩)
  | .suspend _ key actorId correlationId =>
      some (.ok ⟨key, decideTransition .active .suspended correlationId none none, actorId,
        "registry.version.suspended", "SUSPENDED"⟩)
  | .hydrate _ => none

/-- Where a call stands: it awaits the lock, a step of the store while it holds
the lock, or the append of its event; a hydration awaits its load or the lock;
or it is over, `recorded` after the append of its event. -/
inductive Stage where
  | waiting (u : Update)
  | saving (u : Update) (entry : RegistryEntry)
  | selecting (u : Update) (entry : RegistryEntry)
  | committing (u : Update) (entry : RegistryEntry) (record : Option RegistryEntry)
  | closing (u : Update) (entry : RegistryEntry)
  | recording (u : Update) (entry : RegistryEntry)
  | loading
  | reloading (loaded : List RegistryEntry)
  | recorded (u : Update) (entry : RegistryEntry)
  | returned (entry : Option RegistryEntry)
  | raised (e : RegistryError)

variable (i : ι)

/-- What follows the lock. -/
def Update.conclude (u : Update) : Locked → Op ι κ RegistryEntry
  | .found existing => pure existing
  | .stored entry => do
      record entry u.actorId u.eventType u.outcome
      pure entry

/-- The body of the lock. -/
def Update.body (u : Update) : Op ι κ Locked := do
  let s ← .get
  match u.decide ((s.entries i).get? u.key) with
  | .error e => .raise e
  | .ok (.found existing) => pure (.found existing)
  | .ok (.stored entry) =>
      save x i entry
      .modify (·.putEntry i entry)
      pure (.stored entry)

/-- The body of the lock for an operation that always stores. -/
def transitionBody (key : RegistryKey) (expected target : RegistryState) (correlationId : String)
    (decisionId releaseId : Option String) : Op ι κ RegistryEntry := do
  let s ← .get
  match (s.entries i).get? key with
  | none => .raise (.notFound "registry version was not found in tenant workspace")
  | some current =>
      if current.state ≠ expected then
        .raise (.conflict s!"cannot transition {current.state.value} to {target.value}")
      else do
        let updated := transitioned current target correlationId decisionId releaseId
        save x i updated
        .modify (·.putEntry i updated)
        pure updated

/-- The rest of the lock after `p`, a rest of the save, and of the call. -/
def Update.finish (u : Update) (entry : RegistryEntry) (p : Op ι κ Unit) :
    Op ι κ (Option RegistryEntry) :=
  (((p.bind fun _ => (Proc.modify (·.putEntry i entry)).bind fun _ => .ret (.stored entry)).ensuring
    (·.setLocked i false)).bind u.conclude).bind fun entry => .ret (some entry)

/-- What a hydration does with the rows it has loaded. -/
def reload (loaded : List RegistryEntry) : Op ι κ (Option RegistryEntry) :=
  ((locks ι κ).withLock i (.modify (·.setEntries i (.ofList loaded)))).bind fun _ => .ret none

/-- Where a call at a stage stands. -/
def Stage.now : Stage → Yield (Memory ι κ) (Question ι) Answer RegistryError (Option RegistryEntry)
  | .waiting u => .awaiting (.acquire i) fun _ => .read fun s => .write (s.setLocked i true)
      ((((u.body x i).ensuring (·.setLocked i false)).bind u.conclude).bind fun entry =>
        .ret (some entry))
  | .saving u entry => .awaiting .save fun answer => u.finish i entry
      ((settle answer).bind fun _ => .modify (·.putRow (x.registry i).store entry))
  | .selecting u entry => .awaiting .execute fun answer => u.finish i entry
      ((settle answer).bind fun _ => .read fun s => .await .commit fun answer =>
        (settle answer).bind fun _ =>
          (flush (x.registry i).store entry
            ((s.rows (x.registry i).store).get? entry.storeKey)).bind fun _ => .ask Question.close)
  | .committing u entry record => .awaiting .commit fun answer => u.finish i entry
      ((settle answer).bind fun _ =>
        (flush (x.registry i).store entry record).bind fun _ => .ask Question.close)
  | .closing u entry => .awaiting .close fun answer => u.finish i entry (.ret answer)
  | .recording u entry =>
      .awaiting (.append (auditEvent entry u.actorId u.eventType u.outcome)) fun answer =>
        (settleAppend answer).bind fun _ => .ret (some entry)
  | .loading => .awaiting .load fun answer => (settle answer).bind fun _ => .read fun s =>
      reload i (s.load (x.registry i).store (x.registry i).subjectType)
  | .reloading loaded => .awaiting (.acquire i) fun _ => .read fun s => .write (s.setLocked i true)
      (((Proc.modify (·.setEntries i (.ofList loaded))).ensuring (·.setLocked i false)).bind fun _ =>
        .ret none)
  | .recorded _ entry => .returned (some entry)
  | .returned entry => .returned entry
  | .raised e => .raised e

/-- Where a call stops that has decided to store an entry. -/
def entering (u : Update) (entry : RegistryEntry) : Stage :=
  match x.store (x.registry i).store with
  | .inMemory => .saving u entry
  | .sql => .selecting u entry

/-- The store may raise: the entry is not stored yet. -/
def Stage.Unstored : Stage → Prop
  | .saving _ _ | .selecting _ _ | .committing _ _ _ => True
  | _ => False

/-- What the first segment can do. -/
inductive Begins (c : Call ι) (s : Memory ι κ) : Memory ι κ → Stage → Prop where
  | refused {e} (h : c.update? x = some (.error e)) : Begins c s s (.raised e)
  | opened {u} (h : c.update? x = some (.ok u)) : Begins c s s (.waiting u)
  | loads (h : c.update? x = none) : Begins c s s .loading

/-- What the later segments can do. -/
inductive Turn (s : Memory ι κ) : Stage → Exchange (Question ι) Answer → Memory ι κ → Stage → Prop
    where
  -- the lock is taken
  | stopped {u e} (h : u.decide ((s.entries i).get? u.key) = .error e) :
      Turn s (.waiting u) ⟨.acquire i, ()⟩ (s.setLocked i false) (.raised e)
  | found {u existing} (h : u.decide ((s.entries i).get? u.key) = .ok (.found existing)) :
      Turn s (.waiting u) ⟨.acquire i, ()⟩ (s.setLocked i false) (.returned (some existing))
  | stores {u entry} (h : u.decide ((s.entries i).get? u.key) = .ok (.stored entry)) :
      Turn s (.waiting u) ⟨.acquire i, ()⟩ (s.setLocked i true) (entering x i u entry)
  -- the entry is saved, or the store raises
  | failed {st y} (h : st.Unstored) (hy : y ≠ ⟨.save, .returned⟩) :
      Turn s st y (s.setLocked i false) (.raised .store)
  | saved {u entry} :
      Turn s (.saving u entry) ⟨.save, .returned⟩
        (((s.putRow (x.registry i).store entry).putEntry i entry).setLocked i false)
        (.recording u entry)
  | selected {u entry} :
      Turn s (.selecting u entry) ⟨.execute, .returned⟩ s
        (.committing u entry ((s.rows (x.registry i).store).get? entry.storeKey))
  | inserted {u entry} (h : (s.rows (x.registry i).store).get? entry.storeKey = none) :
      Turn s (.committing u entry none) ⟨.commit, .returned⟩
        (s.putRow (x.registry i).store entry) (.closing u entry)
  | updated {u entry selected row}
      (h : (s.rows (x.registry i).store).get? entry.storeKey = some row) :
      Turn s (.committing u entry (some selected)) ⟨.commit, .returned⟩
        (s.putRow (x.registry i).store (row.updated selected entry)) (.closing u entry)
  | closed {u entry} :
      Turn s (.closing u entry) ⟨.close, ()⟩ ((s.putEntry i entry).setLocked i false)
        (.recording u entry)
  -- the event is appended
  | recorded {u entry event} :
      Turn s (.recording u entry) ⟨.append event, .returned⟩ s (.recorded u entry)
  | unrecorded {u entry event} :
      Turn s (.recording u entry) ⟨.append event, .raised⟩ s (.raised .audit)
  -- a hydration
  | unloaded : Turn s .loading ⟨.load, .raised⟩ s (.raised .store)
  | loaded :
      Turn s .loading ⟨.load, .returned⟩ s
        (.reloading (s.load (x.registry i).store (x.registry i).subjectType))
  | reloaded {loaded} :
      Turn s (.reloading loaded) ⟨.acquire i, ()⟩
        ((s.setEntries i (.ofList loaded)).setLocked i false) (.returned none)

/-- The stage machine of the operations. -/
def staging : Staging (Call ι) (Memory ι κ) (Question ι) Answer RegistryError
    (Option RegistryEntry) Stage where
  now := fun c st => st.now x c.registry
  Begins := Begins x
  Turn := fun c => Turn x c.registry

/-! ## Every segment is a turn -/

variable {x i} {s : Memory ι κ}

theorem register_eq (payload : Json.Fields)
    (tenantId organizationId workspaceId actorId correlationId : String) (now : Datetime) :
    register x i payload tenantId organizationId workspaceId actorId correlationId now =
      (Proc.ofExcept (prepare x i payload tenantId organizationId workspaceId actorId correlationId
        now)).bind fun entry =>
          let u : Update := ⟨entry.key, decideRegister entry, actorId, "registry.version.created",
            "DRAFT"⟩
          ((locks ι κ).withLock i (u.body x i)).bind u.conclude := by
  unfold register
  simp only [Proc.bind_def]
  congr 1
  funext entry
  congr 2
  simp only [Update.body, Proc.bind_def, Proc.get_bind]
  congr 1
  funext s
  cases (s.entries i).get? entry.key with
  | none => rfl
  | some existing =>
      simp only [decideRegister]
      -- a version that is there is given back, or refused
      by_cases hdigest : existing.digest = entry.digest
      · simp only [hdigest, if_true]
      · simp only [hdigest, if_false]

/-- An operation that goes from one state to another stores what it decides. -/
theorem transition_eq (key : RegistryKey) (expected target : RegistryState)
    (correlationId actorId eventType outcome : String) (decisionId releaseId : Option String) :
    let u : Update := ⟨key, decideTransition expected target correlationId decisionId releaseId,
      actorId, eventType, outcome⟩
    ((transition x i key expected target correlationId decisionId releaseId).bind fun entry =>
      (record entry actorId eventType outcome).bind fun _ => .ret entry) =
      ((locks ι κ).withLock i (u.body x i)).bind u.conclude := by
  intro u
  have hbody : u.body x i =
      (transitionBody x i key expected target correlationId decisionId releaseId).bind fun entry =>
        .ret (.stored entry) := by
    simp only [Update.body, transitionBody, Proc.bind_def, Proc.get_bind, Proc.bind]
    congr 1
    funext s
    simp only [u, decideTransition]
    cases (s.entries i).get? key with
    | none => rfl
    | some current =>
        -- the version is moved on, or refused
        by_cases hstate : current.state = expected
        · simp only [hstate, ne_eq, not_true_eq_false, if_false, Proc.bind_assoc]
          rfl
        · simp only [hstate, ne_eq, not_false_eq_true, if_true, Proc.raise_bind]
  rw [hbody, Locks.withLock_bind_ret, Proc.bind_assoc]
  rfl

/-- A segment of the rest of a save. -/
theorem finish_advance (x : Registries ι κ) (u : Update) (entry : RegistryEntry) (p : Op ι κ Unit)
    (s : Memory ι κ) :
    (u.finish i entry p).advance s = match p.advance s with
      | (s', .returned _) =>
          ((s'.putEntry i entry).setLocked i false, (Stage.recording u entry).now x i)
      | (s', .raised e) => (s'.setLocked i false, .raised e)
      | (s', .awaiting q k) => (s', .awaiting q fun a => u.finish i entry (k a)) := by
  unfold Update.finish
  rw [Proc.advance_bind, Proc.advance_bind, Proc.advance_ensuring, Proc.advance_bind]
  rcases p.advance s with ⟨s', y⟩
  -- the lock is given back in the step that ends the body
  cases y with
  | returned a =>
      change (_, Yield.awaiting _ _) = (_, Yield.awaiting _ _)
      congr 2
      funext answer
      cases answer <;> rfl
  | raised e => rfl
  | awaiting q k => rfl

/-- A refused call is over at once, any other one that writes is its update. -/
theorem prog_of_update {c : Call ι} {u : Except RegistryError Update} (h : c.update? x = some u) :
    c.prog x = (Proc.ofExcept u).bind fun u =>
      (((locks ι κ).withLock c.registry (u.body x c.registry)).bind u.conclude).bind fun entry =>
        .ret (some entry) := by
  -- an update that stores for sure is written without its decision
  have hmap {p q : Op ι κ RegistryEntry} (hpq : p = q) :
      (p.bind fun entry => .ret (some entry) : Op ι κ (Option RegistryEntry)) =
        q.bind fun entry => .ret (some entry) := by
    rw [hpq]
  cases c with
  | register i payload tenantId organizationId workspaceId actorId correlationId now =>
      cases h
      change (register x i payload tenantId organizationId workspaceId actorId correlationId now).bind
        _ = _
      rw [register_eq]
      cases prepare x i payload tenantId organizationId workspaceId actorId correlationId now <;> rfl
  | approve i key actorId decisionId authority correlationId =>
      cases h
      change (approve x i key actorId decisionId authority correlationId).bind _ = _
      unfold approve
      cases DecisionAuthority.ofString authority with
      | none => rfl
      | some resolvedAuthority => exact hmap (transition_eq ..)
  | activate i key actorId releaseId correlationId =>
      cases h
      exact hmap (transition_eq ..)
  | suspend i key actorId correlationId =>
      cases h
      exact hmap (transition_eq ..)
  | hydrate i => cases h

omit [DecidableEq ι] [DecidableEq κ] in
theorem Call.hydrate_of_update? {c : Call ι} (h : c.update? x = none) : c = .hydrate c.registry := by
  cases c with
  | hydrate i => rfl
  | _ => cases h

theorem prog_begins (c : Call ι) (s : Memory ι κ) :
    ∃ s' st, Begins x c s s' st ∧ (c.prog x).advance s = (s', st.now x c.registry) := by
  cases hupdate : c.update? x with
  | some u =>
      rw [prog_of_update hupdate]
      cases u with
      | error e => exact ⟨s, .raised e, .refused hupdate, rfl⟩
      | ok u => exact ⟨s, .waiting u, .opened hupdate, rfl⟩
  | none =>
      refine ⟨s, .loading, .loads hupdate, ?_⟩
      rw [Call.hydrate_of_update? hupdate]
      -- what follows the load is the same by definition, answer by answer
      change (s, Yield.awaiting _ _) = (s, Yield.awaiting _ _)
      congr 2
      funext answer
      cases answer <;> rfl

/-- The lock is taken: the call decides on what it finds. -/
theorem waiting_turns (u : Update) :
    ∃ s' st, Turn x i s (.waiting u) ⟨.acquire i, ()⟩ s' st ∧
      ((((u.body x i).ensuring (·.setLocked i false)).bind u.conclude).bind fun entry =>
        .ret (some entry)).advance (s.setLocked i true) = (s', st.now x i) := by
  rw [Proc.advance_bind, Proc.advance_bind, Proc.advance_ensuring]
  simp only [Update.body, Proc.bind_def, Proc.get_bind, Proc.advance_read, Memory.setLocked_entries]
  -- the lock is granted: the update is decided on what the cache holds now
  cases h : u.decide ((s.entries i).get? u.key) with
  | error e =>
      refine ⟨_, _, .stopped h, ?_⟩
      simp only [Proc.advance_raise, Memory.setLocked_setLocked]
      rfl
  | ok locked =>
      cases locked with
      | found existing =>
          refine ⟨_, _, .found h, ?_⟩
          simp only [Proc.pure_def, Proc.advance_ret, Memory.setLocked_setLocked]
          rfl
      | stored entry =>
          refine ⟨_, _, .stores h, ?_⟩
          simp only [save, entering]
          cases x.store (x.registry i).store <;> rfl

/-- The commit: the row is written, or the store raises. -/
theorem committing_turns (u : Update) (entry : RegistryEntry) (record : Option RegistryEntry) :
    ∃ s' st, Turn x i s (.committing u entry record) ⟨.commit, .returned⟩ s' st ∧
      (u.finish i entry ((flush (x.registry i).store entry record).bind fun _ =>
        .ask Question.close)).advance s = (s', st.now x i) := by
  rw [finish_advance x]
  simp only [flush, Proc.bind_def, Proc.get_bind, Proc.bind, Proc.advance_read]
  cases record with
  | none =>
      cases h : (s.rows (x.registry i).store).get? entry.storeKey with
      | none => exact ⟨_, _, .inserted h, rfl⟩
      | some row => exact ⟨_, _, .failed trivial (by simp), rfl⟩
  | some selected =>
      cases h : (s.rows (x.registry i).store).get? entry.storeKey with
      | none => exact ⟨_, _, .failed trivial (by simp), rfl⟩
      | some row => exact ⟨_, _, .updated h, rfl⟩

theorem staging_follows (x : Registries ι κ) : (staging x).Follows (Call.prog x) where
  begins := prog_begins
  turns := by
    intro c st q k h a s
    cases st with
    | waiting u =>
        cases h
        exact waiting_turns u
    | saving u entry =>
        cases h
        cases a with
        | raised => exact ⟨_, _, .failed trivial (by simp), finish_advance x ..⟩
        | returned => exact ⟨_, _, .saved, finish_advance x ..⟩
    | selecting u entry =>
        cases h
        cases a with
        | raised => exact ⟨_, _, .failed trivial (by simp), finish_advance x ..⟩
        | returned => exact ⟨_, _, .selected, finish_advance x ..⟩
    | committing u entry record =>
        cases h
        cases a with
        | raised => exact ⟨_, _, .failed trivial (by simp), finish_advance x ..⟩
        | returned => exact committing_turns u entry record
    | closing u entry =>
        cases h
        exact ⟨_, _, .closed, finish_advance x ..⟩
    | recording u entry =>
        cases h
        cases a with
        | returned => exact ⟨_, _, .recorded, rfl⟩
        | raised => exact ⟨_, _, .unrecorded, rfl⟩
    | loading =>
        cases h
        cases a with
        | returned => exact ⟨_, _, .loaded, rfl⟩
        | raised => exact ⟨_, _, .unloaded, rfl⟩
    | reloading loaded =>
        cases h
        refine ⟨_, _, .reloaded, ?_⟩
        -- the lock is taken and given back around the write
        rw [← Memory.setLocked_setLocked _ _ true, ← Memory.setEntries_setLocked]
        rfl
    | recorded u entry => cases h
    | returned entry => cases h
    | raised e => cases h

end Machine

end Alos.Registry
