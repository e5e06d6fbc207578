import Alos.Coop.Alike
import Alos.Registry.Alone
import Alos.Registry.Sync

/-! # Sequential runs of a registry over either store

One registry over the store in memory and over the database, from the same rows.
The registry is hydrated first.

* `save_served`: over both stores a save replaces the row, when the entry differs
  from it in its lifecycle only;
* `call_alike`: one call leaves the same dict and the same rows, and has the same
  result;
* `same_registry`: so has every run of calls.

The database does what it is asked, only the audit sink may fail.
-/

namespace Alos.Registry

open Coop Py

/-- The answers to a call: the accesses to the store return. -/
def served {ι : Type} (appended : Appended) : (q : Question ι) → Answer q
  | .acquire _ => ()
  | .save => Stored.returned
  | .execute => Stored.returned
  | .commit => Stored.returned
  | .close => ()
  | .load => Stored.returned
  | .append _ => appended

/-- The same registries over stores of one kind. -/
def Registries.over {ι κ : Type} (x : Registries ι κ) (kind : StoreKind) : Registries ι κ :=
  { x with store := fun _ => kind }

section Ops

variable {ι κ : Type} [DecidableEq ι] [DecidableEq κ] (x : Registries ι κ) (i : ι)

/-- The states are the same, and the dict is what a hydration would make it. -/
structure Hydrated (s s' : Memory ι κ) : Prop where
  same : s' = s
  dict : s.entries i = view x s i

/-- The entry differs from its row in its lifecycle only. -/
def Savable (s : Memory ι κ) (entry : RegistryEntry) : Prop :=
  entry.subjectType = (x.registry i).subjectType ∧
    ∀ row, (s.rows (x.registry i).store).get? entry.storeKey = some row → row.SameContent entry

variable {x i}

omit [DecidableEq ι] in
/-- A commit alone writes the entry. -/
theorem flush_alone {s : Memory ι κ} {k : κ} {entry : RegistryEntry}
    (h : ∀ row, (s.rows k).get? entry.storeKey = some row → row.SameContent entry)
    (env : Env (Question ι) Answer) :
    (flush k entry ((s.rows k).get? entry.storeKey) : Op ι κ Unit).alone env s =
      ⟨s.putRow k entry, .ok (), []⟩ := by
  simp only [flush, Proc.bind_def, Proc.get_bind, Proc.alone]
  cases hrow : (s.rows k).get? entry.storeKey with
  | none =>
      simp only
      rfl
  | some row =>
      simp only [updated_self (h row hrow)]
      rfl

omit [DecidableEq ι] in
/-- Whatever the store, a save replaces the row. -/
theorem save_served {s : Memory ι κ} {entry : RegistryEntry} (h : Savable x i s entry)
    (kind : StoreKind) (a : Appended) :
    ((save (x.over kind) i entry).alone (fun _ => served a) s).result = .ok () ∧
      ((save (x.over kind) i entry).alone (fun _ => served a) s).state =
        s.putRow (x.registry i).store entry := by
  cases kind with
  | inMemory => exact ⟨rfl, rfl⟩
  | sql =>
      -- the row is still the one that was selected
      have hflush := flush_alone h.2 (fun _ => served a)
      have hcommitted : (((flush (x.registry i).store entry
          ((s.rows (x.registry i).store).get? entry.storeKey)).bind fun _ =>
            Proc.ask Question.close : Op ι κ Unit).alone (fun _ => served a) s) =
          ⟨s.putRow (x.registry i).store entry, .ok (), [⟨.close, ()⟩]⟩ := by
        rw [Proc.alone_bind, hflush]
        rfl
      constructor
      · exact congrArg Proc.Finished.result hcommitted
      · exact congrArg Proc.Finished.state hcommitted

/-! ## The operations -/

/-- An entry is saved and put into the dict. -/
theorem stored_alike {s s' : Memory ι κ} (h : Hydrated x i s s') {entry : RegistryEntry}
    (hsavable : Savable x i s entry) (a : Appended) {α : Type} (b : α) :
    Alike (Hydrated x i) (served a)
      ((save (x.over .inMemory) i entry).bind fun _ =>
        (Proc.modify (·.putEntry i entry)).bind fun _ => .ret b) s
      ((save (x.over .sql) i entry).bind fun _ =>
        (Proc.modify (·.putEntry i entry)).bind fun _ => .ret b) s' := by
  obtain ⟨rfl, hdict⟩ := h
  have hmemory := save_served hsavable .inMemory a
  have hsql := save_served hsavable .sql a
  -- the row that is written is the entry of the cache
  have hview : (view x s' i).put entry = view x (s'.putRow (x.registry i).store entry) i :=
    (view_putRow s' i entry hsavable.1).symm
  constructor
  · rw [Proc.alone_bind, Proc.alone_bind, (Proc.Finished.followed_of_ok hmemory.1 _).2,
      (Proc.Finished.followed_of_ok hsql.1 _).2]
    rfl
  · rw [Proc.alone_bind, Proc.alone_bind, (Proc.Finished.followed_of_ok hmemory.1 _).1,
      (Proc.Finished.followed_of_ok hsql.1 _).1, hmemory.2, hsql.2]
    refine ⟨rfl, ?_⟩
    change Function.update s'.entries i ((s'.entries i).put entry) i = _
    rw [Function.update_self, hdict, hview]
    rfl

omit [DecidableEq κ] in
/-- The locks do not matter. -/
theorem Hydrated.setLocked {s s' : Memory ι κ} (h : Hydrated x i s s') (held : Bool) :
    Hydrated x i (s.setLocked i held) (s'.setLocked i held) :=
  ⟨congrArg (fun t : Memory ι κ => t.setLocked i held) h.same, h.dict⟩

omit [DecidableEq ι] [DecidableEq κ] in
/-- What is in the dict is in the rows. -/
theorem row_of_dict {s : Memory ι κ} (hdict : s.entries i = view x s i) {entry : RegistryEntry}
    (htype : entry.subjectType = (x.registry i).subjectType) :
    (s.rows (x.registry i).store).get? entry.storeKey = (s.entries i).get? entry.key := by
  rw [hdict, view_get? x s i htype]

omit [DecidableEq ι] [DecidableEq κ] in
theorem record_alike {s s' : Memory ι κ} (h : Hydrated x i s s') (entry : RegistryEntry)
    (actorId eventType outcome : String) (a : Appended) :
    Alike (Hydrated x i) (served a) (record entry actorId eventType outcome) s
      (record entry actorId eventType outcome) s' := by
  refine .await ?_
  cases a with
  | returned => exact .ret h ()
  | raised => exact .raise h _

omit [DecidableEq ι] [DecidableEq κ] in
/-- An event is recorded, and the entry is returned. -/
theorem recorded_alike {s s' : Memory ι κ} (h : Hydrated x i s s') (entry : RegistryEntry)
    (actorId eventType outcome : String) (a : Appended) :
    Alike (Hydrated x i) (served a)
      ((record entry actorId eventType outcome).bind fun _ => .ret entry) s
      ((record entry actorId eventType outcome).bind fun _ => .ret entry) s' := by
  have hrecord := record_alike h entry actorId eventType outcome a
  exact hrecord.bind fun _ _ => .ret hrecord.state entry

theorem transition_alike {s s' : Memory ι κ} (h : Hydrated x i s s') (key : RegistryKey)
    (expected target : RegistryState) (correlationId : String) (decisionId releaseId : Option String)
    (a : Appended) :
    Alike (Hydrated x i) (served a)
      (transition (x.over .inMemory) i key expected target correlationId decisionId releaseId) s
      (transition (x.over .sql) i key expected target correlationId decisionId releaseId) s' := by
  obtain ⟨rfl, hdict⟩ := h
  -- holding the lock is no part of what is compared
  have hheld : Hydrated x i (s'.setLocked i true) (s'.setLocked i true) := ⟨rfl, hdict⟩
  refine .withLock (fun _ _ ht => ht.setLocked false) (.read ?_)
  simp only [Proc.ret_bind, locks, Memory.setLocked_entries]
  cases hget : (s'.entries i).get? key with
  | none => exact .raise hheld _
  | some current =>
      simp only
      by_cases hstate : current.state ≠ expected
      · rw [if_pos hstate, if_pos hstate]
        exact .raise hheld _
      · rw [if_neg hstate, if_neg hstate]
        have htype : current.subjectType = (x.registry i).subjectType := by
          have hmem := Table.mem_of_get? hget
          rw [hdict, view_values] at hmem
          simpa using (List.mem_filter.1 hmem).2
        apply stored_alike hheld
        refine ⟨htype, ?_⟩
        intro row hrow
        have hsame : (s'.rows (x.registry i).store).get? current.storeKey = some current := by
          rw [row_of_dict hdict htype, Table.key_of_get? hget]
          exact hget
        have hrow' : (s'.rows (x.registry i).store).get? current.storeKey = some row := hrow
        rw [hsame] at hrow'
        cases hrow'
        exact transitioned_sameContent ..

theorem register_alike {s s' : Memory ι κ} (h : Hydrated x i s s') (payload : Json.Fields)
    (tenantId organizationId workspaceId actorId correlationId : String) (now : Datetime)
    (a : Appended) :
    Alike (Hydrated x i) (served a)
      (register (x.over .inMemory) i payload tenantId organizationId workspaceId actorId
        correlationId now) s
      (register (x.over .sql) i payload tenantId organizationId workspaceId actorId correlationId
        now) s' := by
  have hprepare : ∀ kind, prepare (x.over kind) i payload tenantId organizationId workspaceId actorId
      correlationId now = prepare x i payload tenantId organizationId workspaceId actorId
        correlationId now := fun _ => rfl
  rw [register_eq_locked, register_eq_locked, hprepare, hprepare]
  cases hprepared : prepare x i payload tenantId organizationId workspaceId actorId correlationId
      now with
  | error e => exact .raise h e
  | ok entry =>
      have htype : entry.subjectType = (x.registry i).subjectType := by
        obtain ⟨subjectId, version, hentry⟩ := prepare_ok hprepared
        rw [hentry]
      -- the part under the lock, then the event
      have hlocked : Alike (Hydrated x i) (served a)
          ((locks ι κ).withLock i (locked (x.over .inMemory) i entry)) s
          ((locks ι κ).withLock i (locked (x.over .sql) i entry)) s' := by
        obtain ⟨rfl, hdict⟩ := h
        have hheld : Hydrated x i (s'.setLocked i true) (s'.setLocked i true) := ⟨rfl, hdict⟩
        refine .withLock (fun _ _ ht => ht.setLocked false) (.read ?_)
        simp only [Proc.ret_bind, locks, Memory.setLocked_entries]
        cases hget : (s'.entries i).get? entry.key with
        | some existing =>
            simp only
            by_cases hdigest : existing.digest = entry.digest
            · rw [if_pos hdigest]
              exact .ret hheld _
            · rw [if_neg hdigest]
              exact .raise hheld _
        | none =>
            apply stored_alike hheld
            refine ⟨htype, ?_⟩
            intro row hrow
            have hmissing : (s'.rows (x.registry i).store).get? entry.storeKey = some row := hrow
            rw [row_of_dict hdict htype, hget] at hmissing
            cases hmissing
      refine hlocked.bind ?_
      intro l _
      cases l with
      | found existing => exact .ret hlocked.state existing
      | stored entry => exact recorded_alike hlocked.state entry _ _ _ a

omit [DecidableEq κ] in
/-- A hydration does not look at the dict. -/
theorem hydrate_alike (s : Memory ι κ) (a : Appended) :
    Alike (Hydrated x i) (served a) (hydrate (x.over .inMemory) i) s (hydrate (x.over .sql) i) s := by
  refine .await (.read ?_)
  change Alike _ _ ((locks ι κ).withLock i (.modify (·.setEntries i (view x s i)))) s
    ((locks ι κ).withLock i (.modify (·.setEntries i (view x s i)))) s
  constructor
  · rfl
  · rw [Locks.alone_withLock]
    refine ⟨rfl, ?_⟩
    exact Function.update_self ..

theorem hydrateCall_alike (s : Memory ι κ) (a : Appended) :
    Alike (Hydrated x i) (served a) ((Call.hydrate i).prog (x.over .inMemory)) s
      ((Call.hydrate i).prog (x.over .sql)) s := by
  have hhydrate := @hydrate_alike _ _ _ x i s a
  exact hhydrate.bind fun _ _ => .ret hhydrate.state none

/-- One call of the registry, over both stores. -/
theorem call_alike {s s' : Memory ι κ} (c : Call ι) (h : Hydrated x c.registry s s')
    (a : Appended) :
    Alike (Hydrated x c.registry) (served a) (c.prog (x.over .inMemory)) s (c.prog (x.over .sql))
      s' := by
  -- each call does the same over both stores
  cases c with
  | register i payload tenantId organizationId workspaceId actorId correlationId now =>
      have hregister := register_alike h payload tenantId organizationId workspaceId actorId
        correlationId now a
      exact hregister.bind fun entry _ => .ret hregister.state (some entry)
  | approve i key actorId decisionId authority correlationId =>
      change Alike _ _ ((approve (x.over .inMemory) i key actorId decisionId authority
        correlationId).bind fun entry => .ret (some entry)) _ ((approve (x.over .sql) i key actorId
          decisionId authority correlationId).bind fun entry => .ret (some entry)) _
      unfold approve
      cases DecisionAuthority.ofString authority with
      | none => exact .raise h _
      | some resolvedAuthority =>
          have htransition := transition_alike h key .draft .approved correlationId
            (some decisionId) none a
          have happrove := htransition.bind fun entry _ =>
            recorded_alike htransition.state entry actorId "registry.version.approved"
              resolvedAuthority.value a
          exact happrove.bind fun entry _ => .ret happrove.state (some entry)
  | activate i key actorId releaseId correlationId =>
      have htransition := transition_alike h key .approved .active correlationId none
        (some releaseId) a
      have hactivate := htransition.bind fun entry _ =>
        recorded_alike htransition.state entry actorId "registry.version.activated" "ACTIVE" a
      exact hactivate.bind fun entry _ => .ret hactivate.state (some entry)
  | suspend i key actorId correlationId =>
      have htransition := transition_alike h key .active .suspended correlationId none none a
      have hsuspend := htransition.bind fun entry _ =>
        recorded_alike htransition.state entry actorId "registry.version.suspended" "SUSPENDED" a
      exact hsuspend.bind fun entry _ => .ret hsuspend.state (some entry)
  | hydrate i =>
      obtain ⟨rfl, -⟩ := h
      exact hydrateCall_alike s' a

end Ops

/-! ## Runs of one registry -/

section Runs

variable (x : Registries Unit Unit) (kind : StoreKind)

/-- One call, run to its end. -/
def perform (s : Memory Unit Unit) (y : Call Unit × Appended) :
    Proc.Finished (Memory Unit Unit) (Question Unit) Answer RegistryError (Option RegistryEntry) :=
  (y.1.prog (x.over kind)).alone (fun _ => served y.2) s

/-- A registry that has been hydrated from the rows of its store. -/
def loaded (rows : Table RegistryEntry.storeKey) : Memory Unit Unit :=
  (perform x kind ⟨fun _ => rows, fun _ => .empty, fun _ => false⟩ (.hydrate (), .returned)).state

/-- The registry after calls that are made one after the other, and their results. -/
def performAll (rows : Table RegistryEntry.storeKey) (ys : List (Call Unit × Appended)) :
    Memory Unit Unit × List (Except RegistryError (Option RegistryEntry)) :=
  ys.foldl (fun done y =>
    ((perform x kind done.1 y).state, done.2 ++ [(perform x kind done.1 y).result]))
    (loaded x kind rows, [])

theorem performAll_snoc (rows : Table RegistryEntry.storeKey) (ys : List (Call Unit × Appended))
    (y : Call Unit × Appended) :
    performAll x kind rows (ys ++ [y]) =
      ((perform x kind (performAll x kind rows ys).1 y).state,
        (performAll x kind rows ys).2 ++ [(perform x kind (performAll x kind rows ys).1 y).result]) := by
  simp [performAll]

end Runs

/-- The calls have the same results over both stores, and leave the same dict and
the same rows. -/
structure SameRegistry (x : Registries Unit Unit) (rows : Table RegistryEntry.storeKey)
    (ys : List (Call Unit × Appended)) : Prop where
  results : (performAll x .sql rows ys).2 = (performAll x .inMemory rows ys).2
  entries : (performAll x .sql rows ys).1.entries () = (performAll x .inMemory rows ys).1.entries ()
  rows : (performAll x .sql rows ys).1.rows () = (performAll x .inMemory rows ys).1.rows ()

theorem performAll_hydrated (x : Registries Unit Unit) (rows : Table RegistryEntry.storeKey)
    (ys : List (Call Unit × Appended)) :
    (performAll x .sql rows ys).2 = (performAll x .inMemory rows ys).2 ∧
      Hydrated x () (performAll x .inMemory rows ys).1 (performAll x .sql rows ys).1 := by
  induction ys using List.reverseRecOn with
  -- both deployments start with a hydration
  | nil =>
      have hhydrate : Alike (Hydrated x ()) (served .returned)
          ((Call.hydrate ()).prog (x.over .inMemory)) ⟨fun _ => rows, fun _ => .empty, fun _ => false⟩
          ((Call.hydrate ()).prog (x.over .sql)) ⟨fun _ => rows, fun _ => .empty, fun _ => false⟩ :=
        hydrateCall_alike _ _
      exact ⟨rfl, hhydrate.state⟩
  | append_singleton ys y ih =>
      obtain ⟨hresults, hhydrated⟩ := ih
      have halike := call_alike y.1 hhydrated y.2
      rw [performAll_snoc, performAll_snoc]
      refine ⟨?_, halike.state⟩
      rw [hresults]
      exact congrArg (fun result => (performAll x .inMemory rows ys).2 ++ [result]) halike.result

theorem same_registry (x : Registries Unit Unit) (rows : Table RegistryEntry.storeKey)
    (ys : List (Call Unit × Appended)) : SameRegistry x rows ys := by
  obtain ⟨hresults, hhydrated⟩ := performAll_hydrated x rows ys
  constructor
  · exact hresults
  · rw [hhydrated.same]
  · rw [hhydrated.same]

end Alos.Registry
