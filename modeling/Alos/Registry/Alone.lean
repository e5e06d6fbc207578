import Alos.Registry.Service

/-! # A registration that nobody interferes with

* `registration` says what a call of `register` comes to, from the dict of the
  registry and the answers of the environment;
* `register_alone` connects it with the procedure, and `register_alone_rows` says what it
  makes of the rows: a row that the dict did not know of is overwritten;
* `registration_frame`, `register_rows` and `register_error` say what it leaves alone.
-/

namespace Alos.Registry

open Coop Py

/-- The answers that follow the first `n`. -/
abbrev skip {ι : Type} (env : Env (Question ι) Answer) (n : ℕ) : Env (Question ι) Answer :=
  fun m => env (m + n)

/-- How many questions an entry takes that is saved. -/
def StoreKind.questions : StoreKind → ℕ
  | .inMemory => 1
  | .sql => 3

/-- No access to the store fails. -/
def StoreKind.Saves {ι : Type} (env : Env (Question ι) Answer) : StoreKind → Prop
  | .inMemory => env 0 .save = Stored.returned
  | .sql => env 0 .execute = Stored.returned ∧ env 1 .commit = Stored.returned

instance {ι : Type} (env : Env (Question ι) Answer) :
    (kind : StoreKind) → Decidable (kind.Saves env)
  | .inMemory => inferInstanceAs (Decidable (_ = Stored.returned))
  | .sql => inferInstanceAs (Decidable (_ = Stored.returned ∧ _ = Stored.returned))

/-- The row that a save leaves where it finds `found`: over a row a session updates four
columns, a store in memory puts the entry. -/
def StoreKind.written : StoreKind → Option RegistryEntry → RegistryEntry → RegistryEntry
  | .sql, some row, entry => row.updated row entry
  | _, _, entry => entry

/-- A row that is written over stays at its key. -/
theorem StoreKind.written_storeKey {kind : StoreKind} {found : Option RegistryEntry}
    {entry : RegistryEntry} (h : ∀ row, found = some row → row.storeKey = entry.storeKey) :
    (kind.written found entry).storeKey = entry.storeKey := by
  cases kind with
  | inMemory => rfl
  | sql =>
      cases found with
      | none => rfl
      | some row => exact h row rfl

/-- What a registration comes to: it is refused, finds the version with the same
content, or adds it, whether or not it is recorded. -/
inductive Registration where
  | refused (e : RegistryError)
  | found (existing : RegistryEntry)
  | added (entry : RegistryEntry) (recorded : Appended)

section Alone

variable {ι κ : Type} [DecidableEq ι] [DecidableEq κ] (x : Registries ι κ) (i : ι)

/-- How the store of the registry saves. -/
def storeKind : StoreKind := x.store (x.registry i).store

/-- What `register` comes to without another call in between: the checks on the payload, then what
the cache has under the key, then the answer of the audit sink. -/
def registration (payload : Json.Fields)
    (tenantId organizationId workspaceId actorId correlationId : String) (now : Datetime)
    (entries : Table RegistryEntry.key) (env : Env (Question ι) Answer) : Registration :=
  match prepare x i payload tenantId organizationId workspaceId actorId correlationId now with
  | .error e => .refused e
  | .ok entry =>
      match entries.get? entry.key with
      | some existing =>
          if existing.digest = entry.digest then .found existing
          else .refused (.conflict "immutable registry version already exists")
      | none =>
          if (storeKind x i).Saves (skip env 1) then
            .added entry (env (1 + (storeKind x i).questions)
              (.append (auditEvent entry actorId "registry.version.created" "DRAFT")))
          else .refused .store

/-- What a registration does to the dicts. -/
def Registration.store (s : ι → Table RegistryEntry.key) : Registration → ι → Table RegistryEntry.key
  | .refused _ => s
  | .found _ => s
  | .added entry _ => Function.update s i ((s i).put entry)

/-- The rows after a save that does not fail. -/
def savedRows (rows : κ → Table RegistryEntry.storeKey) (entry : RegistryEntry) :
    κ → Table RegistryEntry.storeKey :=
  Function.update rows (x.registry i).store ((rows (x.registry i).store).put
    ((storeKind x i).written ((rows (x.registry i).store).get? entry.storeKey) entry))

/-- What a registration does to the rows. -/
def Registration.rows (rows : κ → Table RegistryEntry.storeKey) :
    Registration → κ → Table RegistryEntry.storeKey
  | .refused _ => rows
  | .found _ => rows
  | .added entry _ => savedRows x i rows entry

/-- What the caller of `register` is told in each case. -/
def Registration.result : Registration → Except RegistryError RegistryEntry
  | .refused e => .error e
  | .found existing => .ok existing
  | .added entry .returned => .ok entry
  | .added _ .raised => .error .audit

/-- How many questions a registration takes that returns. -/
def Registration.questions : Registration → ℕ
  | .added _ _ => 2 + (storeKind x i).questions
  | _ => 1

variable {x i}

omit [DecidableEq ι] in
/-- A save leaves the cache as it is, and writes the row or raises. -/
theorem save_alone (entry : RegistryEntry) (env : Env (Question ι) Answer) (s : Memory ι κ) :
    ((save x i entry).alone env s).state.entries = s.entries ∧
      if (storeKind x i).Saves env then
        ((save x i entry).alone env s).result = .ok () ∧
          ((save x i entry).alone env s).log.length = (storeKind x i).questions
      else ((save x i entry).alone env s).result = .error .store := by
  unfold save storeKind
  cases x.store (x.registry i).store with
  | inMemory =>
      simp only [InMemoryRegistryStore.save, Proc.bind_def, Proc.ask_bind, Proc.alone,
        StoreKind.Saves]
      cases env 0 .save <;> simp [settle, Proc.alone, Proc.modify, StoreKind.questions]
  | sql =>
      simp only [SqlRegistryStore.save, Proc.bind_def, Proc.ask_bind, Proc.alone,
        StoreKind.Saves]
      cases env 0 .execute with
      | raised => simp [settle, Proc.alone]
      | returned =>
          simp only [settle, Proc.pure_def, Proc.ret_bind, Proc.get_bind, Proc.alone]
          cases env 1 .commit with
          | raised => simp [Proc.alone]
          | returned =>
              -- the row is still the one that was selected
              cases hrow : (s.rows (x.registry i).store).get? entry.storeKey <;>
                simp [flush, hrow, Proc.alone, Proc.modify, Proc.ask, Proc.bind, StoreKind.questions]

omit [DecidableEq ι] in
/-- The rows after a save are those before it, with the row written when the store takes it. -/
theorem save_alone_rows (entry : RegistryEntry) (env : Env (Question ι) Answer) (s : Memory ι κ) :
    ((save x i entry).alone env s).state.rows =
      if (storeKind x i).Saves env then savedRows x i s.rows entry else s.rows := by
  unfold savedRows save
  by_cases hsaves : (storeKind x i).Saves env
  · rw [if_pos hsaves]
    unfold storeKind at hsaves ⊢
    generalize x.store (x.registry i).store = kind at hsaves ⊢
    cases kind with
    | inMemory =>
        have hsave : env 0 .save = Stored.returned := hsaves
        simp [InMemoryRegistryStore.save, Proc.alone, hsave, settle, Proc.modify, StoreKind.written]
    | sql =>
        have hanswers : env 0 .execute = Stored.returned ∧ env 1 .commit = Stored.returned := hsaves
        -- the row is still the one that was selected
        cases hrow : (s.rows (x.registry i).store).get? entry.storeKey <;>
          simp [SqlRegistryStore.save, Proc.alone, hanswers.1, hanswers.2, settle, flush, hrow,
            Proc.modify, Proc.ask, Proc.bind, StoreKind.written]
  · rw [if_neg hsaves]
    unfold storeKind at hsaves
    generalize x.store (x.registry i).store = kind at hsaves ⊢
    cases kind with
    | inMemory =>
        have hsave : env 0 .save = Stored.raised := by
          cases h : env 0 .save with
          | returned => exact absurd h hsaves
          | raised => rfl
        simp [InMemoryRegistryStore.save, Proc.alone, hsave, settle]
    | sql =>
        simp only [SqlRegistryStore.save, Proc.bind_def, Proc.ask_bind, Proc.alone]
        cases hexecute : env 0 .execute with
        | raised => rfl
        | returned =>
            simp only [settle, Proc.pure_def, Proc.ret_bind, Proc.get_bind, Proc.alone]
            cases hcommit : env 1 .commit with
            | raised => rfl
            | returned => exact absurd ⟨hexecute, hcommit⟩ hsaves

variable (x i) in
/-- The part of a registration that holds the lock. -/
def locked (entry : RegistryEntry) : Op ι κ Locked := do
  let s ← .get
  match (s.entries i).get? entry.key with
  | some existing =>
      if existing.digest = entry.digest then pure (.found existing)
      else .raise (.conflict "immutable registry version already exists")
  | none =>
      save x i entry
      .modify (·.putEntry i entry)
      pure (Locked.stored entry)

/-- What is done under the lock, without another call in between: the save, the event, and the
cache in this order. -/
theorem locked_alone (entry : RegistryEntry) (env : Env (Question ι) Answer) (s : Memory ι κ) :
    let ended := (locked x i entry).alone env s
    match (s.entries i).get? entry.key with
    | some existing => ended.state.entries = s.entries ∧ ended.log = [] ∧
        ended.result = if existing.digest = entry.digest then .ok (.found existing)
          else .error (.conflict "immutable registry version already exists")
    | none =>
        if (storeKind x i).Saves env then
          ended.state.entries = Function.update s.entries i ((s.entries i).put entry) ∧
            ended.result = .ok (.stored entry) ∧ ended.log.length = (storeKind x i).questions
        else ended.state.entries = s.entries ∧ ended.result = .error .store := by
  simp only [locked, Proc.bind_def, Proc.get_bind, Proc.alone]
  -- the version is there already, or is saved now
  cases hget : (s.entries i).get? entry.key with
  | some existing =>
      by_cases hdigest : existing.digest = entry.digest <;> simp [hdigest, Proc.alone]
  | none =>
      simp only [Proc.alone_bind]
      rcases save_alone (x := x) (i := i) entry env s with ⟨hentries, hresult⟩
      by_cases hsaves : (storeKind x i).Saves env
      · rw [if_pos hsaves] at hresult ⊢
        simp [Proc.Finished.followed, hresult.1, hresult.2, Proc.alone, hentries]
      · rw [if_neg hsaves] at hresult ⊢
        simp [Proc.Finished.followed, hresult, hentries]

/-- `register` is its checks followed by what is done under the lock. -/
theorem register_eq_locked (payload : Json.Fields)
    (tenantId organizationId workspaceId actorId correlationId : String) (now : Datetime) :
    register x i payload tenantId organizationId workspaceId actorId correlationId now =
      (Proc.ofExcept (prepare x i payload tenantId organizationId workspaceId actorId correlationId
        now)).bind fun entry => ((locks ι κ).withLock i (locked x i entry)).bind fun
          | .found existing => .ret existing
          | .stored entry => (record entry actorId "registry.version.created" "DRAFT").bind fun _ =>
              .ret entry :=
  rfl

/-- `register` without another call in between does what `registration` says. -/
theorem register_alone (payload : Json.Fields)
    (tenantId organizationId workspaceId actorId correlationId : String) (now : Datetime)
    (env : Env (Question ι) Answer) (s : Memory ι κ) :
    let ended := (register x i payload tenantId organizationId workspaceId actorId correlationId
      now).alone env s
    let r := registration x i payload tenantId organizationId workspaceId actorId correlationId now
      (s.entries i) env
    ended.state.entries = r.store i s.entries ∧ ended.result = r.result ∧
      ∀ entry, r.result = .ok entry → ended.log.length = r.questions x i := by
  rw [register_eq_locked]
  unfold registration
  cases prepare x i payload tenantId organizationId workspaceId actorId correlationId now with
  | error e => simp [Proc.ofExcept, Proc.alone, Registration.store, Registration.result]
  | ok entry =>
      rw [Proc.ofExcept, Proc.ret_bind, Proc.alone_bind, Locks.alone_withLock]
      -- the body runs under the lock, after the first question
      have hlocked := locked_alone (x := x) (i := i) entry (skip env 1)
        ((locks ι κ).set s i true)
      rw [show ((locks ι κ).set s i true).entries = s.entries from rfl] at hlocked
      generalize (locked x i entry).alone (skip env 1) ((locks ι κ).set s i true) = body at hlocked ⊢
      cases hget : (s.entries i).get? entry.key with
      | some existing =>
          simp only [hget] at hlocked ⊢
          obtain ⟨hentries, hlog, hresult⟩ := hlocked
          by_cases hdigest : existing.digest = entry.digest
          · rw [if_pos hdigest] at hresult ⊢
            simp [Proc.Finished.followed, hresult, hentries, hlog, locks, Proc.alone,
              Registration.store, Registration.result, Registration.questions]
          · rw [if_neg hdigest] at hresult ⊢
            simp [Proc.Finished.followed, hresult, hentries, locks, Registration.store,
              Registration.result]
      | none =>
          simp only [hget] at hlocked ⊢
          by_cases hsaves : (storeKind x i).Saves (skip env 1)
          · rw [if_pos hsaves] at hlocked ⊢
            obtain ⟨hentries, hresult, hlog⟩ := hlocked
            simp only [Proc.Finished.followed, Proc.Finished.after_result, hresult,
              Proc.Finished.after_log, List.length_cons, hlog, record, Proc.bind_def,
              Proc.ask_bind, Proc.bind, Proc.alone, Proc.Finished.after_state]
            rw [show 0 + ((storeKind x i).questions + 1) = 1 + (storeKind x i).questions by omega]
            cases env (1 + (storeKind x i).questions)
              (.append (auditEvent entry actorId "registry.version.created" "DRAFT")) <;>
              simp [settleAppend, Proc.alone, hentries, hlog, locks, Registration.store,
                Registration.result, Registration.questions]
            omega
          · rw [if_neg hsaves] at hlocked ⊢
            simp [Proc.Finished.followed, hlocked.1, hlocked.2, locks, Registration.store,
              Registration.result]

/-- The rows, too, are what the registration makes of them. -/
theorem register_alone_rows (payload : Json.Fields)
    (tenantId organizationId workspaceId actorId correlationId : String) (now : Datetime)
    (env : Env (Question ι) Answer) (s : Memory ι κ) :
    ((register x i payload tenantId organizationId workspaceId actorId correlationId
      now).alone env s).state.rows =
      (registration x i payload tenantId organizationId workspaceId actorId correlationId now
        (s.entries i) env).rows x i s.rows := by
  rw [register_eq_locked]
  unfold registration
  cases prepare x i payload tenantId organizationId workspaceId actorId correlationId now with
  | error e => rfl
  | ok entry =>
      rw [Proc.ofExcept, Proc.ret_bind]
      simp only
      generalize hrows : Registration.rows x i s.rows _ = rows'
      refine Proc.alone_bind_keeps (P := fun s' : Memory ι κ => s'.rows = rows') ?_ ?_
      · -- the body runs under the lock
        subst hrows
        rw [Locks.alone_withLock]
        simp only [Proc.Finished.after_state, locked, Proc.bind_def, Proc.get_bind, Proc.alone]
        change ((match (s.entries i).get? entry.key with
          | some existing => _
          | none => _ : Op ι κ Locked).alone _ _).state.rows = _
        cases hget : (s.entries i).get? entry.key with
        | some existing =>
            by_cases hdigest : existing.digest = entry.digest <;>
              simp [hdigest, Proc.alone, Registration.rows, locks]
        | none =>
            have hsaved := save_alone_rows (x := x) (i := i) entry (skip env 1)
              ((locks ι κ).set s i true)
            have hresult := (save_alone (x := x) (i := i) entry (skip env 1)
              ((locks ι κ).set s i true)).2
            simp only [Proc.alone_bind]
            by_cases hsaves : (storeKind x i).Saves (skip env 1)
            · rw [if_pos hsaves] at hsaved hresult ⊢
              rw [(Proc.Finished.followed_of_ok hresult.1 _).1]
              exact hsaved
            · rw [if_neg hsaves] at hsaved hresult ⊢
              rw [Proc.Finished.followed_of_error hresult]
              exact hsaved
      · intro l env s' hs
        cases l with
        | found existing => exact hs
        | stored entry' =>
            simp only [record, Proc.bind_def, Proc.ask_bind, Proc.bind, Proc.alone]
            cases env 0 (.append (auditEvent entry' actorId "registry.version.created" "DRAFT")) <;>
              exact hs

/-! ## What is left alone -/

omit [DecidableEq κ] in
/-- What is registered stays, and only the version of the call is new. -/
theorem registration_frame {payload : Json.Fields}
    {tenantId organizationId workspaceId actorId correlationId : String} {now : Datetime}
    {entry : RegistryEntry}
    (hprepare : prepare x i payload tenantId organizationId workspaceId actorId correlationId now =
      .ok entry) (entries : ι → Table RegistryEntry.key) (env : Env (Question ι) Answer) :
    let r := registration x i payload tenantId organizationId workspaceId actorId correlationId now
      (entries i) env
    (∀ j key e, (entries j).get? key = some e → (r.store i entries j).get? key = some e) ∧
      ∀ j key, ¬ (j = i ∧ key = entry.key) →
        (r.store i entries j).get? key = (entries j).get? key := by
  intro r
  -- the cache of the registry is the old one, or has one more entry
  have hr : r.store i entries = entries ∨
      (entries i).get? entry.key = none ∧
        r.store i entries = Function.update entries i ((entries i).put entry) := by
    simp only [r, registration, hprepare]
    cases hget : (entries i).get? entry.key with
    | some existing =>
        simp only
        split <;> exact .inl rfl
    | none =>
        simp only
        split
        · exact .inr ⟨trivial, rfl⟩
        · exact .inl rfl
  rcases hr with hr | ⟨hnone, hr⟩
  · rw [hr]
    exact ⟨fun _ _ _ h => h, fun _ _ _ => rfl⟩
  -- under every other key all caches are the same
  · have hothers : ∀ j key, ¬ (j = i ∧ key = entry.key) →
        (r.store i entries j).get? key = (entries j).get? key := by
      intro j key hne
      rw [hr]
      by_cases hj : j = i
      · subst hj
        rw [Function.update_self]
        exact Table.get?_put_of_ne _ fun hkey => hne ⟨rfl, hkey.symm⟩
      · rw [Function.update_of_ne hj]
    refine ⟨?_, hothers⟩
    intro j key e he
    rw [hothers j key, he]
    rintro ⟨rfl, rfl⟩
    rw [hnone] at he
    cases he

/-- A registration that raises has changed nothing, if its event is stored. -/
theorem register_error {payload : Json.Fields}
    {tenantId organizationId workspaceId actorId correlationId : String} {now : Datetime}
    {env : Env (Question ι) Answer} (henv : ∀ n event, env n (.append event) = Appended.returned)
    {s : Memory ι κ} {e : RegistryError}
    (h : ((register x i payload tenantId organizationId workspaceId actorId correlationId
      now).alone env s).result = .error e) :
    ((register x i payload tenantId organizationId workspaceId actorId correlationId
        now).alone env s).state.entries = s.entries ∧
      ((register x i payload tenantId organizationId workspaceId actorId correlationId
        now).alone env s).state.rows = s.rows := by
  obtain ⟨hentries, hresult, -⟩ := register_alone (x := x) (i := i) payload tenantId organizationId
    workspaceId actorId correlationId now env s
  rw [hentries, register_alone_rows]
  rw [hresult] at h
  unfold registration at h ⊢
  cases hprepare : prepare x i payload tenantId organizationId workspaceId actorId correlationId
      now with
  | error e' => exact ⟨rfl, rfl⟩
  | ok entry =>
      rw [hprepare] at h
      simp only at h ⊢
      cases hget : (s.entries i).get? entry.key with
      | some existing => by_cases hdigest : existing.digest = entry.digest <;>
          simp [hdigest, Registration.store, Registration.rows]
      | none =>
          simp only [hget] at h ⊢
          split at h
          · -- then only the event is left, and it is stored
            rw [henv] at h
            cases h
          · rename_i hsaves
            rw [if_neg hsaves]
            exact ⟨rfl, rfl⟩

omit [DecidableEq ι] in
/-- A save touches the row of its entry in the store of its registry only. -/
theorem savedRows_get? {entry : RegistryEntry} (rows : κ → Table RegistryEntry.storeKey) {k : κ}
    {key : StoreKey} (h : ¬ (k = (x.registry i).store ∧ key = entry.storeKey)) :
    (savedRows x i rows entry k).get? key = (rows k).get? key := by
  unfold savedRows
  by_cases hk : k = (x.registry i).store
  · subst hk
    rw [Function.update_self, Table.get?_put_of_ne]
    rw [StoreKind.written_storeKey fun row hrow => Table.key_of_get? hrow]
    intro hkey
    exact h ⟨rfl, hkey.symm⟩
  · rw [Function.update_of_ne hk]

omit [DecidableEq ι] in
/-- The row of the entry is what the store writes over what it had. -/
theorem savedRows_get?_self (rows : κ → Table RegistryEntry.storeKey) (entry : RegistryEntry) :
    (savedRows x i rows entry (x.registry i).store).get? entry.storeKey =
      some ((storeKind x i).written ((rows (x.registry i).store).get? entry.storeKey) entry) := by
  unfold savedRows
  rw [Function.update_self, Table.get?_put, if_pos]
  exact StoreKind.written_storeKey fun row hrow => Table.key_of_get? hrow

/-- A registration changes the row of its entry alone. -/
theorem register_rows {payload : Json.Fields}
    {tenantId organizationId workspaceId actorId correlationId : String} {now : Datetime}
    {entry : RegistryEntry}
    (hprepare : prepare x i payload tenantId organizationId workspaceId actorId correlationId now =
      .ok entry) (env : Env (Question ι) Answer) (s : Memory ι κ) {k : κ} {key : StoreKey}
    (h : ¬ (k = (x.registry i).store ∧ key = entry.storeKey)) :
    (((register x i payload tenantId organizationId workspaceId actorId correlationId
      now).alone env s).state.rows k).get? key = (s.rows k).get? key := by
  rw [register_alone_rows]
  simp only [registration, hprepare]
  -- a version that the cache has is not saved again
  cases hget : (s.entries i).get? entry.key with
  | some existing =>
      simp only
      split <;> rfl
  | none =>
      simp only
      split
      · exact savedRows_get? s.rows h
      · rfl

end Alone

end Alos.Registry
