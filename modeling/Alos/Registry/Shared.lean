import Alos.Registry.Lineage

/-! # Registries that share their rows

Several registries of one subject type over one store, as the processes of a
deployment are, each deciding on the dict that it hydrated.

* `Onward` is what may become of a persisted version: its content stays, its
  state does not go back;
* `Fresh` is the condition on the steps: no entry is taken over a row that is
  ahead of it;
* `backed_keeps`: then every dict is backed by the rows;
* `reset_to_draft` is what happens else.
-/

namespace Alos.Registry

open Coop Py

/-! ## Rows that go on -/

/-- The content is the same, and the state is not behind. -/
structure RegistryEntry.Onward (old new : RegistryEntry) : Prop where
  digest : new.digest = old.digest
  payload : old.payload.Same new.payload
  forward : old.state.rank ≤ new.state.rank

/-- A row is on from itself. -/
theorem RegistryEntry.Onward.refl (entry : RegistryEntry) : entry.Onward entry :=
  ⟨rfl, rfl, le_refl _⟩

/-- Being on from a row is passed on. -/
theorem RegistryEntry.Onward.trans {a b c : RegistryEntry} (h : a.Onward b) (h' : b.Onward c) :
    a.Onward c :=
  ⟨h'.digest.trans h.digest, Eq.trans h.payload h'.payload, h.forward.trans h'.forward⟩

section Rows

variable {ι κ : Type}

/-- Every row is still there, and went on. -/
def RowsOnward (rows rows' : κ → Table RegistryEntry.storeKey) : Prop :=
  ∀ k key row, (rows k).get? key = some row → ∃ row', (rows' k).get? key = some row' ∧ row.Onward row'

/-- So it is of whole stores. -/
theorem RowsOnward.refl (rows : κ → Table RegistryEntry.storeKey) : RowsOnward rows rows :=
  fun _ _ row hrow => ⟨row, hrow, .refl row⟩

/-- Stores go on step by step. -/
theorem RowsOnward.trans {rows rows' rows'' : κ → Table RegistryEntry.storeKey}
    (h : RowsOnward rows rows') (h' : RowsOnward rows' rows'') : RowsOnward rows rows'' := by
  intro k key row hrow
  rcases h k key row hrow with ⟨row', hrow', honward⟩
  rcases h' k key row' hrow' with ⟨row'', hrow'', honward'⟩
  exact ⟨row'', hrow'', honward.trans honward'⟩

variable [DecidableEq κ]

/-- Writing a row that is on from the one before takes the store on. -/
theorem rowsOnward_putRow {s : Memory ι κ} {k : κ} {entry : RegistryEntry}
    (h : ∀ row, (s.rows k).get? entry.storeKey = some row → row.Onward entry) :
    RowsOnward s.rows (s.putRow k entry).rows := by
  intro k' key row hrow
  rw [Memory.putRow_rows]
  by_cases hk : k' = k
  · subst hk
    rw [Function.update_self, Table.get?_put]
    by_cases hkey : entry.storeKey = key
    · subst hkey
      exact ⟨entry, if_pos rfl, h row hrow⟩
    · exact ⟨row, (if_neg hkey).trans hrow, .refl row⟩
  · rw [Function.update_of_ne hk]
    exact ⟨row, hrow, .refl row⟩

/-- The row that was written is found. -/
theorem putRow_get? (s : Memory ι κ) (k : κ) (entry : RegistryEntry) :
    ((s.putRow k entry).rows k).get? entry.storeKey = some entry := by
  rw [Memory.putRow_rows, Function.update_self, Table.get?_put_self]

end Rows

/-! ## What a call is about to store -/

section Calls

variable {ι κ : Type} (x : Registries ι κ) (c : Call ι)

/-- The state of the entries that the call stores. -/
def Call.target : Call ι → RegistryState
  | .approve .. => .approved
  | .activate .. => .active
  | .suspend .. => .suspended
  | .register .. | .hydrate _ => .draft

/-- The payload that the call registers. -/
def Call.payload? : Call ι → Option Json.Fields
  | .register _ payload .. => some payload
  | _ => none

/-- The key of the rows that the call is about. -/
def Call.storeKey? : Option StoreKey :=
  match c.update? x with
  | some (.ok u) => some ⟨(x.registry c.registry).subjectType, u.key⟩
  | _ => none

/-- The row that is persisted under the key of the call. -/
def Call.row? (s : Memory ι κ) : Option RegistryEntry :=
  (c.storeKey? x).bind (s.rows (x.registry c.registry).store).get?

/-- Nothing of the row is lost by what the call does next: in memory the whole
row is replaced, in a database its lifecycle is; a registration selects it
first. -/
def Call.Agrees (row : RegistryEntry) : Exchange (Question ι) Answer → Prop
  | ⟨.save, answer⟩ => answer = Stored.returned → row.state.rank ≤ c.target.rank ∧
      ∀ payload ∈ c.payload?, row.digest = digest x payload ∧ row.payload.Same payload
  | ⟨.execute, answer⟩ => answer = Stored.returned → ∀ payload ∈ c.payload?,
      row.state = .draft ∧ row.digest = digest x payload
  | ⟨.commit, answer⟩ => answer = Stored.returned → c.payload? = none →
      row.state.rank ≤ c.target.rank
  | _ => True

instance (row : RegistryEntry) : (y : Exchange (Question ι) Answer) → Decidable (c.Agrees x row y)
  | ⟨.save, answer⟩ => inferInstanceAs (Decidable (answer = Stored.returned → _ ∧ _))
  | ⟨.execute, answer⟩ => inferInstanceAs (Decidable (answer = Stored.returned → ∀ _ ∈ _, _ ∧ _))
  | ⟨.commit, answer⟩ => inferInstanceAs (Decidable (answer = Stored.returned → _ = none → _ ≤ _))
  | ⟨.acquire _, _⟩ | ⟨.close, _⟩ | ⟨.load, _⟩ | ⟨.append _, _⟩ => isTrue trivial

/-- A registration finds its key persisted with its own digest. -/
def Call.Holds (s : Memory ι κ) : Prop :=
  ∀ payload ∈ c.payload?, ∃ row, c.row? x s = some row ∧ row.digest = digest x payload

variable {x c}

/-- A call that updates an entry names the row of it. -/
theorem Call.storeKey?_of_update {u : Update} (h : c.update? x = some (.ok u)) :
    c.storeKey? x = some ⟨(x.registry c.registry).subjectType, u.key⟩ := by
  rw [storeKey?, h]

/-- The entry a call makes is in the state the call leads to. -/
theorem Moves.target {found : Option RegistryEntry} {entry : RegistryEntry}
    (h : Moves x c found entry) : entry.state = c.target := by
  cases h with
  | registered hprepare =>
      obtain ⟨subjectId, version, rfl⟩ := prepare_ok hprepare
      rfl
  | _ => rfl

/-- What is registered is the payload of the call. -/
theorem Moves.payload {found : Option RegistryEntry} {entry : RegistryEntry}
    (h : Moves x c found entry) :
    ∀ payload ∈ c.payload?, entry.payload = payload ∧
      entry.digest = Registry.digest x payload := by
  intro payload hpayload
  cases h with
  | registered hprepare =>
      obtain ⟨subjectId, version, rfl⟩ := prepare_ok hprepare
      cases hpayload
      exact ⟨rfl, rfl⟩
  | _ => cases hpayload

/-- A transition stores the content that it found. -/
theorem Moves.found_of_transition {found : Option RegistryEntry} {entry : RegistryEntry}
    (h : Moves x c found entry) (hc : c.payload? = none) :
    ∃ old, found = some old ∧ old.SameContent entry := by
  cases found with
  | some old => exact ⟨old, rfl, h.evolves.1⟩
  | none =>
      cases h with
      | registered hprepare => cases hc

end Calls

/-! ## The invariant -/

section Invariant

variable {ι κ : Type} (x : Registries ι κ)

/-- An entry of the registry `i` is persisted: with its digest, and in memory
with its payload. -/
structure Backed (s : Memory ι κ) (i : ι) (entry : RegistryEntry) : Prop where
  subjectType : entry.subjectType = (x.registry i).subjectType
  row : ∃ row, (s.rows (x.registry i).store).get? entry.storeKey = some row ∧
    row.digest = entry.digest ∧
    (x.store (x.registry i).store = .inMemory → row.payload.Same entry.payload)

/-- What the call `c` is about to store. -/
structure Decided (s : Memory ι κ) (c : Call ι) (entry : RegistryEntry) : Prop where
  subjectType : entry.subjectType = (x.registry c.registry).subjectType
  storeKey : c.storeKey? x = some entry.storeKey
  state : entry.state = c.target
  payload : ∀ payload ∈ c.payload?, entry.payload = payload ∧ entry.digest = digest x payload
  backed : c.payload? = none → Backed x s c.registry entry

/-- What is known of the rows at a stage of the call `c`. -/
def Stage.Backed (c : Call ι) (s : Memory ι κ) : Stage → Prop
  | .waiting u => c.update? x = some (.ok u)
  | .saving _ entry => Decided x s c entry ∧ x.store (x.registry c.registry).store = .inMemory
  | .selecting _ entry => Decided x s c entry ∧ x.store (x.registry c.registry).store = .sql
  | .committing _ entry record => Decided x s c entry ∧ ∀ selected, record = some selected →
      Registry.Backed x s c.registry entry ∧ (c.payload? ≠ none → selected.state = .draft)
  | .closing _ entry => Registry.Backed x s c.registry entry ∧ c.Holds x s
  | .recording _ _ | .recorded _ _ | .returned _ => c.Holds x s
  | .loading => c.update? x = none
  | .reloading loaded => c.update? x = none ∧ ∀ e ∈ loaded, Registry.Backed x s c.registry e
  | .raised _ => True

/-- Every dict is backed by the rows. -/
structure AllBacked (w : RegistryWorld ι κ) (pool : RegistryPool ι) : Prop where
  dict : ∀ i, ∀ e ∈ (w.shared.entries i).values, Backed x w.shared i e
  stages : ∀ j c st, pool j = some (c, st) → st.Backed x c w.shared

end Invariant

section Turns

variable {ι κ : Type} {x : Registries ι κ} {c : Call ι} {s s' : Memory ι κ} {i : ι}
  {entry : RegistryEntry}

/-- An entry that has its row keeps it while rows only go on. -/
theorem Backed.onward (h : Backed x s i entry) (hrows : RowsOnward s.rows s'.rows) :
    Backed x s' i entry := by
  rcases h.row with ⟨row, hrow, hdigest, hpayload⟩
  rcases hrows _ _ row hrow with ⟨row', hrow', honward⟩
  refine ⟨h.subjectType, row', hrow', honward.digest.trans hdigest, fun hkind => ?_⟩
  exact honward.payload.symm.trans (hpayload hkind)

/-- So does an entry that a call has decided on. -/
theorem Decided.onward (h : Decided x s c entry) (hrows : RowsOnward s.rows s'.rows) :
    Decided x s' c entry where
  subjectType := h.subjectType
  storeKey := h.storeKey
  state := h.state
  payload := h.payload
  backed := fun hc => (h.backed hc).onward hrows

/-- So does what a call relies on. -/
theorem Call.Holds.onward (h : c.Holds x s) (hrows : RowsOnward s.rows s'.rows) : c.Holds x s' := by
  intro payload hpayload
  rcases h payload hpayload with ⟨row, hrow, hdigest⟩
  rw [Call.row?, Option.bind_eq_some_iff] at hrow
  rcases hrow with ⟨key, hkey, hrow⟩
  rcases hrows _ _ row hrow with ⟨row', hrow', honward⟩
  refine ⟨row', ?_, honward.digest.trans hdigest⟩
  rw [Call.row?, hkey]
  exact hrow'

/-- So does every stage of a call. -/
theorem Stage.Backed.onward {st : Stage} (h : st.Backed x c s) (hrows : RowsOnward s.rows s'.rows) :
    st.Backed x c s' := by
  cases st with
  | waiting u => exact h
  | saving u entry => exact ⟨h.1.onward hrows, h.2⟩
  | selecting u entry => exact ⟨h.1.onward hrows, h.2⟩
  | committing u entry record =>
      refine ⟨h.1.onward hrows, fun selected hselected => ?_⟩
      exact ⟨(h.2 selected hselected).1.onward hrows, (h.2 selected hselected).2⟩
  | closing u entry => exact ⟨h.1.onward hrows, h.2.onward hrows⟩
  | recording u entry => exact Call.Holds.onward h hrows
  | recorded u entry => exact Call.Holds.onward h hrows
  | returned entry => exact Call.Holds.onward h hrows
  | loading => exact h
  | reloading loaded => exact ⟨h.1, fun e he => (h.2 e he).onward hrows⟩
  | raised e => trivial

/-- The row a call will write is that of the entry it has decided on. -/
theorem Decided.row? (h : Decided x s c entry) (s' : Memory ι κ) :
    c.row? x s' = (s'.rows (x.registry c.registry).store).get? entry.storeKey := by
  rw [Call.row?, h.storeKey]
  rfl

/-- An entry whose row has its digest holds its key. -/
theorem Decided.holds (h : Decided x s c entry) {row : RegistryEntry}
    (hrow : (s'.rows (x.registry c.registry).store).get? entry.storeKey = some row)
    (hdigest : row.digest = entry.digest) : c.Holds x s' := by
  intro payload hpayload
  refine ⟨row, (h.row? s').trans hrow, hdigest.trans ?_⟩
  exact (h.payload payload hpayload).2

/-- A registration that finds its digest in the dict holds its key. -/
theorem AllBacked.holds_found {w : RegistryWorld ι κ} {pool : RegistryPool ι}
    (h : AllBacked x w pool) {u : Update} {existing : RegistryEntry}
    (hupdate : c.update? x = some (.ok u))
    (hdecide : u.decide ((w.shared.entries c.registry).get? u.key) = .ok (.found existing)) :
    c.Holds x w.shared := by
  intro payload hpayload
  cases Call.opens hupdate with
  | @register i _ _ _ _ _ _ _ prepared hprepare =>
      cases hpayload
      obtain ⟨hfound, hdigest⟩ := decideRegister_found hdecide
      obtain ⟨subjectId, version, hprepared⟩ := prepare_ok hprepare
      -- the entry found is persisted, with the digest of the payload
      have hbacked := h.dict i existing (Table.mem_of_get? hfound)
      rcases hbacked.row with ⟨row, hrow, hrowDigest, -⟩
      refine ⟨row, ?_, ?_⟩
      · have hfoundKey := Table.key_of_get? hfound
        rw [Call.row?, Call.storeKey?_of_update hupdate, ← hrow]
        simp only [RegistryEntry.storeKey, hbacked.subjectType, hfoundKey]
        rfl
      · rw [hrowDigest, hdigest, hprepared]
  | _ => cases hpayload

/-- What a call decides to store over a backed dict. -/
theorem AllBacked.decided {w : RegistryWorld ι κ} {pool : RegistryPool ι}
    (h : AllBacked x w pool) {u : Update} (hupdate : c.update? x = some (.ok u))
    (hdecide : u.decide ((w.shared.entries c.registry).get? u.key) = .ok (.stored entry)) :
    Decided x w.shared c entry := by
  have hfound : ∀ old, (w.shared.entries c.registry).get? u.key = some old → old.key = u.key :=
    fun old hold => Table.key_of_get? hold
  -- the entry that was found has its row
  have hbacked : ∀ old, (w.shared.entries c.registry).get? u.key = some old →
      Backed x w.shared c.registry old :=
    fun old hold => h.dict c.registry old (Table.mem_of_get? hold)
  have hmoves := Call.stores hupdate hfound hdecide
  have htype := hmoves.subjectType fun old hold => (hbacked old hold).subjectType
  refine ⟨htype, ?_, hmoves.target, hmoves.payload, fun hc => ?_⟩
  · rw [Call.storeKey?_of_update hupdate, ← Call.stores_key hupdate hfound hdecide, ← htype]
    rfl
  · rcases hmoves.found_of_transition hc with ⟨old, hold, hcontent⟩
    refine ⟨htype, ?_⟩
    rw [hcontent.storeKey, hcontent.digest, hcontent.payload]
    exact (hbacked old hold).row

/-! ## One turn -/

variable [DecidableEq ι] [DecidableEq κ] {w : RegistryWorld ι κ} {pool : RegistryPool ι} {j : ℕ}
  {st st' : Stage} {y : Exchange (Question ι) Answer}

/-- A row that is updated goes on, unless it is ahead of the entry. -/
theorem updated_onward {row selected : RegistryEntry}
    (h : entry.state = selected.state ∨ row.state.rank ≤ entry.state.rank) :
    row.Onward (row.updated selected entry) where
  digest := rfl
  payload := rfl
  forward := by
    simp only [RegistryEntry.updated]
    by_cases hstate : entry.state = selected.state
    · rw [if_pos hstate]
    · rw [if_neg hstate]
      exact h.resolve_left hstate

/-- The rows go on. -/
theorem AllBacked.rows_turn (h : AllBacked x w pool) (hj : pool j = some (c, st))
    (hturn : Turn x c.registry w.shared st y s' st')
    (hfresh : ∀ row, c.row? x w.shared = some row → c.Agrees x row y) :
    RowsOnward w.shared.rows s'.rows := by
  have hstage := h.stages j c st hj
  cases hturn with
  | @saved u entry =>
      obtain ⟨hdecided, hkind⟩ := hstage
      apply rowsOnward_putRow
      intro row hrow
      obtain ⟨hrank, hpayload⟩ := hfresh row ((hdecided.row? _).trans hrow) rfl
      cases hc : c.payload? with
      | none =>
          rcases (hdecided.backed hc).row with ⟨row', hrow', hdigest, hsame⟩
          rw [hrow] at hrow'
          cases hrow'
          exact ⟨hdigest.symm, hsame hkind, hdecided.state ▸ hrank⟩
      | some payload =>
          obtain ⟨hdigest, hsame⟩ := hpayload payload hc
          obtain ⟨hentry, hdigest'⟩ := hdecided.payload payload hc
          exact ⟨hdigest'.trans hdigest.symm, hentry ▸ hsame, hdecided.state ▸ hrank⟩
  | @inserted u entry hnone =>
      apply rowsOnward_putRow
      intro row hrow
      rw [hnone] at hrow
      cases hrow
  | @updated u entry selected row hrow =>
      obtain ⟨hdecided, hselected⟩ := hstage
      have hkey : row.storeKey = entry.storeKey := Table.key_of_get? hrow
      apply rowsOnward_putRow
      intro row' hrow'
      rw [show (row.updated selected entry).storeKey = row.storeKey from rfl, hkey, hrow] at hrow'
      cases hrow'
      apply updated_onward
      by_cases hc : c.payload? = none
      · refine .inr ?_
        rw [hdecided.state]
        exact hfresh row ((hdecided.row? _).trans hrow) rfl hc
      · -- a registration writes no state over a draft
        refine .inl ?_
        rw [(hselected selected rfl).2 hc, hdecided.state]
        cases c with
        | register => rfl
        | _ => exact absurd rfl hc
  | _ => exact .refl _

/-- What the call knows at its new stage. -/
theorem AllBacked.stage_turn (h : AllBacked x w pool) (hj : pool j = some (c, st))
    (hturn : Turn x c.registry w.shared st y s' st')
    (hfresh : ∀ row, c.row? x w.shared = some row → c.Agrees x row y) : st'.Backed x c s' := by
  have hrows := h.rows_turn hj hturn hfresh
  have hstage := h.stages j c st hj
  cases hturn with
  | found hdecide => exact Call.Holds.onward (h.holds_found hstage hdecide) hrows
  | @stores u entry hdecide =>
      have hdecided := (h.decided hstage hdecide).onward hrows
      unfold entering
      cases hkind : x.store (x.registry c.registry).store with
      | inMemory => exact ⟨hdecided, hkind⟩
      | sql => exact ⟨hdecided, hkind⟩
  | @saved u entry => exact hstage.1.holds (putRow_get? ..) rfl
  | @selected u entry =>
      refine ⟨hstage.1, fun selected hselected => ?_⟩
      -- the row agrees with the call, as nothing was lost
      have hagrees := hfresh selected ((hstage.1.row? _).trans hselected) rfl
      refine ⟨?_, fun hc => ?_⟩
      · cases hc : c.payload? with
        | none => exact hstage.1.backed hc
        | some payload =>
            refine ⟨hstage.1.subjectType, selected, hselected, ?_, fun hkind => ?_⟩
            · rw [(hagrees payload hc).2, (hstage.1.payload payload hc).2]
            · rw [hstage.2] at hkind
              cases hkind
      · rcases Option.ne_none_iff_exists'.1 hc with ⟨payload, hpayload⟩
        exact (hagrees payload hpayload).1
  | @inserted u entry hnone =>
      have hrow := putRow_get? w.shared (x.registry c.registry).store entry
      exact ⟨⟨hstage.1.subjectType, entry, hrow, rfl, fun _ => rfl⟩, hstage.1.holds hrow rfl⟩
  | @updated u entry selected row hrow =>
      have hbacked := ((hstage.2 selected rfl).1).onward hrows
      refine ⟨hbacked, ?_⟩
      -- the row is not older than the one that was selected
      rcases hbacked.row with ⟨row', hrow', hdigest, -⟩
      exact hstage.1.holds hrow' hdigest
  | closed => exact Call.Holds.onward hstage.2 hrows
  | recorded => exact hstage
  | loaded =>
      refine ⟨hstage, fun e he => ?_⟩
      obtain ⟨hmem, htype⟩ := List.mem_filter.1 he
      exact ⟨by simpa using htype, e, Table.get?_of_mem hmem, rfl, fun _ => rfl⟩
  | reloaded =>
      intro payload hpayload
      rw [Call.hydrate_of_update? hstage.1] at hpayload
      cases hpayload
  | _ => trivial

/-- The dicts stay backed. -/
theorem AllBacked.dict_turn (h : AllBacked x w pool) (hj : pool j = some (c, st))
    (hturn : Turn x c.registry w.shared st y s' st')
    (hfresh : ∀ row, c.row? x w.shared = some row → c.Agrees x row y) (i : ι) :
    ∀ e ∈ (s'.entries i).values, Backed x s' i e := by
  have hrows := h.rows_turn hj hturn hfresh
  have hstage := h.stages j c st hj
  -- rows only go on, so the entries of the cache stay backed
  have hold : ∀ e ∈ (w.shared.entries i).values, Backed x s' i e :=
    fun e he => (h.dict i e he).onward hrows
  have hput : ∀ entry, Backed x s' c.registry entry →
      ∀ e ∈ ((w.shared.putEntry c.registry entry).entries i).values, Backed x s' i e := by
    intro entry hentry e he
    rcases Memory.mem_putEntry he with he | ⟨rfl, rfl⟩
    · exact hold e he
    · exact hentry
  cases hturn with
  | @saved u entry =>
      apply hput entry
      exact ⟨hstage.1.subjectType, entry, putRow_get? .., rfl, fun _ => rfl⟩
  | @closed u entry => exact hput entry (hstage.1.onward hrows)
  | @reloaded loaded =>
      intro e he
      rw [Memory.setLocked_entries] at he
      rcases Memory.mem_setEntries he with hmem | ⟨rfl, hmem⟩
      · exact hold e hmem
      · exact (hstage.2 e hmem).onward hrows
  | _ => exact hold

end Turns

/-! ## Runs -/

section Runs

variable {ι κ : Type} [DecidableEq ι] [DecidableEq κ] (x : Registries ι κ)

/-- The registries are hydrated over the rows of the stores. -/
def hydrated (rows : κ → Table RegistryEntry.storeKey) : Memory ι κ where
  rows := rows
  entries := view x ⟨rows, fun _ => .empty, fun _ => false⟩
  locked := fun _ => false

/-- Nothing that is persisted is lost by the step. -/
def Fresh (t : RegistrySys ι κ) : RegistryStep ι → Prop
  | .call _ _ => True
  | .resume j reply => ∀ th ∈ t.threads j, ∀ q ∈ th.now.stop.question?,
      ∀ row ∈ th.call.row? x t.shared, th.call.Agrees x row ⟨q, reply q⟩

instance (t : RegistrySys ι κ) (step : RegistryStep ι) : Decidable (Fresh x t step) := by
  unfold Fresh
  split <;> infer_instance

/-- The state after the steps `xs`, from hydrated registries. -/
def sharing (rows : κ → Table RegistryEntry.storeKey) (xs : List (RegistryStep ι)) :
    RegistrySys ι κ :=
  run (Call.prog x) (init (hydrated x rows)) xs

/-- The law of the persisted versions along the steps `xs`. -/
structure Persistent (rows : κ → Table RegistryEntry.storeKey) (xs : List (RegistryStep ι)) :
    Prop where
  /-- Content never changes, and states never go back. -/
  onward : ∀ pre post, xs = pre ++ post →
    RowsOnward (sharing x rows pre).shared.rows (sharing x rows xs).shared.rows
  /-- A registration that succeeds has its digest persisted. -/
  registered : ∀ j th entry, (sharing x rows xs).threads j = some th →
    th.now.stop = .returned entry → th.call.Holds x (sharing x rows xs).shared

variable {x}

/-- Every step that is `Fresh` keeps each entry backed by its row. -/
theorem backed_keeps : (staging x).Keeps (Fresh x) (AllBacked x) where
  start := by
    intro t pool i c s' st hpool h hP hi hbegins
    -- the first segment stores nothing
    have hs : s' = t.shared := by
      cases hbegins <;> rfl
    subst hs
    refine ⟨h.dict, ?_⟩
    intro j d u hj
    rcases Pool.put_eq_some.1 hj with ⟨rfl, rfl, rfl⟩ | ⟨hne, hj⟩
    · cases hbegins with
      | refused hupdate => trivial
      | opened hupdate => exact hupdate
      | loads hupdate => exact hupdate
    · exact h.stages j d u hj
  turn := by
    intro t pool i reply c st q k a s' st' hpool h hP hi hnow hreply hturn
    have hfresh : ∀ row, c.row? x t.shared = some row → c.Agrees x row ⟨q, a⟩ := by
      subst hreply
      apply hP _ (hpool.thread_some hi) q
      rw [hnow]
      rfl
    have hrows := h.rows_turn hi hturn hfresh
    refine ⟨fun j => h.dict_turn hi hturn hfresh j, ?_⟩
    intro j d u hj
    rcases Pool.put_eq_some.1 hj with ⟨rfl, rfl, rfl⟩ | ⟨hne, hj⟩
    · exact h.stage_turn hi hturn hfresh
    · exact (h.stages j d u hj).onward hrows

/-- So it is in every state of a run of instances that share the rows. -/
theorem backed_sharing {rows : κ → Table RegistryEntry.storeKey} {xs : List (RegistryStep ι)}
    (h : Along (Call.prog x) (Fresh x) (init (hydrated x rows)) xs) :
    (staging x).Staged (AllBacked x) (sharing x rows xs) := by
  apply backed_keeps.run_inv (staging_follows x) _ xs h
  refine ⟨fun _ => none, Staging.describes_init _, ?_, ?_⟩
  · intro i e he
    obtain ⟨hmem, htype⟩ := List.mem_filter.1 (Table.mem_of_ofList he)
    exact ⟨by simpa using htype, e, Table.get?_of_mem hmem, rfl, fun _ => rfl⟩
  · intro j c st hj
    cases hj

/-- One step. -/
theorem onward_next {t : RegistrySys ι κ} (h : (staging x).Staged (AllBacked x) t)
    {step : RegistryStep ι} (hfresh : Fresh x t step) :
    RowsOnward t.shared.rows (next (Call.prog x) t step).shared.rows := by
  rcases h with ⟨pool, hpool, hbacked⟩
  rcases hpool.next (staging_follows x) step with ⟨pool', -, hmoved⟩
  generalize (next (Call.prog x) t step).toWorld = w at hmoved
  cases hmoved with
  | idle => exact .refl _
  | start hi hbegins => cases hbegins <;> exact .refl _
  | turn hj hnow hturn =>
      apply hbacked.rows_turn hj hturn
      apply hfresh _ (hpool.thread_some hj)
      rw [hnow]
      rfl

/-- In every run in which no write loses what is persisted, the law holds. -/
theorem persistent_of_fresh {rows : κ → Table RegistryEntry.storeKey} {xs : List (RegistryStep ι)}
    (h : Along (Call.prog x) (Fresh x) (init (hydrated x rows)) xs) : Persistent x rows xs where
  onward := by
    rintro pre post rfl
    induction post using List.reverseRecOn with
    | nil =>
        rw [List.append_nil]
        exact .refl _
    | append_singleton post step ih =>
        rw [← List.append_assoc] at h ⊢
        have hpre := Along.of_append h
        refine (ih hpre).trans ?_
        have hnext : sharing x rows (pre ++ post ++ [step]) =
            next (Call.prog x) (sharing x rows (pre ++ post)) step := run_snoc ..
        rw [hnext]
        exact onward_next (backed_sharing hpre) h.last
  registered := by
    intro j th entry hth hstop
    rcases backed_sharing h with ⟨pool, hpool, hbacked⟩
    rcases hpool.stage hth with ⟨st, hj, hnow⟩
    have hstage := hbacked.stages j _ st hj
    -- a call that has returned an entry has persisted it
    rw [hnow] at hstop
    cases st with
    | recorded u entry => exact hstage
    | returned entry => exact hstage
    | _ => cases hstop

end Runs

/-! ## Two servers over one database -/

/-- Two processes that keep their skills in one database. -/
def servers : Registries Bool Unit where
  contracts := ⟨fun _ => true, fun _ _ => none⟩
  sha256 := id
  repr := Json.dumps
  registry := fun _ => skillRegistry ()
  store := fun _ => .sql

/-- A registration of the skill under a given name, at one of the two instances. -/
def registerNamed (i : Bool) (name : String) : Call Bool :=
  .register i [("skill_id", .str "skill.registry.atomicity"), ("skill_version", .str "1.0.0"),
    ("name", .str name)] "tenant_atomicity" "organization_atomicity" "workspace_atomicity"
    "actor_atomicity" "corr_atomicity" 0

/-- The approval of that skill by IT. -/
def approveNamed (i : Bool) : Call Bool :=
  .approve i ⟨"tenant_atomicity", "workspace_atomicity", "skill.registry.atomicity", "1.0.0"⟩
    "actor_it_atomicity" "decision_atomicity" "IT" "corr_atomicity"

/-- A database and a sink that take everything. -/
def succeeding : (q : Question Bool) → Answer q
  | .acquire _ => ()
  | .save => .returned
  | .execute => .returned
  | .commit => .returned
  | .close => ()
  | .load => .returned
  | .append _ => .returned

/-- The call number `j`, with the answers to its lock, its session and its
append. -/
def session (j : ℕ) (c : Call Bool) : List (RegistryStep Bool) :=
  [.call j c, .resume j succeeding, .resume j succeeding, .resume j succeeding,
    .resume j succeeding, .resume j succeeding]

/-- The second server hydrates before it approves what the first registered. -/
def turns : List (RegistryStep Bool) :=
  session 0 (registerNamed false "Registry atomicity") ++
    [.call 1 (.hydrate true), .resume 1 succeeding, .resume 1 succeeding] ++
    session 2 (approveNamed true)

/-- Two instances in turn, the second hydrated after the first has written. -/
theorem persistent_of_fresh_turns : Persistent servers (fun _ => .empty) turns := by
  apply persistent_of_fresh
  decide +kernel

/-- The first server registers a version and approves it. -/
def first : List (RegistryStep Bool) :=
  session 0 (registerNamed false "Registry atomicity") ++ session 1 (approveNamed false)

/-- The second server, hydrated at start, registers another content. -/
def second : List (RegistryStep Bool) := session 2 (registerNamed true "Another content")

/-- The same calls, hydrated before: the approval is lost. -/
theorem reset_to_draft : ¬ Persistent servers (fun _ => .empty) (first ++ second) := by
  intro h
  let key : StoreKey := ⟨"skill", "tenant_atomicity", "workspace_atomicity",
    "skill.registry.atomicity", "1.0.0"⟩
  have hbefore : (((sharing servers (fun _ => .empty) first).shared.rows ()).get? key).map
      RegistryEntry.state = some .approved := by
    decide +kernel
  have hafter : (((sharing servers (fun _ => .empty) (first ++ second)).shared.rows ()).get? key).map
      RegistryEntry.state = some .draft := by
    decide +kernel
  obtain ⟨row, hrow, happroved⟩ := Option.map_eq_some_iff.1 hbefore
  obtain ⟨row', hrow', honward⟩ := h.onward first second rfl () key row hrow
  have hforward := honward.forward
  rw [hrow', Option.map_some, Option.some.injEq] at hafter
  rw [happroved, hafter] at hforward
  exact absurd hforward (by decide)

end Alos.Registry
