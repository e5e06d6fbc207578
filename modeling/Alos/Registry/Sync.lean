import Alos.Registry.Moves

/-! # A registry and its rows

The dict of a registry against the rows of its store, in any run in which

* the lock of a registry is handed over while it is free, and a hydration
  overlaps no other call of its registry (`Orderly`);
* no two registries keep their rows in one place (`Separate`).

`Synced` is the joint invariant: the dict is what a hydration would make it,
except between the commit of an entry and the return of its save, when the
dict lacks just that entry.
-/

namespace Alos.Registry

open Coop Py

section Rows

variable {ι κ : Type} (x : Registries ι κ)

/-- No two registries keep entries of one subject type in one store. -/
def Separate : Prop :=
  ∀ i j, (x.registry i).store = (x.registry j).store →
    (x.registry i).subjectType = (x.registry j).subjectType → i = j

/-- The dict that a hydration makes. -/
def view (s : Memory ι κ) (i : ι) : Table RegistryEntry.key :=
  .ofList (s.load (x.registry i).store (x.registry i).subjectType)

/-- The rows of one subject type have distinct keys in the registry, too. -/
theorem load_nodup (s : Memory ι κ) (k : κ) (subjectType : String) :
    ((s.load k subjectType).map RegistryEntry.key).Nodup := by
  have hrows : ((s.load k subjectType).map RegistryEntry.storeKey).Nodup :=
    (s.rows k).nodup.sublist (List.filter_sublist.map _)
  have htype : ∀ e ∈ s.load k subjectType, e.subjectType = subjectType := by
    intro e he
    simpa using (List.mem_filter.1 he).2
  apply List.Nodup.of_map fun key => (⟨subjectType, key⟩ : StoreKey)
  rw [List.map_map]
  have hmap : (s.load k subjectType).map RegistryEntry.storeKey =
      (s.load k subjectType).map ((fun key => (⟨subjectType, key⟩ : StoreKey)) ∘
        RegistryEntry.key) := by
    apply List.map_congr_left
    intro e he
    simp only [RegistryEntry.storeKey, htype e he, Function.comp_apply]
  rwa [← hmap]

theorem view_values (s : Memory ι κ) (i : ι) :
    (view x s i).values = s.load (x.registry i).store (x.registry i).subjectType :=
  Table.ofList_values (load_nodup ..)

/-- A row is found in the view under its key. -/
theorem view_get? (s : Memory ι κ) (i : ι) {entry : RegistryEntry}
    (htype : entry.subjectType = (x.registry i).subjectType) :
    (view x s i).get? entry.key = (s.rows (x.registry i).store).get? entry.storeKey := by
  apply Option.ext
  intro row
  rw [Table.get?_eq_some, Table.get?_eq_some, view_values]
  simp only [Memory.load, List.mem_filter, decide_eq_true_eq, RegistryEntry.storeKey,
    StoreKey.mk.injEq, ← htype]
  tauto

variable {x} [DecidableEq κ]

/-- A row is saved: the views of the registries it belongs to change with it. -/
theorem view_putRow (s : Memory ι κ) (i : ι) (entry : RegistryEntry)
    (htype : entry.subjectType = (x.registry i).subjectType) :
    view x (s.putRow (x.registry i).store entry) i = (view x s i).put entry := by
  apply Table.ext
  rw [view_values, Table.put_values, view_values]
  simp only [Memory.load, Memory.putRow_rows, Function.update_self, Table.put_values]
  rw [assign_filter]
  · apply assign_congr
    intro row hrow
    have hrow' : row.subjectType = entry.subjectType := by
      rw [htype]
      simpa using (List.mem_filter.1 hrow).2
    simp only [RegistryEntry.storeKey, StoreKey.mk.injEq, hrow', true_and]
  · intro row hrow
    have hrow' : row.subjectType = entry.subjectType := congrArg StoreKey.subjectType hrow
    simpa [hrow'] using htype

/-- The other registries load what they loaded before. -/
theorem load_putRow (s : Memory ι κ) {k k' : κ} {subjectType : String} {entry : RegistryEntry}
    (h : k' = k → entry.subjectType ≠ subjectType) :
    (s.putRow k entry).load k' subjectType = s.load k' subjectType := by
  by_cases hk : k' = k
  · subst hk
    simp only [Memory.load, Memory.putRow_rows, Function.update_self, Table.put_values]
    apply assign_filter_not
    intro row hrow
    have hrow' : row.subjectType = entry.subjectType := congrArg StoreKey.subjectType hrow
    simpa [hrow'] using h rfl
  · simp only [Memory.load, Memory.putRow_rows, Function.update_of_ne hk]

end Rows

/-! ## The invariant -/

abbrev RegistrySys (ι κ : Type) :=
  Sys (Call ι) (Memory ι κ) (Question ι) Answer RegistryError (Option RegistryEntry)

abbrev RegistryWorld (ι κ : Type) :=
  World (Call ι) (Memory ι κ) (Question ι) Answer RegistryError (Option RegistryEntry)

abbrev RegistryPool (ι : Type) := Pool (Call ι) Stage

def Stage.Over : Stage → Prop
  | .recorded _ _ | .returned _ | .raised _ => True
  | _ => False

/-- The lock that a call holds. -/
def Stage.lock {ι : Type} (c : Call ι) : Stage → Option ι
  | .saving _ _ | .selecting _ _ | .committing _ _ _ | .closing _ _ => some c.registry
  | _ => none

section Conditions

variable {ι κ : Type} [DecidableEq ι]

/-- A hydration starts when the other calls of its registry are over, and none
starts while it runs. -/
def HydratesAlone (t : RegistrySys ι κ) : Step (Call ι) (Question ι) Answer → Prop
  | .call _ (.hydrate i) => ∀ j th, t.threads j = some th → th.call.registry = i → th.now.stop.Over
  | .call _ c => ∀ j th, t.threads j = some th → th.call = .hydrate c.registry → th.now.stop.Over
  | .resume _ _ => True

/-- The steps of the runs considered. -/
structure Orderly (t : RegistrySys ι κ) (step : Step (Call ι) (Question ι) Answer) : Prop where
  granted : (locks ι κ).Granted t step
  hydrates : HydratesAlone t step

end Conditions

section Invariant

variable {ι κ : Type} (x : Registries ι κ)

/-- What is known of a call at a stage: the update it carries out, and while it
holds the lock that the dict still holds what it decided on. -/
def Stage.Fits (c : Call ι) (s : Memory ι κ) : Stage → Prop
  | .waiting u => c.update? x = some (.ok u)
  | .saving u entry | .selecting u entry | .closing u entry =>
      c.update? x = some (.ok u) ∧
        u.decide ((s.entries c.registry).get? u.key) = .ok (.stored entry)
  | .committing u entry record =>
      c.update? x = some (.ok u) ∧
        u.decide ((s.entries c.registry).get? u.key) = .ok (.stored entry) ∧
        record = (s.entries c.registry).get? u.key
  | .recording u _ => c.update? x = some (.ok u)
  | .loading => c.update? x = none
  | .reloading loaded => c.update? x = none ∧
      loaded = s.load (x.registry c.registry).store (x.registry c.registry).subjectType
  | .recorded _ _ | .returned _ | .raised _ => True

/-- The dict of `i` is what a hydration would make it, but for the entry of a
call that waits for its session to end. -/
structure InStep (s : Memory ι κ) (pool : RegistryPool ι) (i : ι) : Prop where
  typed : ∀ e ∈ (s.entries i).values, e.subjectType = (x.registry i).subjectType
  quiet : (∀ j c u entry, pool j = some (c, .closing u entry) → c.registry ≠ i) →
    view x s i = s.entries i
  closing : ∀ j c u entry, pool j = some (c, .closing u entry) → c.registry = i →
    view x s i = (s.entries i).put entry

/-- The joint invariant. -/
structure Synced (w : RegistryWorld ι κ) (pool : RegistryPool ι) : Prop where
  exclusive : Exclusive w.shared.locked Stage.lock pool
  lone : ∀ i j c d st u, pool i = some (c, st) → pool j = some (d, u) → c.update? x = none →
    ¬ st.Over → d.registry = c.registry → ¬ u.Over → i = j
  fits : ∀ i c st, pool i = some (c, st) → st.Fits x c w.shared
  inStep : ∀ i, InStep x w.shared pool i

end Invariant

section Known

variable {ι κ : Type} {x : Registries ι κ} {c : Call ι} {s s' : Memory ι κ} {st : Stage}
  {pool : RegistryPool ι} {i : ℕ}

/-- What is known of a call that holds the lock. -/
theorem Stage.Fits.held (h : st.Fits x c s) (hlock : st.lock c ≠ none) :
    ∃ u entry, c.update? x = some (.ok u) ∧
      u.decide ((s.entries c.registry).get? u.key) = .ok (.stored entry) := by
  cases st with
  | saving u entry => exact ⟨u, entry, h⟩
  | selecting u entry => exact ⟨u, entry, h⟩
  | committing u entry record => exact ⟨u, entry, h.1, h.2.1⟩
  | closing u entry => exact ⟨u, entry, h⟩
  | _ => exact absurd rfl hlock

/-- What a call has decided to store over the dict of its registry. -/
structure Stores (x : Registries ι κ) (c : Call ι) (s : Memory ι κ) (entry : RegistryEntry) : Prop
    where
  moves : Moves x c ((s.entries c.registry).get? entry.key) entry
  subjectType : entry.subjectType = (x.registry c.registry).subjectType

theorem InStep.stores {u : Update} {entry : RegistryEntry} (h : InStep x s pool c.registry)
    (hupdate : c.update? x = some (.ok u))
    (hdecide : u.decide ((s.entries c.registry).get? u.key) = .ok (.stored entry)) :
    Stores x c s entry ∧ entry.key = u.key := by
  have hfound : ∀ old, (s.entries c.registry).get? u.key = some old → old.key = u.key :=
    fun old hold => Table.key_of_get? hold
  have hkey := Call.stores_key hupdate hfound hdecide
  have hmoves := Call.stores hupdate hfound hdecide
  refine ⟨⟨by rwa [hkey], ?_⟩, hkey⟩
  apply hmoves.subjectType
  intro old hold
  exact h.typed old (Table.mem_of_get? hold)

/-- A row that is updated as it was selected becomes the new entry. -/
theorem updated_self {old entry : RegistryEntry} (h : old.SameContent entry) :
    RegistryEntry.updated old old entry = entry := by
  rcases old with ⟨_, _, _, _, _, _, _, _, _, _, _, _, _, _⟩
  rcases entry with ⟨_, _, _, _, _, _, _, _, _, _, _, _, _, _⟩
  obtain ⟨hkey, horganization, hpayload, hdigest, hcreatedBy, hcreatedAt⟩ := h
  simp only [RegistryEntry.storeKey, RegistryEntry.key, StoreKey.mk.injEq, RegistryKey.mk.injEq] at *
  obtain ⟨rfl, rfl, rfl, rfl, rfl⟩ := hkey
  subst horganization hpayload hdigest hcreatedBy hcreatedAt
  simp only [RegistryEntry.updated, RegistryEntry.mk.injEq, true_and]
  refine ⟨?_, ?_, ?_, ?_⟩ <;> (split <;> simp_all)

/-- While a call holds the lock of its registry, no other call of it waits for
its session to end. -/
theorem Synced.quiet_of_held {w : RegistryWorld ι κ} (h : Synced x w pool)
    (hi : pool i = some (c, st)) (hlock : st.lock c = some c.registry)
    (hst : ∀ u entry, st ≠ .closing u entry) :
    view x w.shared c.registry = w.shared.entries c.registry := by
  apply (h.inStep c.registry).quiet
  intro j d u entry hj hregistry
  have hij : i = j := by
    apply h.exclusive.unique i j c d st _ c.registry hi hj hlock
    exact congrArg some hregistry
  subst hij
  rw [hi] at hj
  cases hj
  exact hst u entry rfl

/-- Nor while a hydration runs. -/
theorem Synced.quiet_of_hydrating {w : RegistryWorld ι κ} (h : Synced x w pool)
    (hi : pool i = some (c, st)) (hupdate : c.update? x = none) (hst : ¬ st.Over)
    (hclosing : ∀ u entry, st ≠ .closing u entry) :
    view x w.shared c.registry = w.shared.entries c.registry := by
  apply (h.inStep c.registry).quiet
  intro j d u entry hj hregistry
  have hij := h.lone i j c d st _ hi hj hupdate hst hregistry (fun hover => hover)
  subst hij
  rw [hi] at hj
  cases hj
  exact hclosing u entry rfl

/-- Nothing of a registry changes: it stays in step. -/
theorem InStep.congr {pool' : RegistryPool ι} {j : ι} (h : InStep x s pool j)
    (hentries : s'.entries j = s.entries j) (hload : view x s' j = view x s j)
    (hclosing : ∀ k d u entry, d.registry = j →
      (pool' k = some (d, .closing u entry) ↔ pool k = some (d, .closing u entry))) :
    InStep x s' pool' j where
  typed := by
    rw [hentries]
    exact h.typed
  quiet := by
    intro hquiet
    rw [hentries, hload]
    apply h.quiet
    intro k d u entry hk hd
    exact hquiet k d u entry ((hclosing k d u entry hd).2 hk) hd
  closing := by
    intro k d u entry hk hd
    rw [hentries, hload]
    exact h.closing k d u entry ((hclosing k d u entry hd).1 hk) hd

/-- A dict that is of its subject type stays so. -/
theorem typed_put {j : ι} {entry : RegistryEntry}
    (h : ∀ e ∈ (s.entries j).values, e.subjectType = (x.registry j).subjectType)
    (hentry : entry.subjectType = (x.registry j).subjectType) :
    ∀ e ∈ ((s.entries j).put entry).values, e.subjectType = (x.registry j).subjectType := by
  intro e he
  rcases Table.mem_put.1 he with rfl | ⟨he, -⟩
  · exact hentry
  · exact h e he

theorem load_congr (hrows : s'.rows = s.rows) (k : κ) (subjectType : String) :
    s'.load k subjectType = s.load k subjectType := by
  rw [Memory.load, hrows, Memory.load]

/-- While the lock is held, the call that holds it is the only one of its
registry that may change it. -/
theorem Synced.others_loose {w : RegistryWorld ι κ} (h : Synced x w pool)
    (hi : pool i = some (c, st)) (hlock : st.lock c = some c.registry) {j : ℕ} (hj : j ≠ i)
    {d : Call ι} {u : Stage} (hpool : pool j = some (d, u)) (hregistry : d.registry = c.registry) :
    u.lock d = none ∧ ∀ loaded, u ≠ .reloading loaded := by
  constructor
  · have hlocks : u.lock d = none ∨ u.lock d = some d.registry := by
      cases u <;> simp [Stage.lock]
    rcases hlocks with hnone | hsome
    · exact hnone
    · exact absurd (h.exclusive.unique j i d c u st c.registry hpool hi (hregistry ▸ hsome) hlock) hj
  · rintro loaded rfl
    have hover : ¬ st.Over := by
      cases st <;> first | exact fun hover => hover | cases hlock
    exact hj (h.lone j i d c _ st hpool hi (h.fits j d _ hpool).1 (fun hover => hover)
      hregistry.symm hover)

/-- What is known of a call that holds no lock does not depend on the state. -/
theorem Stage.Fits.loose {d : Call ι} {u : Stage} (h : u.Fits x d s) (hlock : u.lock d = none)
    (hreloading : ∀ loaded, u ≠ .reloading loaded) : u.Fits x d s' := by
  cases u with
  | reloading loaded => exact absurd rfl (hreloading loaded)
  | saving => cases hlock
  | selecting => cases hlock
  | committing => cases hlock
  | closing => cases hlock
  | _ => exact h

theorem Stage.Fits.congr {d : Call ι} {u : Stage} (h : u.Fits x d s)
    (hentries : s'.entries d.registry = s.entries d.registry)
    (hload : s'.load (x.registry d.registry).store (x.registry d.registry).subjectType =
      s.load (x.registry d.registry).store (x.registry d.registry).subjectType) :
    u.Fits x d s' := by
  cases u <;> simp only [Stage.Fits, hentries, hload] at h ⊢ <;> exact h

theorem inStep_empty (i : ι) : InStep x (.empty : Memory ι κ) (fun _ => none) i where
  typed := by
    intro e he
    cases he
  quiet := by
    intro _
    rfl
  closing := by
    intro j c u entry hj
    cases hj

end Known

section Turns

variable {ι κ : Type} [DecidableEq ι] [DecidableEq κ] {x : Registries ι κ} {c : Call ι}
  {s s' : Memory ι κ} {st st' : Stage} {y : Exchange (Question ι) Answer} {pool : RegistryPool ι}
  {i : ℕ}

/-- A turn takes the lock of its registry while it is free, and gives back what
it has taken. -/
theorem Turn.handling (h : Turn x c.registry s st y s' st')
    (hfree : ∀ l, y.1 = .acquire l → s.locked l = false) :
    Handling s.locked (st.lock c) s'.locked (st'.lock c) := by
  cases h with
  | stopped hdecide =>
      rw [Memory.setLocked_eq_self (hfree _ rfl)]
      exact .idle
  | found hdecide =>
      rw [Memory.setLocked_eq_self (hfree _ rfl)]
      exact .idle
  | stores hdecide =>
      -- a stage that saves holds the lock of its registry
      have hlock : ∀ u entry, (entering x c.registry u entry).lock c = some c.registry := by
        intro u entry
        unfold entering
        split <;> rfl
      rw [hlock]
      exact .take (hfree _ rfl)
  | failed hst =>
      have hlock : st.lock c = some c.registry := by
        cases st <;> first | rfl | cases hst
      rw [hlock]
      exact .release
  | saved => exact .release
  | selected => exact .keep
  | inserted hrow => exact .keep
  | updated hrow => exact .keep
  | closed => exact .release
  | recorded => exact .idle
  | unrecorded => exact .idle
  | unloaded => exact .idle
  | loaded => exact .idle
  | reloaded =>
      rw [Memory.setLocked_eq_self (s := s.setEntries ..) (hfree _ rfl)]
      exact .idle

/-- What a turn does to the dicts and the rows, in step as they are: nothing,
or an entry is stored that the call decided on. -/
inductive Effect (x : Registries ι κ) (c : Call ι) (s : Memory ι κ) :
    Stage → Memory ι κ → Stage → Prop where
  | idle {st st' : Stage} {s' : Memory ι κ} (hentries : s'.entries = s.entries) (hrows : s'.rows = s.rows)
      (h : ∀ u entry, st ≠ .closing u entry) (h' : ∀ u entry, st' ≠ .closing u entry) :
      Effect x c s st s' st'
  | saved {u : Update} {entry : RegistryEntry} {s' : Memory ι κ} (hstores : Stores x c s entry)
      (hentries : s'.entries = (s.putEntry c.registry entry).entries)
      (hrows : s'.rows = (s.putRow (x.registry c.registry).store entry).rows) :
      Effect x c s (.saving u entry) s' (.recording u entry)
  | committed {u : Update} {entry : RegistryEntry} {record : Option RegistryEntry}
      {s' : Memory ι κ} (hstores : Stores x c s entry) (hentries : s'.entries = s.entries)
      (hrows : s'.rows = (s.putRow (x.registry c.registry).store entry).rows) :
      Effect x c s (.committing u entry record) s' (.closing u entry)
  | closed {u : Update} {entry : RegistryEntry} {s' : Memory ι κ} (hstores : Stores x c s entry)
      (hentries : s'.entries = (s.putEntry c.registry entry).entries) (hrows : s'.rows = s.rows) :
      Effect x c s (.closing u entry) s' (.recording u entry)

/-! ## Every turn keeps the invariant -/

theorem Synced.effect {w : RegistryWorld ι κ} (h : Synced x w pool) (hi : pool i = some (c, st))
    (hturn : Turn x c.registry w.shared st y s' st') : Effect x c w.shared st s' st' := by
  have hfits := h.fits i c st hi
  have hstep := h.inStep c.registry
  cases hturn with
  | stopped hdecide => exact .idle rfl rfl (by simp) (by simp)
  | found hdecide => exact .idle rfl rfl (by simp) (by simp)
  | stores hdecide =>
      refine .idle rfl rfl (by simp) ?_
      intro u entry
      unfold entering
      split <;> simp
  | failed hst =>
      refine .idle rfl rfl ?_ (by simp)
      rintro u entry rfl
      exact hst
  | saved => exact .saved (hstep.stores hfits.1 hfits.2).1 rfl rfl
  | selected => exact .idle rfl rfl (by simp) (by simp)
  | inserted hrow => exact .committed (hstep.stores hfits.1 hfits.2.1).1 rfl rfl
  | @updated u entry selected row hrow =>
      obtain ⟨hupdate, hdecide, hselected⟩ := hfits
      obtain ⟨hstores, hkey⟩ := hstep.stores hupdate hdecide
      -- the row is the entry that the call decided on
      have hview := h.quiet_of_held hi rfl (by simp)
      rw [← hkey, ← hview, view_get? x _ _ hstores.subjectType, hrow] at hselected
      cases hselected
      have hfound : (w.shared.entries c.registry).get? entry.key = some selected := by
        rw [← hview, view_get? x _ _ hstores.subjectType, hrow]
      have hmoves := hstores.moves
      rw [hfound] at hmoves
      rw [updated_self hmoves.evolves.1]
      exact .committed hstores rfl rfl
  | closed => exact .closed (hstep.stores hfits.1 hfits.2).1 rfl rfl
  | recorded => exact .idle rfl rfl (by simp) (by simp)
  | unrecorded => exact .idle rfl rfl (by simp) (by simp)
  | unloaded => exact .idle rfl rfl (by simp) (by simp)
  | loaded => exact .idle rfl rfl (by simp) (by simp)
  | reloaded =>
      refine .idle ?_ rfl (by simp) (by simp)
      have hview := h.quiet_of_hydrating hi hfits.1 (fun hover => hover) (by simp)
      rw [Memory.setLocked_entries, Memory.setEntries_entries, hfits.2]
      rw [show Table.ofList _ = view x w.shared c.registry from rfl, hview]
      exact Function.update_eq_self ..

omit [DecidableEq ι] in
/-- The rows of other registries are not those of an entry of `c`. -/
theorem view_of_ne (hsep : Separate x) {j : ι} (hj : j ≠ c.registry) {entry : RegistryEntry}
    (hentry : entry.subjectType = (x.registry c.registry).subjectType)
    (hrows : s'.rows = (s.putRow (x.registry c.registry).store entry).rows) :
    s'.load (x.registry j).store (x.registry j).subjectType =
      s.load (x.registry j).store (x.registry j).subjectType := by
  rw [Memory.load, hrows]
  apply load_putRow
  intro hstore htype
  exact hj (hsep j c.registry hstore (htype.symm.trans hentry))

/-- The other registries are not touched. -/
theorem Effect.others (hsep : Separate x) (h : Effect x c s st s' st') {j : ι}
    (hj : j ≠ c.registry) :
    s'.entries j = s.entries j ∧
      s'.load (x.registry j).store (x.registry j).subjectType =
        s.load (x.registry j).store (x.registry j).subjectType := by
  -- the other registries have other types, or other stores
  cases h with
  | idle hentries hrows _ _ => exact ⟨congrFun hentries j, load_congr hrows ..⟩
  | saved hstores hentries hrows =>
      refine ⟨?_, view_of_ne hsep hj hstores.subjectType hrows⟩
      rw [hentries]
      exact Function.update_of_ne hj ..
  | committed hstores hentries hrows =>
      exact ⟨congrFun hentries j, view_of_ne hsep hj hstores.subjectType hrows⟩
  | closed hstores hentries hrows =>
      refine ⟨?_, load_congr hrows ..⟩
      rw [hentries]
      exact Function.update_of_ne hj ..

/-- A call that changes the dict or the rows holds the lock. -/
theorem Effect.held (h : Effect x c s st s' st') :
    (s'.entries = s.entries ∧ s'.rows = s.rows) ∨ st.lock c = some c.registry := by
  cases h with
  | idle hentries hrows _ _ => exact .inl ⟨hentries, hrows⟩
  | saved => exact .inr rfl
  | committed => exact .inr rfl
  | closed => exact .inr rfl

/-- The other calls know what they knew. -/
theorem Synced.fits_others (hsep : Separate x) {w : RegistryWorld ι κ} (h : Synced x w pool)
    (hi : pool i = some (c, st)) (heffect : Effect x c w.shared st s' st') {j : ℕ} (hj : j ≠ i)
    {d : Call ι} {u : Stage} (hpool : pool j = some (d, u)) : u.Fits x d s' := by
  have hfits := h.fits j d u hpool
  by_cases hregistry : d.registry = c.registry
  · rcases heffect.held with ⟨hentries, hrows⟩ | hlock
    · exact hfits.congr (congrFun hentries _) (load_congr hrows ..)
    · have hloose := h.others_loose hi hlock hj hpool hregistry
      exact hfits.loose hloose.1 hloose.2
  · have hothers := heffect.others hsep hregistry
    exact hfits.congr hothers.1 hothers.2

/-- What is known of the call that moved. -/
theorem Synced.fits_turn {w : RegistryWorld ι κ} (h : Synced x w pool) (hi : pool i = some (c, st))
    (hturn : Turn x c.registry w.shared st y s' st') : st'.Fits x c s' := by
  have hfits := h.fits i c st hi
  cases hturn with
  | stores hdecide =>
      unfold entering
      split <;> exact ⟨hfits, hdecide⟩
  | saved => exact hfits.1
  | selected =>
      -- the row that was selected is the one of the entry
      obtain ⟨hstores, hkey⟩ := (h.inStep c.registry).stores hfits.1 hfits.2
      refine ⟨hfits.1, hfits.2, ?_⟩
      rw [← view_get? x _ _ hstores.subjectType, h.quiet_of_held hi rfl (by simp), hkey]
  | inserted hrow => exact ⟨hfits.1, hfits.2.1⟩
  | updated hrow => exact ⟨hfits.1, hfits.2.1⟩
  | closed => exact hfits.1
  | loaded => exact ⟨hfits, rfl⟩
  | _ => trivial

/-- The registry of the call that moved stays in step. -/
theorem Synced.inStep_turn {w : RegistryWorld ι κ} (h : Synced x w pool)
    (hi : pool i = some (c, st)) (heffect : Effect x c w.shared st s' st') :
    InStep x s' (pool.put i c st') c.registry := by
  have hstep := h.inStep c.registry
  -- the other calls of the registry are not closing while this one holds the lock
  have hothers : st.lock c = some c.registry → ∀ k d u entry,
      pool.put i c st' k = some (d, .closing u entry) → d.registry = c.registry →
      k = i ∧ d = c ∧ .closing u entry = st' := by
    intro hlock k d u entry hk hd
    rcases Pool.put_eq_some.1 hk with hsame | ⟨hne, hk⟩
    · exact hsame
    · have hloose := h.others_loose hi hlock hne hk hd
      cases hloose.1
  cases heffect with
  | idle hentries hrows hold hnew =>
      apply hstep.congr (congrFun hentries _)
      · rw [view, load_congr hrows]
        rfl
      · intro k d u entry hd
        rw [Pool.put_eq_some]
        constructor
        · rintro (⟨-, -, hst⟩ | ⟨-, hk⟩)
          · exact absurd hst.symm (hnew u entry)
          · exact hk
        · intro hk
          refine .inr ⟨?_, hk⟩
          rintro rfl
          rw [hi] at hk
          cases hk
          exact hold u entry rfl
  | saved hstores hentries hrows =>
      have hview := h.quiet_of_held hi rfl (by simp)
      refine ⟨?_, ?_, ?_⟩
      · rw [hentries, Memory.putEntry_entries, Function.update_self]
        exact typed_put hstep.typed hstores.subjectType
      · intro _
        rw [hentries, Memory.putEntry_entries, Function.update_self, view, Memory.load, hrows]
        exact (view_putRow _ _ _ hstores.subjectType).trans (by rw [hview])
      · intro k d u entry hk hd
        cases (hothers rfl k d u entry hk hd).2.2
  | committed hstores hentries hrows =>
      have hview := h.quiet_of_held hi rfl (by simp)
      refine ⟨?_, ?_, ?_⟩
      · rw [hentries]
        exact hstep.typed
      · intro hquiet
        exact absurd rfl (hquiet i c _ _ (Pool.put_self ..))
      · intro k d u entry hk hd
        obtain ⟨rfl, rfl, hst⟩ := hothers rfl k d u entry hk hd
        cases hst
        rw [hentries, view, Memory.load, hrows]
        exact (view_putRow _ _ _ hstores.subjectType).trans (by rw [hview])
  | closed hstores hentries hrows =>
      refine ⟨?_, ?_, ?_⟩
      · rw [hentries, Memory.putEntry_entries, Function.update_self]
        exact typed_put hstep.typed hstores.subjectType
      · intro _
        rw [hentries, Memory.putEntry_entries, Function.update_self, view, load_congr hrows]
        exact hstep.closing i c _ _ hi rfl
      · intro k d u entry hk hd
        cases (hothers rfl k d u entry hk hd).2.2

theorem now_over (st : Stage) : (st.now x c.registry).stop.Over ↔ st.Over := by
  cases st <;> exact Iff.rfl

/-- A call starts: hydrations stay alone. -/
theorem Synced.lone_start {t : RegistrySys ι κ} (hpool : (staging x).Describes t pool)
    (h : Synced x t.toWorld pool) (hydrates : HydratesAlone t (.call i c)) {a b : ℕ}
    {d e : Call ι} {u v : Stage} (ha : pool.put i c st a = some (d, u))
    (hb : pool.put i c st b = some (e, v)) (hupdate : d.update? x = none) (hu : ¬ u.Over)
    (hregistry : e.registry = d.registry) (hv : ¬ v.Over) : a = b := by
  -- a call that is not over stands in the way of the other
  have hover : ∀ j f w, pool j = some (f, w) → ¬ w.Over → ∃ th, t.threads j = some th ∧
      th.call = f ∧ ¬ th.now.stop.Over := by
    intro j f w hj hw
    exact ⟨_, hpool.thread_some hj, rfl, fun hstop => hw ((now_over w).1 hstop)⟩
  have hd := Call.hydrate_of_update? hupdate
  rcases Pool.put_eq_some.1 ha with ⟨rfl, rfl, rfl⟩ | ⟨hnea, hpoola⟩
  · rcases Pool.put_eq_some.1 hb with ⟨rfl, -, -⟩ | ⟨hneb, hpoolb⟩
    · rfl
    · -- the hydration starts
      rcases hover b e v hpoolb hv with ⟨th, hth, hcall, hstop⟩
      rw [hd] at hydrates
      exact absurd (hydrates b th hth (by rw [hcall, hregistry])) hstop
  · rcases Pool.put_eq_some.1 hb with ⟨rfl, rfl, rfl⟩ | ⟨hneb, hpoolb⟩
    · -- the other call starts
      rcases hover a d u hpoola hu with ⟨th, hth, hcall, hstop⟩
      cases e with
      | hydrate j =>
          exact absurd (hydrates a th hth (by rw [hcall]; exact hregistry.symm)) hstop
      | _ => exact absurd (hydrates a th hth (by rw [hcall, hd, hregistry])) hstop
    · exact h.lone a b d e u v hpoola hpoolb hupdate hu hregistry hv

/-- The joint invariant holds in every run considered. -/
theorem synced_keeps (hsep : Separate x) : (staging x).Keeps Orderly (Synced x) where
  start := by
    intro t pool i c s' st hpool h hP hi hbegins
    have hs : s' = t.shared := by
      cases hbegins <;> rfl
    subst hs
    have hlock : st.lock c = none := by
      cases hbegins <;> rfl
    refine ⟨?_, ?_, ?_, ?_⟩
    · apply h.exclusive.handle (.inl rfl)
      rw [hlock]
      exact .idle
    · intro a b d e u v ha hb
      exact h.lone_start hpool hP.hydrates ha hb
    · intro j d u hj
      rcases Pool.put_eq_some.1 hj with ⟨rfl, rfl, rfl⟩ | ⟨hne, hj⟩
      · cases hbegins with
        | refused hupdate => trivial
        | opened hupdate => exact hupdate
        | loads hupdate => exact hupdate
      · exact h.fits j d u hj
    · intro j
      refine (h.inStep j).congr rfl rfl ?_
      intro k d u entry hd
      rw [Pool.put_eq_some]
      constructor
      · rintro (⟨-, -, rfl⟩ | ⟨-, hk⟩)
        · cases hlock
        · exact hk
      · intro hk
        refine .inr ⟨?_, hk⟩
        rintro rfl
        rw [hi] at hk
        cases hk
  turn := by
    intro t pool i reply c st q k a s' st' hpool h hP hi hnow hreply hturn
    have hth := hpool.thread_some hi
    have hfree : ∀ l, q = .acquire l → t.shared.locked l = false :=
      fun l => hP.granted.free hpool hi hnow
    have heffect := h.effect hi hturn
    refine ⟨?_, ?_, ?_, ?_⟩
    · exact h.exclusive.handle (.inr ⟨st, hi, rfl⟩) (Turn.handling hturn hfree)
    · -- a call that goes on was not over
      have hold : ∀ a d u, pool.put i c st' a = some (d, u) → ¬ u.Over →
          ∃ v, pool a = some (d, v) ∧ ¬ v.Over := by
        intro a d u ha hu
        rcases Pool.put_eq_some.1 ha with ⟨rfl, rfl, rfl⟩ | ⟨-, ha⟩
        · refine ⟨st, hi, ?_⟩
          rw [← now_over (x := x) (c := d)]
          change ¬ ((staging x).now d st).stop.Over
          rw [hnow]
          exact fun hover => hover
        · exact ⟨u, ha, hu⟩
      intro a b d e u v ha hb hupdate hu hregistry hv
      rcases hold a d u ha hu with ⟨u', ha', hu'⟩
      rcases hold b e v hb hv with ⟨v', hb', hv'⟩
      exact h.lone a b d e u' v' ha' hb' hupdate hu' hregistry hv'
    · intro j d u hj
      rcases Pool.put_eq_some.1 hj with ⟨rfl, rfl, rfl⟩ | ⟨hne, hj⟩
      · exact h.fits_turn hi hturn
      · exact h.fits_others hsep hi heffect hne hj
    · intro j
      by_cases hj : j = c.registry
      · subst hj
        exact h.inStep_turn hi heffect
      · have hothers := heffect.others hsep hj
        refine (h.inStep j).congr hothers.1 (by rw [view, view]; exact congrArg _ hothers.2) ?_
        intro k d u entry hd
        have hne : d ≠ c := by
          rintro rfl
          exact hj hd.symm
        rw [Pool.put_eq_some]
        constructor
        · rintro (⟨-, hdc, -⟩ | ⟨-, hk⟩)
          · exact absurd hdc hne
          · exact hk
        · intro hk
          refine .inr ⟨?_, hk⟩
          rintro rfl
          rw [hi] at hk
          cases hk
          exact hne rfl

end Turns

end Alos.Registry
