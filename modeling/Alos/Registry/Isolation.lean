import Alos.Coop.Erasure
import Alos.Registry.Capabilities
import Alos.Registry.Moves
import Alos.Registry.Shared

/-! # Registries and one workspace

What of the registries concerns the workspace `w` of a tenant.

* `Memory.ofWorkspace` is what concerns `w`, a part of the dicts and of the rows, and the
  lemmas after it say that the reads of a principal of `w` look at nothing else;
* `register_local` and `register_spares`: a registration in `w` depends on that only,
  and one elsewhere spares it.
-/

namespace Alos

/-- A workspace of a tenant. -/
structure TenantWorkspace where
  tenantId : String
  workspaceId : String
deriving DecidableEq, Repr

/-- The place a principal acts in. -/
def Principal.tenantWorkspace (principal : Principal) : TenantWorkspace :=
  ⟨principal.tenantId, principal.workspaceId⟩

end Alos

namespace Alos.Registry

open Coop Py

/-- The place an entry was registered in. -/
def RegistryEntry.tenantWorkspace (entry : RegistryEntry) : TenantWorkspace :=
  ⟨entry.tenantId, entry.workspaceId⟩

/-- The place a version is looked up in. -/
def RegistryKey.tenantWorkspace (key : RegistryKey) : TenantWorkspace :=
  ⟨key.tenantId, key.workspaceId⟩

/-- An entry is in the workspace of its key. -/
theorem workspace_of_key {entry : RegistryEntry} {key : RegistryKey} (h : entry.key = key) :
    entry.tenantWorkspace = key.tenantWorkspace := by
  rw [← h]
  rfl

/-- The unique key of the table names the place, so an update never crosses it. -/
theorem workspace_of_storeKey {a b : RegistryEntry} (h : a.storeKey = b.storeKey) :
    a.tenantWorkspace = b.tenantWorkspace :=
  workspace_of_key (congrArg StoreKey.place h)

/-! ## What concerns a workspace -/

section Memory

variable {ι κ : Type} (w : TenantWorkspace)

/-- The rows and the entries of `w`; who holds a lock is nobody's concern. -/
def Memory.ofWorkspace (s : Memory ι κ) : Memory ι κ where
  rows k := (s.rows k).restrict (·.tenantWorkspace = w)
  entries i := (s.entries i).restrict (·.tenantWorkspace = w)
  locked _ := false

variable {w} {s s' : Memory ι κ} {entry : RegistryEntry}

theorem restrict_entries (h : s.ofWorkspace w = s'.ofWorkspace w) (i : ι) :
    (s.entries i).restrict (·.tenantWorkspace = w) =
      (s'.entries i).restrict (·.tenantWorkspace = w) :=
  congrFun (congrArg Memory.entries h) i

theorem restrict_rows (h : s.ofWorkspace w = s'.ofWorkspace w) (k : κ) :
    (s.rows k).restrict (·.tenantWorkspace = w) = (s'.rows k).restrict (·.tenantWorkspace = w) :=
  congrFun (congrArg Memory.rows h) k

/-- What is read of the entries of a registry, if it is of `w` only. -/
theorem read_entries {β : Type} {f : Table RegistryEntry.key → β}
    (hf : ∀ T, f (T.restrict (·.tenantWorkspace = w)) = f T)
    (h : s.ofWorkspace w = s'.ofWorkspace w) (i : ι) : f (s.entries i) = f (s'.entries i) := by
  rw [← hf (s.entries i), restrict_entries h i, hf]

/-- States that look alike from a place hold the same entry under each key of it. -/
theorem get?_entries (h : s.ofWorkspace w = s'.ofWorkspace w) (i : ι) {key : RegistryKey}
    (hkey : key.tenantWorkspace = w) : (s.entries i).get? key = (s'.entries i).get? key := by
  refine read_entries (f := (·.get? key)) ?_ h i
  intro T
  apply Table.get?_restrict
  intro a ha
  rw [workspace_of_key ha, hkey]

/-- As `get?_entries`, for the rows of a store. -/
theorem get?_rows (h : s.ofWorkspace w = s'.ofWorkspace w) (k : κ)
    (hentry : entry.tenantWorkspace = w) :
    (s.rows k).get? entry.storeKey = (s'.rows k).get? entry.storeKey := by
  have hrestrict : ∀ T : Table RegistryEntry.storeKey,
      (T.restrict (·.tenantWorkspace = w)).get? entry.storeKey = T.get? entry.storeKey := by
    intro T
    apply Table.get?_restrict
    intro a ha
    rw [workspace_of_storeKey ha, hentry]
  rw [← hrestrict, restrict_rows h, hrestrict]

section Entries

variable [DecidableEq ι]

theorem ofWorkspace_setLocked (s : Memory ι κ) (i : ι) (b : Bool) :
    (s.setLocked i b).ofWorkspace w = s.ofWorkspace w := rfl

/-- An entry of the place is seen from it. -/
theorem ofWorkspace_putEntry (hentry : entry.tenantWorkspace = w) (i : ι) :
    (s.putEntry i entry).ofWorkspace w = (s.ofWorkspace w).putEntry i entry := by
  simp only [Memory.ofWorkspace, Memory.putEntry, Memory.setEntries, Memory.mk.injEq, true_and,
    and_true]
  funext j
  by_cases hj : j = i
  · subst hj
    rw [Function.update_self, Function.update_self]
    apply Table.restrict_put
    intro a ha
    rw [workspace_of_key ha, ← hentry]
    rfl
  · rw [Function.update_of_ne hj, Function.update_of_ne hj]

/-- An entry of another place is not. -/
theorem ofWorkspace_putEntry_of_ne (hentry : entry.tenantWorkspace ≠ w) (i : ι) :
    (s.putEntry i entry).ofWorkspace w = s.ofWorkspace w := by
  simp only [Memory.ofWorkspace, Memory.putEntry, Memory.setEntries, Memory.mk.injEq, true_and,
    and_true]
  funext j
  by_cases hj : j = i
  · subst hj
    rw [Function.update_self]
    apply Table.restrict_put_of_not
    intro a ha
    rw [workspace_of_key ha]
    exact hentry
  · rw [Function.update_of_ne hj]

end Entries

section Rows

variable [DecidableEq κ]

/-- A row of the place is seen from it. -/
theorem ofWorkspace_putRow (hentry : entry.tenantWorkspace = w) (k : κ) :
    (s.putRow k entry).ofWorkspace w = (s.ofWorkspace w).putRow k entry := by
  simp only [Memory.ofWorkspace, Memory.putRow, Memory.mk.injEq, and_true]
  funext j
  by_cases hj : j = k
  · subst hj
    rw [Function.update_self, Function.update_self]
    apply Table.restrict_put
    intro a ha
    rw [workspace_of_storeKey ha, hentry]
  · rw [Function.update_of_ne hj, Function.update_of_ne hj]

/-- A row of another place is not. -/
theorem ofWorkspace_putRow_of_ne (hentry : entry.tenantWorkspace ≠ w) (k : κ) :
    (s.putRow k entry).ofWorkspace w = s.ofWorkspace w := by
  simp only [Memory.ofWorkspace, Memory.putRow, Memory.mk.injEq, and_true]
  funext j
  by_cases hj : j = k
  · subst hj
    rw [Function.update_self]
    apply Table.restrict_put_of_not
    intro a ha
    rw [workspace_of_storeKey ha]
    exact hentry
  · rw [Function.update_of_ne hj]

end Rows

/-! ### Nothing but a workspace -/

/-- There is nothing but what concerns `w`. -/
structure Memory.Within (w : TenantWorkspace) (s : Memory ι κ) : Prop where
  entries : ∀ i, ∀ entry ∈ (s.entries i).values, entry.tenantWorkspace = w
  rows : ∀ k, ∀ row ∈ (s.rows k).values, row.tenantWorkspace = w

/-- It stays so while nothing happens in other workspaces. -/
theorem Memory.Within.of_others (h : s.Within w)
    (hothers : ∀ w', w' ≠ w → s'.ofWorkspace w' = s.ofWorkspace w') : s'.Within w := by
  constructor
  · intro i entry hentry
    by_contra hne
    have hmem : entry ∈
        ((s'.entries i).restrict (·.tenantWorkspace = entry.tenantWorkspace)).values :=
      List.mem_filter.2 ⟨hentry, decide_eq_true rfl⟩
    rw [restrict_entries (hothers _ hne) i] at hmem
    exact hne (h.entries i entry (List.mem_filter.1 hmem).1)
  · intro k row hrow
    by_contra hne
    have hmem : row ∈ ((s'.rows k).restrict (·.tenantWorkspace = row.tenantWorkspace)).values :=
      List.mem_filter.2 ⟨hrow, decide_eq_true rfl⟩
    rw [restrict_rows (hothers _ hne) k] at hmem
    exact hne (h.rows k row (List.mem_filter.1 hmem).1)

end Memory

/-! ## Reads of a principal of the workspace -/

section Reads

variable {principal : Principal} (entries : Table RegistryEntry.key)

/-- A look-up in the principal's place reads no entry of another. -/
theorem get_restrict {key : RegistryKey} (hkey : key.tenantWorkspace = principal.tenantWorkspace) :
    get (entries.restrict (·.tenantWorkspace = principal.tenantWorkspace)) key =
      get entries key := by
  unfold get
  rw [Table.get?_restrict]
  intro a ha
  rw [workspace_of_key ha, hkey]

/-- Nor does the authorized look-up. -/
theorem getAuthorized_restrict (subjectId version : String) :
    getAuthorized (entries.restrict (·.tenantWorkspace = principal.tenantWorkspace))
        (some principal) subjectId version =
      getAuthorized entries (some principal) subjectId version := by
  unfold getAuthorized
  dsimp only
  rw [get_restrict entries rfl]

/-- The authorized list is made of entries of the principal's place. -/
theorem listAuthorizedEntries_restrict :
    listAuthorizedEntries (entries.restrict (·.tenantWorkspace = principal.tenantWorkspace))
        (some principal) = listAuthorizedEntries entries (some principal) := by
  unfold listAuthorizedEntries
  dsimp only
  rw [Table.filter_restrict]
  intro a ha
  rw [decide_eq_true_eq] at ha
  rcases ha with ⟨htenant, -, hworkspace, -⟩
  rw [RegistryEntry.tenantWorkspace, htenant, hworkspace]
  rfl

/-- So is the list of one organization of the place. -/
theorem listEntries_restrict (organizationId : String) (subjectId : Option String) :
    listEntries (entries.restrict (·.tenantWorkspace = principal.tenantWorkspace))
        principal.tenantId organizationId principal.workspaceId subjectId =
      listEntries entries principal.tenantId organizationId principal.workspaceId subjectId := by
  unfold listEntries
  rw [Table.filter_restrict]
  intro a ha
  rw [decide_eq_true_eq] at ha
  rcases ha with ⟨htenant, -, hworkspace, -⟩
  rw [RegistryEntry.tenantWorkspace, htenant, hworkspace]
  rfl

/-- So is the catalog, whatever the other places registered. -/
theorem catalogSnapshot_restrict :
    catalogSnapshot (entries.restrict (·.tenantWorkspace = principal.tenantWorkspace)) principal =
      catalogSnapshot entries principal := by
  rw [catalogSnapshot, catalogSnapshot, listAuthorizedEntries_restrict]

/-- So is the detail of a capability, errors included. -/
theorem detail_restrict (contracts : CanonicalContractCatalog) (capabilityId : String) :
    detail contracts (entries.restrict (·.tenantWorkspace = principal.tenantWorkspace))
        principal.tenantId principal.workspaceId capabilityId (some principal) =
      detail contracts entries principal.tenantId principal.workspaceId capabilityId
        (some principal) := by
  unfold detail
  dsimp only
  rw [listEntries_restrict]

end Reads

/-! ## Registrations -/

section Registrations

variable {ι κ : Type} {x : Registries ι κ} {w : TenantWorkspace} {i : ι} {k : κ}
  {entry : RegistryEntry}

/-- A record that is updated stays where it is. -/
theorem storeKey_updated {row selected : RegistryEntry} (hrow : row.storeKey = entry.storeKey) :
    (row.updated selected entry).tenantWorkspace = entry.tenantWorkspace :=
  workspace_of_storeKey hrow

/-- What the store answers is not part of the state. -/
theorem settle_local (answer : Stored) :
    (settle answer : Op ι κ Unit).Local (Memory.ofWorkspace w) := by
  cases answer with
  | returned => exact .ret
  | raised => exact .raise

/-- Waiting for the store changes no place. -/
theorem settle_spares (answer : Stored) (v : Memory ι κ) :
    (settle answer : Op ι κ Unit).Spares (Memory.ofWorkspace w) v := by
  cases answer <;> trivial

/-- Recording an event reads nothing of the state. -/
theorem record_local (actorId eventType outcome : String) :
    (record entry actorId eventType outcome : Op ι κ Unit).Local (Memory.ofWorkspace w) := by
  refine .await ?_
  intro answer
  cases answer with
  | returned => exact .ret
  | raised => exact .raise

/-- Recording an event changes no place. -/
theorem record_spares (actorId eventType outcome : String) (v : Memory ι κ) :
    (record entry actorId eventType outcome : Op ι κ Unit).Spares (Memory.ofWorkspace w) v := by
  refine .await ?_
  intro answer v
  cases answer <;> trivial

section Rows

variable [DecidableEq κ]

theorem putRow_local (hentry : entry.tenantWorkspace = w) :
    (Proc.modify (·.putRow k entry) : Op ι κ Unit).Local (Memory.ofWorkspace w) := by
  apply Proc.Matches.modify
  intro s s' hs
  rw [ofWorkspace_putRow hentry, ofWorkspace_putRow hentry, hs]

theorem putRow_spares (hentry : entry.tenantWorkspace ≠ w) (v : Memory ι κ) :
    (Proc.modify (·.putRow k entry) : Op ι κ Unit).Spares (Memory.ofWorkspace w) v :=
  .modify fun _ => ofWorkspace_putRow_of_ne hentry k

/-- Saving an entry of the place acts on what is seen from it only. -/
theorem flush_local (hentry : entry.tenantWorkspace = w) (selected : Option RegistryEntry) :
    (flush k entry selected : Op ι κ Unit).Local (Memory.ofWorkspace w) := by
  simp only [flush, Proc.bind_def, Proc.get_bind]
  refine .read ?_
  intro s s' hs
  rw [get?_rows hs k hentry]
  cases hrow : (s'.rows k).get? entry.storeKey with
  | none =>
      cases selected with
      | none => exact putRow_local hentry
      | some selected => exact .raise
  | some row =>
      cases selected with
      | none => exact .raise
      | some selected =>
          exact putRow_local ((storeKey_updated (Table.key_of_get? hrow)).trans hentry)

/-- Saving an entry of another place is not seen. -/
theorem flush_spares (hentry : entry.tenantWorkspace ≠ w) (selected : Option RegistryEntry)
    (v : Memory ι κ) :
    (flush k entry selected : Op ι κ Unit).Spares (Memory.ofWorkspace w) v := by
  simp only [flush, Proc.bind_def, Proc.get_bind]
  refine .read ?_
  intro s hs
  -- only rows of the entry's own place are written
  cases hrow : (s.rows k).get? entry.storeKey with
  | none =>
      cases selected with
      | none => exact putRow_spares hentry v
      | some selected => trivial
  | some row =>
      cases selected with
      | none => trivial
      | some selected =>
          apply putRow_spares
          rw [storeKey_updated (Table.key_of_get? hrow)]
          exact hentry

/-- As `flush_local`, for both stores. -/
theorem save_local (hentry : entry.tenantWorkspace = w) :
    (save x i entry).Local (Memory.ofWorkspace w) := by
  unfold save
  -- one wait in memory; for SQL the select and the commit
  cases x.store (x.registry i).store with
  | inMemory =>
      refine .await ?_
      intro answer
      exact (settle_local answer).bind fun _ => putRow_local hentry
  | sql =>
      simp only [SqlRegistryStore.save, Proc.bind_def, Proc.get_bind, Proc.ask_bind]
      refine .await ?_
      intro answer
      refine (settle_local answer).bind fun _ => .read ?_
      intro s s' hs
      rw [get?_rows hs _ hentry]
      refine .await ?_
      intro answer
      refine (settle_local answer).bind fun _ => ?_
      exact (flush_local hentry _).bind fun _ => .await fun _ => .ret

/-- As `flush_spares`, for both stores. -/
theorem save_spares (hentry : entry.tenantWorkspace ≠ w) (v : Memory ι κ) :
    (save x i entry).Spares (Memory.ofWorkspace w) v := by
  unfold save
  -- one wait in memory; for SQL the select and the commit
  cases x.store (x.registry i).store with
  | inMemory =>
      refine .await ?_
      intro answer v
      exact (settle_spares answer v).bind fun _ v => putRow_spares hentry v
  | sql =>
      simp only [SqlRegistryStore.save, Proc.bind_def, Proc.get_bind, Proc.ask_bind]
      refine .await ?_
      intro answer v
      refine (settle_spares answer v).bind fun _ v => .read ?_
      intro s hs
      refine .await ?_
      intro answer v
      refine (settle_spares answer v).bind fun _ v => ?_
      exact (flush_spares hentry _ v).bind fun _ v => .await fun _ _ => trivial

end Rows

variable [DecidableEq ι] [DecidableEq κ] {payload : Json.Fields}
  {tenantId organizationId workspaceId actorId correlationId : String} {now : Datetime}

/-- A registration in the workspace depends on nothing else. -/
theorem register_local (hplace : (⟨tenantId, workspaceId⟩ : TenantWorkspace) = w) :
    (register x i payload tenantId organizationId workspaceId actorId correlationId now).Local
      (Memory.ofWorkspace w) := by
  unfold register
  cases hprepare : prepare x i payload tenantId organizationId workspaceId actorId correlationId
    now with
  | error e => exact .raise
  | ok entry =>
      have hentry : entry.tenantWorkspace = w := by
        rcases prepare_ok hprepare with ⟨subjectId, version, rfl⟩
        exact hplace
      simp only [Proc.ofExcept, Proc.bind_def, Proc.ret_bind, Proc.get_bind]
      refine Proc.Matches.bind (.withLock (.read ?_) fun s b => ofWorkspace_setLocked s i b) ?_
      · intro s s' hs
        -- the look-up is in the place, so both sides find the same
        have hkey : entry.key.tenantWorkspace = w := hentry
        rw [get?_entries hs i hkey]
        cases (s'.entries i).get? entry.key with
        | some existing =>
            dsimp only
            split
            · exact .ret
            · exact .raise
        | none =>
            refine (save_local hentry).bind fun _ => Proc.Matches.bind ?_ fun _ => .ret
            apply Proc.Matches.modify
            intro s s' hs
            rw [ofWorkspace_putEntry hentry, ofWorkspace_putEntry hentry, hs]
      · intro locked
        cases locked with
        | found existing => exact .ret
        | stored entry => exact (record_local _ _ _).bind fun _ => .ret

/-- A registration elsewhere leaves the workspace alone. -/
theorem register_spares (hplace : (⟨tenantId, workspaceId⟩ : TenantWorkspace) ≠ w)
    (v : Memory ι κ) :
    (register x i payload tenantId organizationId workspaceId actorId correlationId now).Spares
      (Memory.ofWorkspace w) v := by
  unfold register
  cases hprepare : prepare x i payload tenantId organizationId workspaceId actorId correlationId
    now with
  | error e => trivial
  | ok entry =>
      -- the entry names the place it was registered for
      have hentry : entry.tenantWorkspace ≠ w := by
        rcases prepare_ok hprepare with ⟨subjectId, version, rfl⟩
        exact hplace
      simp only [Proc.ofExcept, Proc.bind_def, Proc.ret_bind, Proc.get_bind]
      refine Proc.Spares.bind (.withLock ?_ fun s b => ofWorkspace_setLocked s i b) ?_
      · intro v
        refine .read ?_
        intro s hs
        cases (s.entries i).get? entry.key with
        | some existing =>
            dsimp only
            split
            · trivial
            · trivial
        | none =>
            refine (save_spares hentry v).bind fun _ v => Proc.Spares.bind ?_ fun _ _ => trivial
            exact .modify fun _ => ofWorkspace_putEntry_of_ne hentry i
      · intro locked v
        cases locked with
        | found existing => trivial
        | stored entry => exact (record_spares _ _ _ v).bind fun _ _ => trivial

/-! ### The other operations -/

theorem transition_local {key : RegistryKey} (hkey : key.tenantWorkspace = w)
    (expected target : RegistryState) (decisionId releaseId : Option String) :
    (transition x i key expected target correlationId decisionId releaseId).Local
      (Memory.ofWorkspace w) := by
  unfold transition
  refine .withLock (.read ?_) fun s b => ofWorkspace_setLocked s i b
  intro s s' hs
  simp only [Proc.bind_def, Proc.ret_bind]
  rw [get?_entries hs i hkey]
  cases hfound : (s'.entries i).get? key with
  | none => exact .raise
  | some current =>
      -- a transition keeps the place of the entry
      have hupdated : (transitioned current target correlationId decisionId
          releaseId).tenantWorkspace = w := by
        rw [← hkey, ← workspace_of_key (Table.key_of_get? hfound)]
        rfl
      dsimp only
      by_cases hstate : current.state ≠ expected
      · rw [if_pos hstate]
        exact .raise
      · rw [if_neg hstate]
        refine (save_local hupdated).bind fun _ => Proc.Matches.bind ?_ fun _ => .ret
        apply Proc.Matches.modify
        intro s s' hs
        rw [ofWorkspace_putEntry hupdated, ofWorkspace_putEntry hupdated, hs]

/-- A transition in another place is not seen. -/
theorem transition_spares {key : RegistryKey} (hkey : key.tenantWorkspace ≠ w)
    (expected target : RegistryState) (decisionId releaseId : Option String) (v : Memory ι κ) :
    (transition x i key expected target correlationId decisionId releaseId).Spares
      (Memory.ofWorkspace w) v := by
  unfold transition
  refine .withLock ?_ fun s b => ofWorkspace_setLocked s i b
  intro v
  refine .read ?_
  intro s hs
  simp only [Proc.bind_def, Proc.ret_bind]
  cases hfound : (s.entries i).get? key with
  | none => trivial
  | some current =>
      -- a transition keeps the place of the entry
      have hupdated : (transitioned current target correlationId decisionId
          releaseId).tenantWorkspace ≠ w := by
        rw [← workspace_of_key (Table.key_of_get? hfound)] at hkey
        exact hkey
      dsimp only
      by_cases hstate : current.state ≠ expected
      · rw [if_pos hstate]
        trivial
      · rw [if_neg hstate]
        refine (save_spares hupdated v).bind fun _ v => Proc.Spares.bind ?_ fun _ _ => trivial
        exact .modify fun _ => ofWorkspace_putEntry_of_ne hupdated i

omit [DecidableEq κ] in
/-- A hydration loads what concerns the workspace from what concerns it. -/
theorem hydrate_local : (hydrate x i).Local (Memory.ofWorkspace w) := by
  simp only [hydrate, Proc.bind_def, Proc.ask_bind, Proc.get_bind]
  refine .await ?_
  intro answer
  refine (settle_local answer).bind fun _ => .read ?_
  intro s s' hs
  have hload : (s.load (x.registry i).store (x.registry i).subjectType).filter
        (·.tenantWorkspace = w) =
      (s'.load (x.registry i).store (x.registry i).subjectType).filter (·.tenantWorkspace = w) := by
    have hrows := congrArg Table.values (restrict_rows hs (x.registry i).store)
    simp only [Table.restrict] at hrows
    rw [Memory.load, Memory.load, List.filter_comm, hrows, List.filter_comm]
  refine .withLock (.read ?_) fun s b => ofWorkspace_setLocked s i b
  intro t t' ht
  refine .write ?_ .ret
  -- the key of an entry names its place, so the parts are loaded apart
  have hplace : ∀ a b : RegistryEntry, a.key = b.key → a.tenantWorkspace = w →
      b.tenantWorkspace = w := by
    intro a b hkey ha
    rw [← ha, workspace_of_key hkey]
    rfl
  simp only [Memory.ofWorkspace, Memory.setEntries, Memory.mk.injEq, and_true]
  refine ⟨congrArg Memory.rows ht, ?_⟩
  funext j
  by_cases hj : j = i
  · subst hj
    rw [Function.update_self, Function.update_self, Table.restrict_ofList hplace,
      Table.restrict_ofList hplace, hload]
  · rw [Function.update_of_ne hj, Function.update_of_ne hj]
    exact restrict_entries ht j

end Registrations

/-! ## Calls -/

section Calls

variable {ι κ : Type} [DecidableEq ι] [DecidableEq κ] {x : Registries ι κ} {w : TenantWorkspace}

/-- The workspace that a call works in; a hydration works in all of them. -/
def Call.tenantWorkspace : Call ι → Option TenantWorkspace
  | .register _ _ tenantId _ workspaceId .. => some ⟨tenantId, workspaceId⟩
  | .approve _ key .. => some key.tenantWorkspace
  | .activate _ key .. => some key.tenantWorkspace
  | .suspend _ key .. => some key.tenantWorkspace
  | .hydrate _ => none

/-- The call works in `w`. -/
def Call.worksIn (w : TenantWorkspace) (c : Call ι) : Bool := ∀ w' ∈ c.tenantWorkspace, w' = w

/-- A call in the place depends on nothing but what is seen from it. -/
theorem Call.prog_local {c : Call ι} (hc : c.worksIn w = true) :
    (c.prog x).Local (Memory.ofWorkspace w) := by
  have h : ∀ w' ∈ c.tenantWorkspace, w' = w := of_decide_eq_true hc
  -- a hydration is of every place, the other calls are of one
  cases c with
  | register i => exact (register_local (h _ rfl)).bind fun _ => .ret
  | hydrate i => exact hydrate_local.bind fun _ => .ret
  | approve i key actorId decisionId authority correlationId =>
      refine Proc.Matches.bind ?_ fun _ => .ret
      unfold Registry.approve
      split
      · exact .raise
      · exact (transition_local (h _ rfl) _ _ _ _).bind fun _ =>
          (record_local _ _ _).bind fun _ => .ret
  | activate i key actorId releaseId correlationId =>
      refine Proc.Matches.bind ?_ fun _ => .ret
      exact (transition_local (h _ rfl) _ _ _ _).bind fun _ =>
        (record_local _ _ _).bind fun _ => .ret
  | suspend i key actorId correlationId =>
      refine Proc.Matches.bind ?_ fun _ => .ret
      exact (transition_local (h _ rfl) _ _ _ _).bind fun _ =>
        (record_local _ _ _).bind fun _ => .ret

/-- A call in another place leaves what is seen as it was. -/
theorem Call.prog_spares {c : Call ι} (hc : c.worksIn w = false) (v : Memory ι κ) :
    (c.prog x).Spares (Memory.ofWorkspace w) v := by
  have h : ∀ w', c.tenantWorkspace = some w' → w' ≠ w := by
    rintro w' hw' rfl
    simp [worksIn, hw'] at hc
  -- a hydration is of every place, the other calls are of one
  cases c with
  | register i => exact (register_spares (h _ rfl) v).bind fun _ _ => trivial
  | hydrate i => simp [worksIn, tenantWorkspace] at hc
  | approve i key actorId decisionId authority correlationId =>
      refine Proc.Spares.bind ?_ fun _ _ => trivial
      unfold Registry.approve
      split
      · trivial
      · exact (transition_spares (h _ rfl) _ _ _ _ v).bind fun _ v =>
          (record_spares _ _ _ v).bind fun _ _ => trivial
  | activate i key actorId releaseId correlationId =>
      refine Proc.Spares.bind ?_ fun _ _ => trivial
      exact (transition_spares (h _ rfl) _ _ _ _ v).bind fun _ v =>
        (record_spares _ _ _ v).bind fun _ _ => trivial
  | suspend i key actorId correlationId =>
      refine Proc.Spares.bind ?_ fun _ _ => trivial
      exact (transition_spares (h _ rfl) _ _ _ _ v).bind fun _ v =>
        (record_spares _ _ _ v).bind fun _ _ => trivial

end Calls

/-! ## Hydrated registries -/

section Hydrated

variable {ι κ : Type} {x : Registries ι κ} {w : TenantWorkspace}

/-- What concerns `w` of the registries that are hydrated over the rows is what they
are hydrated with over the rows of `w`. -/
theorem ofWorkspace_hydrated (rows : κ → Table RegistryEntry.storeKey) :
    (hydrated x rows).ofWorkspace w =
      (hydrated x fun k => (rows k).restrict (·.tenantWorkspace = w)).ofWorkspace w := by
  -- restricting the rows and loading them commute
  have hrows : ∀ T : Table RegistryEntry.storeKey,
      (T.restrict (·.tenantWorkspace = w)).restrict (·.tenantWorkspace = w) =
        T.restrict (·.tenantWorkspace = w) := by
    intro T
    apply Table.ext
    simp [Table.restrict]
  simp only [Memory.ofWorkspace, hydrated, Memory.mk.injEq, hrows, true_and, and_true]
  funext i
  apply Table.ext
  simp only [Table.restrict, view_values, Memory.load, List.filter_filter]
  apply List.filter_congr
  intro a ha
  rw [Bool.eq_iff_iff]
  simp only [Bool.and_eq_true]
  tauto

/-- Rows of one place give a cache of that place. -/
theorem within_hydrated {rows : κ → Table RegistryEntry.storeKey}
    (h : ∀ k, ∀ row ∈ (rows k).values, row.tenantWorkspace = w) : (hydrated x rows).Within w where
  entries := by
    intro i entry hentry
    rw [hydrated, view_values] at hentry
    exact h _ entry (List.mem_filter.1 hentry).1
  rows := h

end Hydrated

/-! ## Workspaces -/

section Workspaces

variable {ι κ : Type} [DecidableEq ι] [DecidableEq κ] (x : Registries ι κ) (w : TenantWorkspace)
  (s : Memory ι κ) (xs : List (RegistryStep ι))

/-- The run of the calls that work in `w`, from what concerns `w` alone. -/
def onItsOwn : RegistrySys ι κ :=
  run (Call.prog x) (init (s.ofWorkspace w)) (ownSteps (ownThreads (Call.worksIn w) xs) xs)

/-- What becomes of the workspace is what would become of it on its own. -/
structure WorkedAlike : Prop where
  /-- Its calls ask the stores and the audit sink the same, and end alike. -/
  trace : ((run (Call.prog x) (init s) xs).trace.filter fun l =>
    ownThreads (Call.worksIn w) xs l.thread) = (onItsOwn x w s xs).trace
  /-- And they leave the same behind. -/
  entries : ∀ i, ((run (Call.prog x) (init s) xs).shared.entries i).restrict
    (·.tenantWorkspace = w) =
      ((onItsOwn x w s xs).shared.entries i).restrict (·.tenantWorkspace = w)
  stored : ∀ k, ((run (Call.prog x) (init s) xs).shared.rows k).restrict
    (·.tenantWorkspace = w) = ((onItsOwn x w s xs).shared.rows k).restrict (·.tenantWorkspace = w)

variable {s}

omit [DecidableEq ι] [DecidableEq κ] in
/-- What is seen from a place is all of what is seen from it. -/
theorem ofWorkspace_ofWorkspace : (s.ofWorkspace w).ofWorkspace w = s.ofWorkspace w := by
  have hrestrict : ∀ {k : Type} [DecidableEq k] {key : RegistryEntry → k} (T : Table key),
      (T.restrict (·.tenantWorkspace = w)).restrict (·.tenantWorkspace = w) =
        T.restrict (·.tenantWorkspace = w) := by
    intro k _ key T
    apply Table.restrict_of_forall
    intro a ha
    exact of_decide_eq_true (List.mem_filter.1 ha).2
  simp only [Memory.ofWorkspace, hrestrict]

/-- **The workspaces of a deployment do not interfere**, in whatever state it starts. -/
theorem registries_isolated (s : Memory ι κ) : WorkedAlike x w s xs := by
  have hown : ∀ c : Call ι, c.worksIn w = true → (c.prog x).Local (Memory.ofWorkspace w) :=
    fun c hc => Call.prog_local hc
  have hothers : ∀ c : Call ι, c.worksIn w = false →
      ∀ v, (c.prog x).Spares (Memory.ofWorkspace w) v := fun c hc v => Call.prog_spares hc v
  have hstart : s.ofWorkspace w = (s.ofWorkspace w).ofWorkspace w :=
    (ofWorkspace_ofWorkspace w).symm
  have herased := erased_calls hown hothers hstart xs
  exact ⟨herased.trace, restrict_entries herased.shared, restrict_rows herased.shared⟩

end Workspaces

end Alos.Registry
