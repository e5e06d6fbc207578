import Alos.Registry.Sequential

/-! # Genuine entries

What every run keeps, whatever overlaps in it: hydrations, calls that share a lock,
calls that fail halfway.

* `Genuine`: the entry is one of its registry, and what a registration makes of its
  payload;
* `Begins.genuine` and `Turn.genuine`: no segment of an operation brings other entries into the dicts,
  the rows, or the hands of a call;
* `Turn.moving`: what a call has in its hands is one of its moves.
-/

namespace Alos.Registry

open Coop Py

section Genuine

variable {ι κ : Type} (x : Registries ι κ)

/-- An entry that the registry has made: it is formed as `prepare` forms it, and has the subject
type of its registry. -/
structure Genuine (i : ι) (entry : RegistryEntry) : Prop extends Formed x i entry where
  subjectType : entry.subjectType = (x.registry i).subjectType

/-- The entries of the dicts, and the rows that they are hydrated from. -/
structure AllGenuine (s : Memory ι κ) : Prop where
  dict : ∀ i, ∀ e ∈ (s.entries i).values, Genuine x i e
  rows : ∀ i, ∀ e ∈ s.load (x.registry i).store (x.registry i).subjectType, Genuine x i e

/-- The entries that a call at this stage has in its hands. -/
def Stage.Genuine (c : Call ι) : Stage → Prop
  | .waiting u => c.update? x = some (.ok u)
  | .saving _ entry | .selecting _ entry | .committing _ entry _ | .closing _ entry =>
      Registry.Genuine x c.registry entry
  | .reloading loaded => ∀ e ∈ loaded, Registry.Genuine x c.registry e
  | _ => True

variable {x} {s s' : Memory ι κ} {i : ι} {c : Call ι} {entry : RegistryEntry}

/-- Nothing is stored at the start. -/
theorem allGenuine_empty : AllGenuine x (.empty : Memory ι κ) where
  dict := by
    intro i e he
    cases he
  rows := by
    intro i e he
    cases he

/-- A move makes genuine entries of genuine ones. -/
theorem Moves.genuine {found : Option RegistryEntry} (h : Moves x c found entry)
    (hfound : ∀ old, found = some old → Genuine x c.registry old) : Genuine x c.registry entry where
  toFormed := h.formed fun old hold => (hfound old hold).toFormed
  subjectType := h.subjectType fun old hold => (hfound old hold).subjectType

/-- What is assigned to a row is its lifecycle. -/
theorem Genuine.updated {row : RegistryEntry} (h : Genuine x i row) (selected entry : RegistryEntry) :
    Genuine x i (row.updated selected entry) :=
  ⟨⟨h.digest, h.subjectId, h.version⟩, h.subjectType⟩

variable [DecidableEq ι] [DecidableEq κ]

omit [DecidableEq κ] in
/-- The cache may take a genuine entry. -/
theorem AllGenuine.putEntry (h : AllGenuine x s) (hentry : Genuine x i entry) :
    AllGenuine x (s.putEntry i entry) where
  dict := by
    intro j e he
    rcases Memory.mem_putEntry he with hold | ⟨rfl, rfl⟩
    · exact h.dict j e hold
    · exact hentry
  rows := h.rows

omit [DecidableEq ι] in
/-- The store may take a genuine entry. Other registries keep their rows elsewhere. -/
theorem AllGenuine.putRow (hsep : Separate x) (h : AllGenuine x s) (hentry : Genuine x i entry) :
    AllGenuine x (s.putRow (x.registry i).store entry) where
  dict := h.dict
  rows := by
    intro j e he
    rw [Memory.load, List.mem_filter, Memory.putRow_rows] at he
    rcases he with ⟨hmem, htype⟩
    by_cases hstore : (x.registry j).store = (x.registry i).store
    · rw [hstore, Function.update_self] at hmem
      rcases Table.mem_put.1 hmem with rfl | ⟨hmem, -⟩
      · have hj : j = i :=
          hsep j i hstore ((by simpa using htype : _ = _).symm.trans hentry.subjectType)
        rwa [hj]
      · exact h.rows j e (List.mem_filter.2 ⟨hstore ▸ hmem, htype⟩)
    · rw [Function.update_of_ne hstore] at hmem
      exact h.rows j e (List.mem_filter.2 ⟨hmem, htype⟩)

omit [DecidableEq κ] in
/-- The locks are no entries. -/
theorem AllGenuine.setLocked (h : AllGenuine x s) (b : Bool) : AllGenuine x (s.setLocked i b) :=
  ⟨h.dict, h.rows⟩

omit [DecidableEq κ] in
/-- Hydrating puts genuine entries into the cache, when the rows are. -/
theorem AllGenuine.setEntries (h : AllGenuine x s) {loaded : List RegistryEntry}
    (hloaded : ∀ e ∈ loaded, Genuine x i e) : AllGenuine x (s.setEntries i (.ofList loaded)) where
  dict := by
    intro j e he
    rcases Memory.mem_setEntries he with hold | ⟨rfl, hmem⟩
    · exact h.dict j e hold
    · exact hloaded e hmem
  rows := h.rows

omit [DecidableEq ι] [DecidableEq κ] in
/-- The row that a commit updates is one of the registry. -/
theorem AllGenuine.row (h : AllGenuine x s) (hentry : Genuine x i entry) {row : RegistryEntry}
    (hrow : (s.rows (x.registry i).store).get? entry.storeKey = some row) : Genuine x i row := by
  have htype : row.subjectType = entry.subjectType :=
    congrArg StoreKey.subjectType (Table.key_of_get? hrow)
  apply h.rows i row
  rw [Memory.load, List.mem_filter]
  exact ⟨Table.mem_of_get? hrow, by simpa using htype.trans hentry.subjectType⟩

omit [DecidableEq ι] [DecidableEq κ] in
/-- What is decided on a genuine entry is genuine. -/
theorem AllGenuine.decided (h : AllGenuine x s) {u : Update} (hupdate : c.update? x = some (.ok u))
    (hdecide : u.decide ((s.entries c.registry).get? u.key) = .ok (.stored entry)) :
    Genuine x c.registry entry :=
  (Call.stores hupdate (fun _ hold => Table.key_of_get? hold) hdecide).genuine
    fun old hold => h.dict c.registry old (Table.mem_of_get? hold)

omit [DecidableEq ι] [DecidableEq κ] in
/-- A call starts without a write, and with a genuine entry in hand. -/
theorem Begins.genuine {st : Stage} (h : Begins x c s s' st) : s' = s ∧ st.Genuine x c := by
  cases h with
  | refused => exact ⟨rfl, trivial⟩
  | opened hupdate => exact ⟨rfl, hupdate⟩
  | loads => exact ⟨rfl, trivial⟩

/-- A segment writes genuine entries only. -/
theorem Turn.genuine (hsep : Separate x) {st st' : Stage} {y : Exchange (Question ι) Answer}
    (hturn : Turn x c.registry s st y s' st') (h : AllGenuine x s) (hst : st.Genuine x c) :
    AllGenuine x s' ∧ st'.Genuine x c := by
  cases hturn with
  | stopped => exact ⟨h.setLocked _, trivial⟩
  | found => exact ⟨h.setLocked _, trivial⟩
  | stores hdecide =>
      -- what is saved comes from a payload that was hashed, or from an entry that was genuine
      have hentry := h.decided hst hdecide
      refine ⟨h.setLocked _, ?_⟩
      unfold entering
      split
      · exact hentry
      · exact hentry
  | failed => exact ⟨h.setLocked _, trivial⟩
  | saved => exact ⟨((h.putRow hsep hst).putEntry hst).setLocked _, trivial⟩
  | selected => exact ⟨h, hst⟩
  | inserted => exact ⟨h.putRow hsep hst, hst⟩
  | updated hrow => exact ⟨h.putRow hsep ((h.row hst hrow).updated ..), hst⟩
  | closed => exact ⟨(h.putEntry hst).setLocked _, trivial⟩
  | recorded => exact ⟨h, trivial⟩
  | unrecorded => exact ⟨h, trivial⟩
  | unloaded => exact ⟨h, trivial⟩
  | loaded => exact ⟨h, h.rows c.registry⟩
  | reloaded => exact ⟨(h.setEntries hst).setLocked _, trivial⟩

/-! ## Moves in hand -/

/-- What a call at this stage is about to store is one of its moves. -/
def Stage.Moving (x : Registries ι κ) (c : Call ι) : Stage → Prop
  | .waiting u => c.update? x = some (.ok u)
  | .saving _ entry | .selecting _ entry | .committing _ entry _ | .closing _ entry =>
      ∃ found, Moves x c found entry
  | .loading | .reloading _ => c.update? x = none
  | _ => True

omit [DecidableEq ι] [DecidableEq κ] in
/-- A call starts without a write, and waits with its own update in hand. -/
theorem Begins.moving {st : Stage} (h : Begins x c s s' st) : s' = s ∧ st.Moving x c := by
  cases h with
  | refused => exact ⟨rfl, trivial⟩
  | opened hupdate => exact ⟨rfl, hupdate⟩
  | loads hupdate => exact ⟨rfl, hupdate⟩

/-- What a call goes on to store after a segment is one of its moves. -/
theorem Turn.moving {st st' : Stage} {y : Exchange (Question ι) Answer}
    (hturn : Turn x c.registry s st y s' st') (hst : st.Moving x c) : st'.Moving x c := by
  cases hturn with
  | stores hdecide =>
      have hmoves : ∃ found, Moves x c found _ :=
        ⟨_, Call.stores hst (fun _ hold => Table.key_of_get? hold) hdecide⟩
      unfold entering
      split
      · exact hmoves
      · exact hmoves
  | selected => exact hst
  | inserted => exact hst
  | updated => exact hst
  | loaded => exact hst
  | _ => trivial

end Genuine

end Alos.Registry
