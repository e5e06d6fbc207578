import Alos.Registry.Lifecycle

/-! # The lineage of a version

The ids that a version carries, and the calls that they come from.

* `Lineage`: an entry carries the decision of an approval and the release of an
  activation that have been saved;
* `attested_keeps`: it does as long as no approval without a decision and no
  activation without a release is saved, hydrations overlapping or not;
* `unsigned_approval`: one without a decision is accepted all the same.
-/

namespace Alos.Registry

open Coop Py

section Calls

variable {ι : Type}

/-- An approval names its decision and an activation its release. -/
def Call.Signed : Call ι → Prop
  | .approve _ _ _ decisionId _ _ => decisionId ≠ ""
  | .activate _ _ _ releaseId _ => releaseId ≠ ""
  | _ => True

instance (c : Call ι) : Decidable c.Signed := by
  unfold Call.Signed
  split <;> infer_instance

/-- The store has taken the entry of the call. -/
def SavedAt : Stop (Question ι) RegistryError (Option RegistryEntry) → Prop
  | .awaiting .close | .awaiting (.append _) => True
  | _ => False

/-- The store takes the entry with this answer. -/
def Takes : Exchange (Question ι) Answer → Prop
  | ⟨.save, answer⟩ => answer = Stored.returned
  | ⟨.commit, answer⟩ => answer = Stored.returned
  | _ => False

/-- The call has saved an entry: what it found in the state that it expects, it
has moved. -/
def Persisted (ls : List (RegistryLabel ι)) (c : Call ι) : Prop :=
  ∃ l ∈ ls, l.call = c ∧ SavedAt l.stop

/-- The entry carries the decision of the approval that moved it out of DRAFT,
and the release of the activation that made it ACTIVE. -/
structure Lineage (persisted : Call ι → Prop) (i : ι) (entry : RegistryEntry) : Prop where
  approved : entry.state ≠ .draft → ∃ actorId decisionId authority correlationId,
    persisted (.approve i entry.key actorId decisionId authority correlationId) ∧
      decisionId ≠ "" ∧ entry.decisionId = some decisionId
  activated : entry.state = .active ∨ entry.state = .suspended →
    ∃ actorId releaseId correlationId,
      persisted (.activate i entry.key actorId releaseId correlationId) ∧
        releaseId ≠ "" ∧ entry.releaseId = some releaseId

variable {i : ι} {P P' : Call ι → Prop} {entry entry' : RegistryEntry}

theorem Lineage.mono (h : Lineage P i entry) (hP : ∀ c, P c → P' c) : Lineage P' i entry where
  approved := by
    intro hstate
    rcases h.approved hstate with ⟨_, _, _, _, hc, hid⟩
    exact ⟨_, _, _, _, hP _ hc, hid⟩
  activated := by
    intro hstate
    rcases h.activated hstate with ⟨_, _, _, hc, hid⟩
    exact ⟨_, _, _, hP _ hc, hid⟩

/-- The lineage is a matter of the key, the state and the two ids. -/
theorem Lineage.congr (h : Lineage P i entry) (hkey : entry'.key = entry.key)
    (hstate : entry'.state = entry.state) (hdecision : entry'.decisionId = entry.decisionId)
    (hrelease : entry'.releaseId = entry.releaseId) : Lineage P i entry' where
  approved := by
    rw [hstate, hkey, hdecision]
    exact h.approved
  activated := by
    rw [hstate, hkey, hrelease]
    exact h.activated

theorem Persisted.append {ls : List (RegistryLabel ι)} {c : Call ι} (h : Persisted ls c)
    (l : RegistryLabel ι) : Persisted (ls ++ [l]) c := by
  rcases h with ⟨l', hl', hc⟩
  exact ⟨l', List.mem_append_left _ hl', hc⟩

theorem persisted_last {ls : List (RegistryLabel ι)} {l : RegistryLabel ι} (h : SavedAt l.stop) :
    Persisted (ls ++ [l]) l.call :=
  ⟨l, by simp, rfl, h⟩

end Calls

section Lineage

variable {ι κ : Type} {x : Registries ι κ} {c : Call ι}

/-- A signed call keeps the lineage of what it moves, and adds to it. -/
theorem Moves.lineage {found : Option RegistryEntry} {entry : RegistryEntry} {P : Call ι → Prop}
    (h : Moves x c found entry) (hfound : ∀ old, found = some old → Lineage P c.registry old)
    (hc : P c) (hsigned : c.Signed) : Lineage P c.registry entry := by
  -- an approval sets the decision, an activation the release; a suspension keeps both
  cases h with
  | registered hprepare =>
      obtain ⟨subjectId, version, rfl⟩ := prepare_ok hprepare
      exact ⟨by simp, by simp⟩
  | @approved i key actorId decisionId authority correlationId old resolvedAuthority hkey =>
      subst hkey
      refine ⟨fun _ => ⟨_, _, _, _, hc, hsigned, if_neg hsigned⟩, by simp⟩
  | @activated i key actorId releaseId correlationId old hkey hstate =>
      subst hkey
      refine ⟨fun _ => ?_, fun _ => ⟨_, _, _, hc, hsigned, if_neg hsigned⟩⟩
      exact (hfound old rfl).approved (by simp [hstate])
  | @suspended i key actorId correlationId old hkey hstate =>
      refine ⟨fun _ => ?_, fun _ => ?_⟩
      · exact (hfound old rfl).approved (by simp [hstate])
      · exact (hfound old rfl).activated (.inl hstate)

/-- A row that is updated as it was selected takes over the lifecycle of the
entry. -/
theorem updated_lineage {P : Call ι → Prop} {i : ι} {row entry : RegistryEntry}
    (h : Lineage P i entry) (hkey : row.storeKey = entry.storeKey) :
    Lineage P i (RegistryEntry.updated row row entry) := by
  apply h.congr
  · exact congrArg StoreKey.place hkey
  all_goals
    simp only [RegistryEntry.updated]
    split <;> simp_all

end Lineage

/-! ## The invariant -/

section Invariant

variable {ι κ : Type} (x : Registries ι κ)

/-- An entry of the registry `i` with its lineage. -/
def Attests (ls : List (RegistryLabel ι)) (i : ι) (entry : RegistryEntry) : Prop :=
  entry.subjectType = (x.registry i).subjectType ∧ Lineage (Persisted ls) i entry

/-- The entry that the call `c` is about to save has its lineage, given that `c`
is signed. -/
def Promises (ls : List (RegistryLabel ι)) (c : Call ι) (entry : RegistryEntry) : Prop :=
  entry.subjectType = (x.registry c.registry).subjectType ∧
    (c.Signed → Lineage (fun d => d = c ∨ Persisted ls d) c.registry entry)

/-- What a call at a stage knows of the entries it holds. -/
def Stage.Attested (c : Call ι) (s : Memory ι κ) (ls : List (RegistryLabel ι)) : Stage → Prop
  | .waiting u => c.update? x = some (.ok u)
  | .saving _ entry | .selecting _ entry => Promises x ls c entry
  | .committing _ entry record => Promises x ls c entry ∧
      record = (s.rows (x.registry c.registry).store).get? entry.storeKey
  | .closing _ entry => Attests x ls c.registry entry
  | .reloading loaded => ∀ e ∈ loaded, Attests x ls c.registry e
  | _ => True

structure Attested (w : RegistryWorld ι κ) (pool : RegistryPool ι) : Prop where
  exclusive : Exclusive w.shared.locked Stage.lock pool
  dict : ∀ i, ∀ e ∈ (w.shared.entries i).values, Attests x w.trace i e
  rows : ∀ i, ∀ e ∈ w.shared.load (x.registry i).store (x.registry i).subjectType,
    Attests x w.trace i e
  stages : ∀ j c st, pool j = some (c, st) → st.Attested x c w.shared w.trace

end Invariant

section Turns

variable {ι κ : Type} {x : Registries ι κ} {c : Call ι} {s s' : Memory ι κ}
  {ls : List (RegistryLabel ι)} {i : ι} {entry : RegistryEntry}

theorem Attests.append (h : Attests x ls i entry) (l : RegistryLabel ι) :
    Attests x (ls ++ [l]) i entry :=
  ⟨h.1, h.2.mono fun _ hd => hd.append l⟩

theorem Promises.append (h : Promises x ls c entry) (l : RegistryLabel ι) :
    Promises x (ls ++ [l]) c entry := by
  refine ⟨h.1, fun hsigned => (h.2 hsigned).mono ?_⟩
  rintro d (rfl | hd)
  · exact .inl rfl
  · exact .inr (hd.append l)

/-- What was promised holds once it is saved. -/
theorem Promises.attests (h : Promises x ls c entry) {l : RegistryLabel ι} (hl : l.call = c)
    (hsigned : c.Signed) (hsaved : SavedAt l.stop) :
    Attests x (ls ++ [l]) c.registry entry := by
  refine ⟨h.1, (h.2 hsigned).mono ?_⟩
  rintro d (rfl | hd)
  · rw [← hl]
    exact persisted_last hsaved
  · exact hd.append l

/-- What is known at a stage stays, as long as the rows under the key of the
call stay. -/
theorem Stage.Attested.append {st : Stage} (h : st.Attested x c s ls) (l : RegistryLabel ι)
    (hrows : ∀ u entry record, st = .committing u entry record →
      (s'.rows (x.registry c.registry).store).get? entry.storeKey =
        (s.rows (x.registry c.registry).store).get? entry.storeKey) :
    st.Attested x c s' (ls ++ [l]) := by
  -- what a stage promises is kept while the trace grows
  cases st with
  | waiting u => exact h
  | saving u entry => exact Promises.append h l
  | selecting u entry => exact Promises.append h l
  | committing u entry record =>
      refine ⟨h.1.append l, ?_⟩
      rw [hrows u entry record rfl]
      exact h.2
  | closing u entry => exact Attests.append h l
  | reloading loaded => exact fun e he => (h e he).append l
  | _ => trivial

variable {w : RegistryWorld ι κ} {pool : RegistryPool ι} {j : ℕ} {st st' : Stage}
  {y : Exchange (Question ι) Answer} {l : RegistryLabel ι}

/-- What a call decides to store is promised. -/
theorem Attested.promises (h : Attested x w pool) {u : Update}
    (hupdate : c.update? x = some (.ok u))
    (hdecide : u.decide ((w.shared.entries c.registry).get? u.key) = .ok (.stored entry)) :
    Promises x w.trace c entry := by
  have hmoves := Call.stores hupdate (fun old hold => Table.key_of_get? hold) hdecide
  have hfound : ∀ old, (w.shared.entries c.registry).get? u.key = some old →
      Attests x w.trace c.registry old :=
    fun old hold => h.dict c.registry old (Table.mem_of_get? hold)
  refine ⟨hmoves.subjectType fun old hold => (hfound old hold).1, fun hsigned => ?_⟩
  exact hmoves.lineage (fun old hold => (hfound old hold).2.mono fun _ => .inr) (.inl rfl) hsigned

variable [DecidableEq ι] [DecidableEq κ]

/-- What a turn does to the rows: nothing, or the call that holds the lock
saves an entry. -/
theorem Attested.rows_turn (h : Attested x w pool) (hj : pool j = some (c, st))
    (hturn : Turn x c.registry w.shared st y s' st') (hsigned : Takes y → c.Signed)
    (hcall : l.call = c) (hstop : l.stop = (st'.now x c.registry).stop) :
    s'.rows = w.shared.rows ∨ ∃ row, Attests x (w.trace ++ [l]) c.registry row ∧
      st.lock c = some c.registry ∧
      s'.rows = (w.shared.putRow (x.registry c.registry).store row).rows := by
  have hstage := h.stages j c st hj
  cases hturn with
  | @saved u entry =>
      refine .inr ⟨entry, ?_, rfl, rfl⟩
      exact Promises.attests hstage hcall (hsigned rfl) (hstop ▸ trivial)
  | @inserted u entry hrow =>
      refine .inr ⟨entry, ?_, rfl, rfl⟩
      exact hstage.1.attests hcall (hsigned rfl) (hstop ▸ trivial)
  | @updated u entry selected row hrow =>
      -- the row that is updated is the one that was selected
      obtain ⟨hpromises, hselected⟩ := hstage
      rw [hrow] at hselected
      cases hselected
      refine .inr ⟨_, ?_, rfl, rfl⟩
      have hattests := hpromises.attests hcall (hsigned rfl) (hstop ▸ trivial)
      have hkey := Table.key_of_get? hrow
      exact ⟨(congrArg StoreKey.subjectType hkey).trans hattests.1,
        updated_lineage hattests.2 hkey⟩
  | _ => exact .inl rfl

/-- What a turn does to the dicts: it keeps their entries, or adds some with
their lineage. -/
theorem Attested.dict_turn (h : Attested x w pool) (hj : pool j = some (c, st))
    (hturn : Turn x c.registry w.shared st y s' st') (hsigned : Takes y → c.Signed)
    (hcall : l.call = c) (hstop : l.stop = (st'.now x c.registry).stop) (i : ι) :
    ∀ e ∈ (s'.entries i).values, e ∈ (w.shared.entries i).values ∨
      Attests x (w.trace ++ [l]) i e := by
  have hstage := h.stages j c st hj
  -- the cache gets the entry of the call, which is attested
  have hput : ∀ entry, Attests x (w.trace ++ [l]) c.registry entry →
      ∀ e ∈ ((w.shared.putEntry c.registry entry).entries i).values,
        e ∈ (w.shared.entries i).values ∨ Attests x (w.trace ++ [l]) i e := by
    intro entry hentry e he
    rcases Memory.mem_putEntry he with hold | ⟨rfl, rfl⟩
    · exact .inl hold
    · exact .inr hentry
  cases hturn with
  | @saved u entry =>
      exact hput entry (Promises.attests hstage hcall (hsigned rfl) (hstop ▸ trivial))
  | @closed u entry => exact hput entry (Attests.append hstage l)
  | @reloaded loaded =>
      intro e he
      rw [Memory.setLocked_entries] at he
      rcases Memory.mem_setEntries he with hold | ⟨rfl, hmem⟩
      · exact .inl hold
      · exact .inr ((hstage e hmem).append l)
  | _ => exact fun e he => .inl he

/-- What the call knows at its new stage. -/
theorem Attested.stage_turn (h : Attested x w pool) (hj : pool j = some (c, st))
    (hturn : Turn x c.registry w.shared st y s' st') (hsigned : Takes y → c.Signed)
    (hcall : l.call = c) (hstop : l.stop = (st'.now x c.registry).stop) :
    st'.Attested x c s' (w.trace ++ [l]) := by
  have hstage := h.stages j c st hj
  cases hturn with
  | stores hdecide =>
      -- the entry that will be saved is that of the call's own update
      have hpromises := (h.promises hstage hdecide).append l
      unfold entering
      split
      · exact hpromises
      · exact hpromises
  | selected => exact ⟨Promises.append hstage l, rfl⟩
  | inserted hrow => exact hstage.1.attests hcall (hsigned rfl) (hstop ▸ trivial)
  | updated hrow => exact hstage.1.attests hcall (hsigned rfl) (hstop ▸ trivial)
  | loaded => exact fun e he => (h.rows c.registry e he).append l
  | _ => trivial

omit [DecidableEq ι] in
/-- A call that is in the midst of a session finds the rows of its entry as
they were. -/
theorem Attested.rows_others (hsep : Separate x) (h : Attested x w pool)
    (hj : pool j = some (c, st)) (hlock : st.lock c = some c.registry) {row : RegistryEntry}
    (hrow : row.subjectType = (x.registry c.registry).subjectType) {k : ℕ} (hk : k ≠ j)
    {d : Call ι} {u : Update} {record : Option RegistryEntry}
    (hpool : pool k = some (d, .committing u entry record)) :
    ((w.shared.putRow (x.registry c.registry).store row).rows (x.registry d.registry).store).get?
        entry.storeKey =
      (w.shared.rows (x.registry d.registry).store).get? entry.storeKey := by
  have htype := (h.stages k d _ hpool).1.1
  -- two calls that wait hold two locks, so they are of two registries
  have hne : d.registry ≠ c.registry := by
    intro hregistry
    exact hk (h.exclusive.unique k j d c _ st c.registry hpool hj (congrArg some hregistry) hlock)
  rw [Memory.putRow_rows]
  by_cases hstore : (x.registry d.registry).store = (x.registry c.registry).store
  · rw [hstore, Function.update_self]
    apply Table.get?_put_of_ne
    intro hkey
    apply hne (hsep _ _ hstore _)
    rw [← htype, ← hrow]
    exact (congrArg StoreKey.subjectType hkey).symm
  · rw [Function.update_of_ne hstore]

end Turns

/-! ## Runs -/

section Runs

variable {ι κ : Type} [DecidableEq ι] [DecidableEq κ] {x : Registries ι κ}

/-- The store takes the entries of signed calls only. -/
def SignedSaves (t : RegistrySys ι κ) : RegistryStep ι → Prop
  | .call _ _ => True
  | .resume j reply => ∀ th ∈ t.threads j, ∀ q ∈ th.now.stop.question?,
      Takes ⟨q, reply q⟩ → th.call.Signed

omit [DecidableEq ι] in
/-- The rows are attested that were, and the one that is saved. -/
theorem attests_putRow (hsep : Separate x) {s s' : Memory ι κ} {ls : List (RegistryLabel ι)}
    {l : RegistryLabel ι} {i : ι} {row : RegistryEntry} (hrow : Attests x (ls ++ [l]) i row)
    (hrows : s'.rows = (s.putRow (x.registry i).store row).rows)
    (h : ∀ j, ∀ e ∈ s.load (x.registry j).store (x.registry j).subjectType, Attests x ls j e) :
    ∀ j, ∀ e ∈ s'.load (x.registry j).store (x.registry j).subjectType,
      Attests x (ls ++ [l]) j e := by
  intro j e he
  rw [Memory.load, List.mem_filter, hrows, Memory.putRow_rows] at he
  obtain ⟨hmem, htype⟩ := he
  have hold : e ∈ (s.rows (x.registry j).store).values → Attests x (ls ++ [l]) j e :=
    fun hmem => (h j e (List.mem_filter.2 ⟨hmem, htype⟩)).append l
  -- a row of another store is not touched
  by_cases hstore : (x.registry j).store = (x.registry i).store
  · rw [hstore, Function.update_self] at hmem
    rcases Table.mem_put.1 hmem with rfl | ⟨hmem, -⟩
    · have hj : j = i := hsep j i hstore ((by simpa using htype : _ = _).symm.trans hrow.1)
      rw [hj]
      exact hrow
    · exact hold (hstore ▸ hmem)
  · rw [Function.update_of_ne hstore] at hmem
    exact hold hmem

theorem attested_keeps (hsep : Separate x) : (staging x).Keeps
    (fun t step => (locks ι κ).Granted t step ∧ SignedSaves t step) (Attested x) where
  start := by
    intro t pool i c s' st hpool h hP hi hbegins
    -- the first segment stores nothing
    have hs : s' = t.shared := by
      cases hbegins <;> rfl
    subst hs
    refine ⟨?_, ?_, ?_, ?_⟩
    · apply h.exclusive.handle (.inl rfl)
      cases hbegins <;> exact .idle
    · exact fun j e he => (h.dict j e he).append _
    · exact fun j e he => (h.rows j e he).append _
    · intro j d u hj
      rcases Pool.put_eq_some.1 hj with ⟨rfl, rfl, rfl⟩ | ⟨hne, hj⟩
      · cases hbegins with
        | refused hupdate => trivial
        | opened hupdate => exact hupdate
        | loads hupdate => trivial
      · exact (h.stages j d u hj).append _ fun _ _ _ _ => rfl
  turn := by
    intro t pool i reply c st q k a s' st' hpool h hP hi hnow hreply hturn
    have hfree : ∀ l, q = .acquire l → t.shared.locked l = false :=
      fun l => hP.1.free hpool hi hnow
    have hsigned : Takes ⟨q, a⟩ → c.Signed := by
      intro htakes
      subst hreply
      apply hP.2 _ (hpool.thread_some hi) q _ htakes
      rw [hnow]
      rfl
    have hrows := h.rows_turn (l := (staging x).label i c (.answer ⟨q, a⟩) st') hi hturn hsigned
      rfl rfl
    refine ⟨?_, ?_, ?_, ?_⟩
    · exact h.exclusive.handle (.inr ⟨st, hi, rfl⟩) (Turn.handling hturn hfree)
    · intro j e he
      rcases h.dict_turn (l := (staging x).label i c (.answer ⟨q, a⟩) st') hi hturn hsigned
        rfl rfl j e he with hold | hnew
      · exact (h.dict j e hold).append _
      · exact hnew
    · rcases hrows with hsame | ⟨row, hrow, -, hput⟩
      · intro j e he
        rw [World.push_shared, Memory.load, hsame] at he
        exact (h.rows j e he).append _
      · exact attests_putRow hsep hrow hput h.rows
    · intro j d u hj
      rcases Pool.put_eq_some.1 hj with ⟨rfl, rfl, rfl⟩ | ⟨hne, hj⟩
      · exact h.stage_turn hi hturn hsigned rfl rfl
      · apply (h.stages j d u hj).append
        -- a row that another call has selected is still the one stored
        rintro v entry record rfl
        rw [World.push_shared]
        rcases hrows with hsame | ⟨row, hrow, hlock, hput⟩
        · rw [hsame]
        · rw [hput]
          exact h.rows_others hsep hi hlock hrow.1 hne hj

/-- In every run in which nothing unsigned is saved, every version carries its
lineage. -/
theorem lineage_of_signed (hsep : Separate x) {xs : List (RegistryStep ι)}
    (hgranted : Along (Call.prog x) (locks ι κ).Granted (init .empty) xs)
    (hsigned : Along (Call.prog x) SignedSaves (init .empty) xs) (i : ι) (entry : RegistryEntry)
    (hentry : entry ∈ ((operated x xs).shared.entries i).values) :
    Lineage (Persisted (operated x xs).trace) i entry := by
  have hstaged : (staging x).Staged (Attested x) (operated x xs) := by
    apply (attested_keeps hsep).run_inv (staging_follows x) _ xs (hgranted.and hsigned)
    refine ⟨fun _ => none, Staging.describes_init _, exclusive_empty, ?_, ?_, ?_⟩
    · intro j e he
      cases he
    · intro j e he
      cases he
    · intro j c st hj
      cases hj
  rcases hstaged with ⟨pool, -, hattested⟩
  exact (hattested.dict i entry hentry).2

/-- Where every call is signed, so is every save. -/
theorem signedSaves_of_calls {s : Memory ι κ} {xs : List (RegistryStep ι)}
    (h : ∀ j c, .call j c ∈ xs → c.Signed) : Along (Call.prog x) SignedSaves (init s) xs := by
  intro pre step post hxs
  cases step with
  | call j c => trivial
  | resume j reply =>
      intro th hth q _ _
      have hmem := (run_started (Call.prog x) s pre).threads j th hth
      exact h j th.call (by simp [hxs, hmem])

end Runs

/-! ## An approval without a decision -/

def approveSkill (decisionId : String) : Call Unit :=
  .approve () ⟨"tenant_atomicity", "workspace_atomicity", "skill.registry.atomicity", "1.0.0"⟩
    "actor_it_atomicity" decisionId "IT" "corr_atomicity"

def activateSkill (releaseId : String) : Call Unit :=
  .activate () ⟨"tenant_atomicity", "workspace_atomicity", "skill.registry.atomicity", "1.0.0"⟩
    "actor_release_atomicity" releaseId "corr_atomicity"

/-- The call number `j`, from its start to its end. -/
def undisturbed (j : ℕ) (c : Call Unit) : List (RegistryStep Unit) :=
  [.call j c, .resume j (answering .returned), .resume j (answering .returned),
    .resume j (answering .returned)]

/-- Registered, approved and activated. -/
def released : List (RegistryStep Unit) :=
  undisturbed 0 registerSkill ++ undisturbed 1 (approveSkill "decision_atomicity") ++
    undisturbed 2 (activateSkill "release_atomicity")

theorem lineage_of_signed_released :
    ∃ entry ∈ ((operated atomicity released).shared.entries ()).values,
      Lineage (Persisted (operated atomicity released).trace) () entry := by
  have hone : ((operated atomicity released).shared.entries ()).values.length = 1 := by
    decide +kernel
  obtain ⟨entry, hentry⟩ := List.length_eq_one_iff.1 hone
  have hmem : entry ∈ ((operated atomicity released).shared.entries ()).values := by simp [hentry]
  refine ⟨entry, hmem, lineage_of_signed ?_ ?_ ?_ () entry hmem⟩
  · exact fun _ _ _ _ => rfl
  · decide +kernel
  · apply signedSaves_of_calls
    intro j c hc
    simp only [released, undisturbed, List.cons_append, List.nil_append, List.mem_cons,
      Step.call.injEq, reduceCtorEq, List.not_mem_nil, or_false, false_or] at hc
    rcases hc with ⟨-, rfl⟩ | ⟨-, rfl⟩ | ⟨-, rfl⟩ <;> decide

/-- Registered, and approved with an empty decision id. -/
def unsigned : List (RegistryStep Unit) :=
  undisturbed 0 registerSkill ++ undisturbed 1 (approveSkill "")

theorem unsigned_approval :
    Along (Call.prog atomicity) (locks Unit Unit).Granted (init .empty) unsigned ∧
      ¬ ∀ i, ∀ entry ∈ ((operated atomicity unsigned).shared.entries i).values,
        Lineage (Persisted (operated atomicity unsigned).trace) i entry := by
  constructor
  · decide +kernel
  · intro h
    have happroved : ((operated atomicity unsigned).shared.entries ()).values.any
        (fun entry => entry.state = .approved ∧ entry.decisionId = none) = true := by
      decide +kernel
    rcases List.any_eq_true.1 happroved with ⟨entry, hentry, hstate⟩
    simp only [decide_eq_true_eq] at hstate
    rcases (h () entry hentry).approved (by simp [hstate.1]) with ⟨_, _, _, _, -, -, hdecision⟩
    rw [hstate.2] at hdecision
    cases hdecision

end Alos.Registry
