import Alos.Registry.Shared

/-! # Processes that are restarted

One process after the other over the same stores. Each hydrates its registries
when it starts, and stops at any point of its run: what is in flight is lost, the
rows stay.

* `rows_step`: a step of a process leaves the rows alone, or takes one version
  one step further;
* `lasting_keeps`: what a call has stored or returned is persisted, with all
  that was made of it since;
* `lives_durable`: so it is for every later process.

The registries of a process keep their rows apart (`Separate`), and its steps are
those that the locks and the hydrations allow (`Orderly`).
-/

namespace Alos.Registry

open Coop Py

/-! ## One step of the rows -/

/-- What one step makes of a persisted version: nothing, or it is registered as a
draft, or it is taken one step further. -/
inductive VersionStep : Option RegistryEntry → Option RegistryEntry → Prop where
  | same {found} : VersionStep found found
  | registered {new} (hstate : new.state = .draft) : VersionStep none (some new)
  | moved {old new} (hcontent : old.SameContent new) (hstate : old.state.successor = some new.state) :
      VersionStep (some old) (some new)

/-- A version that is there stays there and evolves at most. -/
theorem VersionStep.evolves {old : RegistryEntry} {after : Option RegistryEntry}
    (h : VersionStep (some old) after) : ∃ new, after = some new ∧ old.Evolves new := by
  cases h with
  | same => exact ⟨old, rfl, .refl old⟩
  | moved hcontent hstate =>
      have hrank := RegistryState.rank_of_successor hstate
      exact ⟨_, rfl, hcontent, by omega⟩

section Rows

variable {ι κ : Type}

/-- Every version of every store has made at most one step. -/
def RowsStep (rows rows' : κ → Table RegistryEntry.storeKey) : Prop :=
  ∀ k key, VersionStep ((rows k).get? key) ((rows' k).get? key)

/-- Every version is still there, and evolved. -/
def RowsEvolve (rows rows' : κ → Table RegistryEntry.storeKey) : Prop :=
  ∀ k key row, (rows k).get? key = some row →
    ∃ row', (rows' k).get? key = some row' ∧ row.Evolves row'

/-- Rows evolve into themselves. -/
theorem RowsEvolve.refl (rows : κ → Table RegistryEntry.storeKey) : RowsEvolve rows rows :=
  fun _ _ row hrow => ⟨row, hrow, .refl row⟩

/-- What has evolved evolves on. -/
theorem RowsEvolve.trans {rows rows' rows'' : κ → Table RegistryEntry.storeKey}
    (h : RowsEvolve rows rows') (h' : RowsEvolve rows' rows'') : RowsEvolve rows rows'' := by
  intro k key row hrow
  rcases h k key row hrow with ⟨row', hrow', hevolves⟩
  rcases h' k key row' hrow' with ⟨row'', hrow'', hevolves'⟩
  exact ⟨row'', hrow'', hevolves.trans hevolves'⟩

/-- One step of the rows is an evolution of each. -/
theorem RowsStep.evolve {rows rows' : κ → Table RegistryEntry.storeKey} (h : RowsStep rows rows') :
    RowsEvolve rows rows' := by
  intro k key row hrow
  have hstep := h k key
  rw [hrow] at hstep
  exact hstep.evolves

/-- A step that writes no row is one too. -/
theorem RowsStep.refl (rows : κ → Table RegistryEntry.storeKey) : RowsStep rows rows :=
  fun _ _ => .same

variable [DecidableEq κ] {x : Registries ι κ} {c : Call ι} {s s' : Memory ι κ} {st st' : Stage}
  {y : Exchange (Question ι) Answer} {pool : RegistryPool ι} {i : ℕ}

/-- A version that is stored over its row is the next one. -/
theorem rowsStep_putRow {k : κ} {entry : RegistryEntry}
    (hmoves : Moves x c ((s.rows k).get? entry.storeKey) entry) :
    RowsStep s.rows (s.putRow k entry).rows := by
  intro k' key
  rw [Memory.putRow_rows]
  by_cases hk : k' = k
  · subst hk
    rw [Function.update_self, Table.get?_put]
    -- the row that is written moves on, the others stay
    by_cases hkey : entry.storeKey = key
    · subst hkey
      rw [if_pos rfl]
      generalize (s.rows k').get? entry.storeKey = found at hmoves
      cases found with
      | some old => exact .moved hmoves.evolves.1 hmoves.evolves.2
      | none =>
          cases hmoves with
          | registered hprepare =>
              rcases prepare_ok hprepare with ⟨subjectId, version, rfl⟩
              exact .registered rfl
    · rw [if_neg hkey]
      exact .same
  · rw [Function.update_of_ne hk]
    exact .same

/-- While the dict is that of the rows, what is stored over the one is stored over
the other. -/
theorem Stores.rowsStep {entry : RegistryEntry} (h : Stores x c s entry)
    (hview : view x s c.registry = s.entries c.registry) :
    RowsStep s.rows (s.putRow (x.registry c.registry).store entry).rows := by
  apply rowsStep_putRow (x := x) (c := c)
  rw [← view_get? x s c.registry h.subjectType, hview]
  exact h.moves

variable [DecidableEq ι]

/-- What one turn of a call does to the rows, while they are in step with the cache. -/
theorem Synced.rows_effect {w : RegistryWorld ι κ} (h : Synced x w pool)
    (hi : pool i = some (c, st)) (heffect : Effect x c w.shared st s' st') :
    RowsStep w.shared.rows s'.rows := by
  cases heffect with
  | idle hentries hrows _ _ =>
      rw [hrows]
      exact .refl _
  | saved hstores hentries hrows =>
      rw [hrows]
      exact hstores.rowsStep (h.quiet_of_held hi rfl (by simp))
  | committed hstores hentries hrows =>
      rw [hrows]
      exact hstores.rowsStep (h.quiet_of_held hi rfl (by simp))
  | closed hstores hentries hrows =>
      rw [hrows]
      exact .refl _

/-- One step of a process. -/
theorem rows_step {t : RegistrySys ι κ} (h : (staging x).Staged (Synced x) t)
    (step : RegistryStep ι) :
    RowsStep t.shared.rows (next (Call.prog x) t step).shared.rows := by
  rcases h with ⟨pool, hpool, hsynced⟩
  rcases hpool.next (staging_follows x) step with ⟨pool', -, hmoved⟩
  generalize (next (Call.prog x) t step).toWorld = w at hmoved
  cases hmoved with
  | idle => exact .refl _
  | start hi hbegins => cases hbegins <;> exact .refl _
  | turn hj hnow hturn => exact hsynced.rows_effect hj (hsynced.effect hj hturn)

/-! ## What is stored lasts -/

/-- The entry is persisted, as it is or evolved. -/
def OnFile (x : Registries ι κ) (rows : κ → Table RegistryEntry.storeKey) (i : ι)
    (entry : RegistryEntry) : Prop :=
  entry.subjectType = (x.registry i).subjectType ∧
    ∃ row, (rows (x.registry i).store).get? entry.storeKey = some row ∧ entry.Evolves row

omit [DecidableEq ι] [DecidableEq κ] in
/-- A version on file stays on file. -/
theorem OnFile.evolve {rows rows' : κ → Table RegistryEntry.storeKey} {j : ι}
    {entry : RegistryEntry} (h : OnFile x rows j entry) (hrows : RowsEvolve rows rows') :
    OnFile x rows' j entry := by
  rcases h with ⟨htype, row, hrow, hevolves⟩
  rcases hrows _ _ row hrow with ⟨row', hrow', hevolves'⟩
  exact ⟨htype, row', hrow', hevolves.trans hevolves'⟩

/-- The entry that a call has stored, or found. -/
def Stage.entry? : Stage → Option RegistryEntry
  | .closing _ entry | .recording _ entry | .recorded _ entry => some entry
  | .returned found => found
  | _ => none

/-- What the calls have stored or found is persisted. -/
def Lasting (x : Registries ι κ) (w : RegistryWorld ι κ) (pool : RegistryPool ι) : Prop :=
  ∀ j c st, pool j = some (c, st) → ∀ entry ∈ st.entry?,
    OnFile x w.shared.rows c.registry entry

omit [DecidableEq ι] in
/-- A version that was saved is on file. -/
theorem onFile_putRow {entry : RegistryEntry} (h : Stores x c s entry) :
    OnFile x (s.putRow (x.registry c.registry).store entry).rows c.registry entry :=
  ⟨h.subjectType, entry, putRow_get? .., .refl entry⟩

omit [DecidableEq ι] [DecidableEq κ] in
/-- A version that is found in the dict while the lock is free is persisted. -/
theorem Synced.onFile_found {w : RegistryWorld ι κ} (h : Synced x w pool)
    (hfree : w.shared.locked c.registry = false) {key : RegistryKey} {entry : RegistryEntry}
    (hfound : (w.shared.entries c.registry).get? key = some entry) :
    OnFile x w.shared.rows c.registry entry := by
  have htype := (h.inStep c.registry).typed entry (Table.mem_of_get? hfound)
  have hview : view x w.shared c.registry = w.shared.entries c.registry := by
    apply (h.inStep c.registry).quiet
    intro j d u e hj hregistry
    -- a call that closes its session holds the lock
    have hlocked := h.exclusive.locked j d _ d.registry hj rfl
    rw [hregistry, hfree] at hlocked
    cases hlocked
  refine ⟨htype, entry, ?_, .refl entry⟩
  have hkey : entry.key = key := Table.key_of_get? hfound
  rw [← view_get? x w.shared c.registry htype, hview, hkey]
  exact hfound

/-- What a call has stored or found after a turn is on file. -/
theorem Synced.lasting_turn {w : RegistryWorld ι κ} (h : Synced x w pool)
    (hlasting : Lasting x w pool) (hi : pool i = some (c, st))
    (hturn : Turn x c.registry w.shared st y s' st')
    (hfree : ∀ l, y.1 = .acquire l → w.shared.locked l = false) :
    ∀ entry ∈ st'.entry?, OnFile x s'.rows c.registry entry := by
  have hfits := h.fits i c st hi
  have hstep := h.inStep c.registry
  have heffect := h.effect hi hturn
  -- what was on file before the turn is on file after it
  have hold : ∀ entry ∈ st.entry?, OnFile x s'.rows c.registry entry :=
    fun entry hentry => (hlasting i c st hi entry hentry).evolve (h.rows_effect hi heffect).evolve
  intro entry hentry
  cases hturn with
  | found hdecide =>
      cases hentry
      cases Call.opens hfits with
      | register hprepare =>
          apply OnFile.evolve (h.onFile_found (hfree _ rfl) (decideRegister_found hdecide).1)
          exact .refl _
      | _ => exact (decideTransition_ne_found hdecide).elim
  | stores hdecide =>
      unfold entering at hentry
      split at hentry <;> cases hentry
  | saved =>
      cases hentry
      exact onFile_putRow (hstep.stores hfits.1 hfits.2).1
  | inserted hrow =>
      cases hentry
      exact onFile_putRow (hstep.stores hfits.1 hfits.2.1).1
  | updated hrow =>
      cases hentry
      cases heffect with
      | idle _ _ _ h' => exact absurd rfl (h' _ _)
      | committed hstores hentries hrows =>
          rw [hrows]
          exact onFile_putRow hstores
  | closed => exact hold entry hentry
  | recorded => exact hold entry hentry
  | _ => cases hentry

/-- The turns keep what is stored on file. -/
theorem lasting_keeps (hsep : Separate x) :
    (staging x).Keeps Orderly fun w pool => Synced x w pool ∧ Lasting x w pool where
  start := by
    intro t pool i c s' st hpool h hP hi hbegins
    refine ⟨(synced_keeps hsep).start t pool i c s' st hpool h.1 hP hi hbegins, ?_⟩
    -- a call that starts writes nothing
    have hs : s' = t.shared := by
      cases hbegins <;> rfl
    subst hs
    intro j d u hj
    rcases Pool.put_eq_some.1 hj with ⟨rfl, rfl, rfl⟩ | ⟨hne, hj⟩
    · intro entry hentry
      cases hbegins <;> cases hentry
    · exact h.2 j d u hj
  turn := by
    intro t pool i reply c st q k a s' st' hpool h hP hi hnow hreply hturn
    refine ⟨(synced_keeps hsep).turn t pool i reply c st q k a s' st' hpool h.1 hP hi hnow hreply
      hturn, ?_⟩
    have hrows := (h.1.rows_effect hi (h.1.effect hi hturn)).evolve
    intro j d u hj
    rcases Pool.put_eq_some.1 hj with ⟨rfl, rfl, rfl⟩ | ⟨hne, hj⟩
    · exact h.1.lasting_turn h.2 hi hturn fun l => hP.granted.free hpool hi hnow
    · exact fun entry hentry => (h.2 j d u hj entry hentry).evolve hrows

/-! ## One process -/

omit [DecidableEq ι] [DecidableEq κ] in
/-- A process that hydrates its registries is in step with its rows. -/
theorem synced_hydrated (x : Registries ι κ) (rows : κ → Table RegistryEntry.storeKey) :
    Synced x (⟨hydrated x rows, []⟩ : RegistryWorld ι κ) fun _ => none where
  exclusive := exclusive_empty
  lone := by
    intro i j c d st u hi
    cases hi
  fits := by
    intro i c st hi
    cases hi
  inStep := by
    intro i
    -- the cache was loaded from the rows of its own type
    refine ⟨?_, fun _ => rfl, ?_⟩
    · intro e he
      have hload := (List.mem_filter.1 (Table.mem_of_ofList he)).2
      simpa using hload
    · intro j c u entry hj
      cases hj

variable {rows : κ → Table RegistryEntry.storeKey} {xs : List (RegistryStep ι)}

/-- Every entry a call may still return is on file, in every state of a life. -/
theorem lasting_sharing (hsep : Separate x)
    (h : Along (Call.prog x) Orderly (init (hydrated x rows)) xs) :
    (staging x).Staged (fun w pool => Synced x w pool ∧ Lasting x w pool) (sharing x rows xs) := by
  apply (lasting_keeps hsep).run_inv (staging_follows x) _ xs h
  refine ⟨fun _ => none, Staging.describes_init _, synced_hydrated x rows, ?_⟩
  intro j c st hj
  cases hj

/-- Cache and rows are in step in every state of a life. -/
theorem synced_sharing (hsep : Separate x)
    (h : Along (Call.prog x) Orderly (init (hydrated x rows)) xs) :
    (staging x).Staged (Synced x) (sharing x rows xs) := by
  rcases lasting_sharing hsep h with ⟨pool, hpool, hsynced, -⟩
  exact ⟨pool, hpool, hsynced⟩

/-- Over a whole life the rows evolve. -/
theorem rows_sharing (hsep : Separate x)
    (h : Along (Call.prog x) Orderly (init (hydrated x rows)) xs) :
    RowsEvolve rows (sharing x rows xs).shared.rows := by
  induction xs using List.reverseRecOn with
  | nil => exact .refl _
  | append_singleton xs step ih =>
      have hpre := Along.of_append h
      have hnext : sharing x rows (xs ++ [step]) =
          next (Call.prog x) (sharing x rows xs) step := run_snoc ..
      rw [hnext]
      exact (ih hpre).trans (rows_step (synced_sharing hsep hpre) step).evolve

/-- What a call of the process has returned is on file. -/
theorem onFile_returned (hsep : Separate x)
    (h : Along (Call.prog x) Orderly (init (hydrated x rows)) xs) {j : ℕ}
    {th : Thread (Call ι) (Memory ι κ) (Question ι) Answer RegistryError (Option RegistryEntry)}
    {entry : RegistryEntry} (hth : (sharing x rows xs).threads j = some th)
    (hstop : th.now.stop = .returned (some entry)) :
    OnFile x (sharing x rows xs).shared.rows th.call.registry entry := by
  rcases lasting_sharing hsep h with ⟨pool, hpool, -, hlasting⟩
  rcases hpool.stage hth with ⟨st, hj, hnow⟩
  rw [hnow] at hstop
  apply hlasting j _ st hj
  -- a call that has returned stands behind its save
  cases st with
  | recorded u stored =>
      cases hstop
      rfl
  | returned found =>
      cases hstop
      rfl
  | _ => cases hstop

end Rows

/-! ## One process after the other -/

section Lives

variable {ι κ : Type} [DecidableEq ι] [DecidableEq κ] (x : Registries ι κ)

/-- A life of the process: the steps until it stops. -/
abbrev Life (ι : Type) := List (RegistryStep ι)

/-- The rows that a process finds at its start: what is kept in memory is lost. -/
def kept (rows : κ → Table RegistryEntry.storeKey) : κ → Table RegistryEntry.storeKey :=
  fun k => match x.store k with
    | .sql => rows k
    | .inMemory => .empty

/-- A process that starts over the rows, and is stopped after the steps `xs`. -/
def lived (rows : κ → Table RegistryEntry.storeKey) (xs : Life ι) : RegistrySys ι κ :=
  sharing x (kept x rows) xs

/-- The rows after some processes. -/
def rowsAfter (rows : κ → Table RegistryEntry.storeKey) (lives : List (Life ι)) :
    κ → Table RegistryEntry.storeKey :=
  lives.foldl (fun rows xs => (lived x rows xs).shared.rows) rows

/-- The steps of every process are those that its locks and hydrations allow. -/
def OrderlyLives (rows : κ → Table RegistryEntry.storeKey) : List (Life ι) → Prop
  | [] => True
  | xs :: lives => Along (Call.prog x) Orderly (init (hydrated x (kept x rows))) xs ∧
      OrderlyLives (lived x rows xs).shared.rows lives

variable {x} {rows : κ → Table RegistryEntry.storeKey}

omit [DecidableEq ι] [DecidableEq κ] in
/-- The rows of a database survive the process. -/
theorem kept_of_sql {k : κ} (h : x.store k = .sql) : kept x rows k = rows k := by
  simp only [kept, h]

/-- Lives follow each other. -/
theorem rowsAfter_append (pre post : List (Life ι)) :
    rowsAfter x rows (pre ++ post) = rowsAfter x (rowsAfter x rows pre) post :=
  List.foldl_append

/-- So do lives that are orderly. -/
theorem orderlyLives_append {pre post : List (Life ι)} :
    OrderlyLives x rows (pre ++ post) ↔
      OrderlyLives x rows pre ∧ OrderlyLives x (rowsAfter x rows pre) post := by
  induction pre generalizing rows with
  | nil => exact (iff_of_eq (true_and _)).symm
  | cons xs pre ih => exact (and_congr_right' ih).trans and_assoc.symm

/-- The versions of a database survive the processes. -/
theorem evolve_rowsAfter (hsep : Separate x) {lives : List (Life ι)}
    (h : OrderlyLives x rows lives) {k : κ} (hk : x.store k = .sql) {key : StoreKey}
    {row : RegistryEntry} (hrow : (rows k).get? key = some row) :
    ∃ row', (rowsAfter x rows lives k).get? key = some row' ∧ row.Evolves row' := by
  induction lives generalizing rows row with
  | nil => exact ⟨row, hrow, .refl row⟩
  | cons xs lives ih =>
      have hkept : (kept x rows k).get? key = some row := by rw [kept_of_sql hk, hrow]
      rcases rows_sharing hsep h.1 k key row hkept with ⟨row', hrow', hevolves⟩
      rcases ih h.2 hrow' with ⟨row'', hrow'', hevolves'⟩
      exact ⟨row'', hrow'', hevolves.trans hevolves'⟩

/-- The law of the versions over all processes. -/
structure Durable (x : Registries ι κ) (rows : κ → Table RegistryEntry.storeKey)
    (lives : List (Life ι)) : Prop where
  /-- Whichever step of whichever process: a version stays, or makes one step. -/
  stepwise : ∀ pre xs step rest post, lives = pre ++ (xs ++ step :: rest) :: post →
    RowsStep (lived x (rowsAfter x rows pre) xs).shared.rows
      (lived x (rowsAfter x rows pre) (xs ++ [step])).shared.rows
  /-- What a call of a process has returned is what every later process finds, or
  what was made of it since. -/
  returned : ∀ pre xs post, lives = pre ++ xs :: post → ∀ j th entry,
    (lived x (rowsAfter x rows pre) xs).threads j = some th →
    th.now.stop = .returned (some entry) →
    x.store (x.registry th.call.registry).store = .sql →
    ∃ entry', ((hydrated x (kept x (rowsAfter x rows lives))).entries th.call.registry).get?
      entry.key = some entry' ∧ entry.Evolves entry'

/-- However many lives there were, and wherever they stopped, what a call returned is found later.
-/
theorem lives_durable (hsep : Separate x) {lives : List (Life ι)}
    (h : OrderlyLives x rows lives) : Durable x rows lives where
  stepwise := by
    rintro pre xs step rest post rfl
    have hlife := (orderlyLives_append.1 h).2.1
    have hpre := Along.of_append hlife
    have hnext : lived x (rowsAfter x rows pre) (xs ++ [step]) =
        next (Call.prog x) (lived x (rowsAfter x rows pre) xs) step := run_snoc ..
    rw [hnext]
    exact rows_step (synced_sharing hsep hpre) step
  returned := by
    rintro pre xs post rfl j th entry hth hstop hkind
    have hlives := (orderlyLives_append.1 h).2
    rcases onFile_returned hsep hlives.1 hth hstop with ⟨htype, row, hrow, hevolves⟩
    rcases evolve_rowsAfter hsep hlives.2 hkind hrow with ⟨row', hrow', hevolves'⟩
    refine ⟨row', ?_, hevolves.trans hevolves'⟩
    -- the next process hydrates the row
    refine (view_get? x _ th.call.registry htype).trans ?_
    rw [rowsAfter_append]
    exact (congrArg (fun rows => Table.get? rows entry.storeKey) (kept_of_sql hkind)).trans hrow'

end Lives

/-! ## A process that is stopped before it has answered -/

/-- Skills alone, in a database. -/
def stored : Registries Unit Unit := { atomicity with store := fun _ => .sql }

/-- The key of the version that the two lives are about. -/
def skillKey : RegistryKey :=
  ⟨"tenant_atomicity", "workspace_atomicity", "skill.registry.atomicity", "1.0.0"⟩

/-- The process is stopped after the commit of the approval. -/
def stopped : Life Unit :=
  [.call 0 registerSkill] ++ List.replicate 5 (.resume 0 (answering .returned)) ++
    [.call 1 (.approve () skillKey "actor_it" "decision_atomicity" "IT" "corr_atomicity")] ++
    List.replicate 3 (.resume 1 (answering .returned))

/-- The next process activates what it found approved. -/
def restarted : Life Unit :=
  [.call 0 (.activate () skillKey "actor_it" "release_atomicity" "corr_atomicity")] ++
    List.replicate 5 (.resume 0 (answering .returned))

/-- Without a hydration, lawful locks are all that orderliness asks for. -/
theorem orderly_of_granted {rows : Unit → Table RegistryEntry.storeKey} {xs : Life Unit}
    (hgranted : Along (Call.prog stored) (locks Unit Unit).Granted (init (hydrated stored rows)) xs)
    (hydrates : ∀ j i, .call j (.hydrate i) ∉ xs) :
    Along (Call.prog stored) Orderly (init (hydrated stored rows)) xs := by
  intro pre step post hxs
  exact ⟨hgranted pre step post hxs, hydratesAlone_of_none hydrates pre step post hxs⟩

/-- A process that stops after an approval, and one that activates what it has found. -/
theorem lives_durable_restarted : Durable stored (fun _ => .empty) [stopped, restarted] := by
  apply lives_durable
  · exact fun _ _ _ _ => rfl
  · refine ⟨orderly_of_granted ?_ ?_, orderly_of_granted ?_ ?_, trivial⟩
    · decide +kernel
    · simp [stopped, registerSkill, registerNamedSkill]
    · decide +kernel
    · simp [restarted]

end Alos.Registry
