import Alos.Coop.Delegation
import Alos.Registry.Restart

/-! # Registries that are only added to

Runs in which nothing but `register` is called, from registries that have been
hydrated.

* `Table.Grows`: tables that keep what they hold;
* `Synced.adds`: a turn of a registration leaves the dicts and the rows alone, or
  adds a draft under a new key;
* `adds_run` is the law of a run: nothing of what there was is changed or lost, and
  what is new is what a call has registered.
-/

namespace Py

/-- The tables keep all that they hold; what is new of the table `i` meets `New i`. -/
structure Table.Grows {ι α κ : Type} [DecidableEq κ] {key : α → κ} (New : ι → α → Prop)
    (T T' : ι → Table key) : Prop where
  kept : ∀ i k a, (T i).get? k = some a → (T' i).get? k = some a
  added : ∀ i, ∀ a ∈ (T' i).values, a ∈ (T i).values ∨ New i a

section Grows

variable {ι α κ : Type} [DecidableEq κ] {key : α → κ} {New : ι → α → Prop}
  {T T' T'' : ι → Table key}

theorem Table.Grows.refl (T : ι → Table key) : Table.Grows New T T where
  kept := fun _ _ _ h => h
  added := fun _ _ h => .inl h

theorem Table.Grows.trans (h : Table.Grows New T T') (h' : Table.Grows New T' T'') :
    Table.Grows New T T'' where
  kept := fun i k a ha => h'.kept i k a (h.kept i k a ha)
  added := by
    intro i a ha
    rcases h'.added i a ha with hold | hnew
    · exact h.added i a hold
    · exact .inr hnew

/-- What is put under a free key is added. -/
theorem Table.Grows.put [DecidableEq ι] {i : ι} {a : α} (hfree : (T i).get? (key a) = none)
    (hnew : New i a) : Table.Grows New T (Function.update T i ((T i).put a)) where
  kept := by
    intro j k b hb
    -- the table that is written to, then all the others
    by_cases hj : j = i
    · subst hj
      rw [Function.update_self]
      exact Table.get?_put_of_none hfree hb
    · rw [Function.update_of_ne hj, hb]
  added := by
    intro j b hb
    by_cases hj : j = i
    · subst hj
      rw [Function.update_self] at hb
      rcases Table.mem_put.1 hb with rfl | ⟨hb, -⟩
      · exact .inr hnew
      · exact .inl hb
    · rw [Function.update_of_ne hj] at hb
      exact .inl hb

end Grows

end Py

namespace Alos.Registry

open Coop Py

section Drafting

variable {ι κ : Type} (x : Registries ι κ) (P : Call ι → Prop)

/-- The call is a registration. -/
def Call.Registers : Call ι → Prop
  | .register .. => True
  | _ => False

/-- From `s` to `s'` nothing has happened to what there was, and what is new has
been registered by calls that meet `P`. -/
structure Adds (s s' : Memory ι κ) : Prop where
  entries : Table.Grows (fun i entry => ∃ c, P c ∧ c.registry = i ∧ Moves x c none entry)
    s.entries s'.entries
  rows : Table.Grows
    (fun k row => ∃ c, P c ∧ (x.registry c.registry).store = k ∧ Moves x c none row) s.rows s'.rows

variable {x P} {c : Call ι} {s s' s'' : Memory ι κ} {st st' : Stage} {pool : RegistryPool ι}
  {i : ℕ}

theorem Adds.refl (s : Memory ι κ) : Adds x P s s := ⟨.refl _, .refl _⟩

theorem Adds.trans (h : Adds x P s s') (h' : Adds x P s' s'') : Adds x P s s'' :=
  ⟨h.entries.trans h'.entries, h.rows.trans h'.rows⟩

theorem Adds.of_same (hentries : s'.entries = s.entries) (hrows : s'.rows = s.rows) :
    Adds x P s s' where
  entries := by
    rw [hentries]
    exact .refl _
  rows := by
    rw [hrows]
    exact .refl _

/-- A registration stores under a free key. -/
theorem Moves.free {found : Option RegistryEntry} {entry : RegistryEntry}
    (h : Moves x c found entry) (hc : c.Registers) : found = none := by
  cases h with
  | registered => rfl
  | approved => exact hc.elim
  | activated => exact hc.elim
  | suspended => exact hc.elim

variable [DecidableEq ι] [DecidableEq κ]

omit [DecidableEq κ] in
theorem Stores.grows {entry : RegistryEntry} (h : Stores x c s entry) (hP : P c) (hc : c.Registers) :
    Table.Grows (fun i entry => ∃ c, P c ∧ c.registry = i ∧ Moves x c none entry)
      s.entries (s.putEntry c.registry entry).entries := by
  have hmoves := h.moves
  have hfree := hmoves.free hc
  rw [hfree] at hmoves
  exact .put hfree ⟨c, hP, rfl, hmoves⟩

omit [DecidableEq ι] in
/-- So it is of the rows, while the dict is that of the rows. -/
theorem Stores.rowsGrow {entry : RegistryEntry} (h : Stores x c s entry) (hP : P c)
    (hc : c.Registers) (hview : view x s c.registry = s.entries c.registry) :
    Table.Grows (fun k row => ∃ c, P c ∧ (x.registry c.registry).store = k ∧ Moves x c none row)
      s.rows (s.putRow (x.registry c.registry).store entry).rows := by
  have hmoves := h.moves
  have hfree := hmoves.free hc
  rw [hfree] at hmoves
  refine .put ?_ ⟨c, hP, rfl, hmoves⟩
  rw [← view_get? x s c.registry h.subjectType, hview, hfree]

/-- One turn of a registration. -/
theorem Synced.adds {w : RegistryWorld ι κ} (h : Synced x w pool) (hi : pool i = some (c, st))
    (heffect : Effect x c w.shared st s' st') (hP : P c) (hc : c.Registers) :
    Adds x P w.shared s' := by
  cases heffect with
  | idle hentries hrows _ _ => exact .of_same hentries hrows
  | saved hstores hentries hrows =>
      -- the lock is held, so the cache is the view of the rows
      have hview := h.quiet_of_held hi rfl (by simp)
      constructor
      · rw [hentries]
        exact hstores.grows hP hc
      · rw [hrows]
        exact hstores.rowsGrow hP hc hview
  | committed hstores hentries hrows =>
      have hview := h.quiet_of_held hi rfl (by simp)
      constructor
      · rw [hentries]
        exact .refl _
      · rw [hrows]
        exact hstores.rowsGrow hP hc hview
  | closed hstores hentries hrows =>
      constructor
      · rw [hentries]
        exact hstores.grows hP hc
      · rw [hrows]
        exact .refl _

/-! ## Runs of registrations -/

omit [DecidableEq κ] in
/-- A lock is handed over while it is free. -/
def Available (s : Memory ι κ) (q : Question ι) : Prop := ∀ l, q = .acquire l → s.locked l = false

variable {rows : κ → Table RegistryEntry.storeKey} {xs : List (RegistryStep ι)}

theorem meets_of_mem {t : RegistrySys ι κ}
    (h : Along (Call.prog x) (Admits P Available) t xs) {j : ℕ} (hc : .call j c ∈ xs) : P c := by
  rcases List.append_of_mem hc with ⟨pre, post, hxs⟩
  exact h pre _ post hxs

/-- Registrations that take free locks only are orderly. -/
theorem orderly_registrations (hP : ∀ c, P c → c.Registers) {s : Memory ι κ}
    (h : Along (Call.prog x) (Admits P Available) (init s) xs) :
    Along (Call.prog x) Orderly (init s) xs := by
  intro pre step post hxs
  have hstep := h pre step post hxs
  constructor
  · cases step with
    | call j d => trivial
    | resume j reply =>
        intro th hth l hl
        exact hstep th hth _ hl l rfl
  · cases step with
    | resume j reply => trivial
    | call j d =>
        have hd := hP d hstep
        cases d with
        | register i =>
            -- no call is a hydration
            intro j' th hth hcall
            have hstarted := (run_started (Call.prog x) s pre).threads j' th hth
            have hmem : .call j' th.call ∈ xs := by
              rw [hxs]
              exact List.mem_append_left _ hstarted
            have hregisters := hP _ (meets_of_mem h hmem)
            rw [hcall] at hregisters
            exact hregisters.elim
        | _ => exact hd.elim

theorem adds_run (hsep : Separate x) (hP : ∀ c, P c → c.Registers)
    (h : Along (Call.prog x) (Admits P Available) (init (hydrated x rows)) xs) :
    Adds x P (hydrated x rows) (sharing x rows xs).shared := by
  -- on the run: each step adds what its own call makes
  induction xs using List.reverseRecOn with
  | nil => exact .refl _
  | append_singleton xs step ih =>
      have hpre := h.of_append
      refine (ih hpre).trans ?_
      have hnext : sharing x rows (xs ++ [step]) =
          next (Call.prog x) (sharing x rows xs) step := run_snoc ..
      rw [hnext]
      rcases synced_sharing hsep (orderly_registrations hP hpre) with ⟨pool, hpool, hsynced⟩
      rcases hpool.next (staging_follows x) step with ⟨pool', -, hmoved⟩
      generalize (next (Call.prog x) (sharing x rows xs) step).toWorld = w at hmoved
      cases hmoved with
      | idle => exact .refl _
      | start hi hbegins => cases hbegins <;> exact .refl _
      | turn hj hnow hturn =>
          have hstarted := (run_started (Call.prog x) (hydrated x rows) xs).threads _ _
            (hpool.thread_some hj)
          have hPc := meets_of_mem hpre hstarted
          exact hsynced.adds hj (hsynced.effect hj hturn) hPc (hP _ hPc)

end Drafting

end Alos.Registry
