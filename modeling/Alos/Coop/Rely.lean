import Alos.Coop.System

/-! # Rely-guarantee reasoning

A `Contract` says what every thread may rely on between its own segments. A
procedure is `Safe` when each of its segments, run from a world that meets the
invariant, re-establishes the invariant and is a step the others can rely on;
at an await it must reckon with every world that the rely relation reaches.

* `Proc.safe_iff_advance` checks a procedure one segment at a time;
* `Contract.run_inv` is the rule: safe calls keep the invariant in every run.
-/

namespace Coop

variable {σ Q : Type} {A : Q → Type} {ε α : Type} {C : Type}

/-- What a system promises. `Ok` restricts the steps that are considered at
all; `Rely` relates a world to the worlds that later segments, of whatever
thread, may turn it into. -/
structure Contract (C σ Q : Type) (A : Q → Type) (ε α : Type) where
  Inv : World C σ Q A ε α → Prop
  Rely : World C σ Q A ε α → World C σ Q A ε α → Prop
  Ok : World C σ Q A ε α → Label C Q A ε α → Prop := fun _ _ => True
  refl : ∀ w, Rely w w
  trans : ∀ {w₁ w₂ w₃}, Rely w₁ w₂ → Rely w₂ w₃ → Rely w₁ w₃

namespace Contract

variable (K : Contract C σ Q A ε α)

/-- A segment that leaves `s` and the label `l` keeps the contract. -/
def Lands (w : World C σ Q A ε α) (s : σ) (l : Label C Q A ε α) : Prop :=
  K.Rely w (w.push s l) ∧ K.Inv (w.push s l)

/-- `w'` is a world in which a call suspended in `w` may be resumed. -/
structure Later (i : ℕ) (w w' : World C σ Q A ε α) : Prop where
  inv : K.Inv w'
  rely : K.Rely w w'
  own_eq : own i w'.trace = own i w.trace

variable {K}

theorem Later.trans {i : ℕ} {w₁ w₂ w₃ : World C σ Q A ε α} (h₁₂ : K.Later i w₁ w₂)
    (h₂₃ : K.Later i w₂ w₃) : K.Later i w₁ w₃ where
  inv := h₂₃.inv
  rely := K.trans h₁₂.rely h₂₃.rely
  own_eq := h₂₃.own_eq.trans h₁₂.own_eq

end Contract

/-! ## Safe procedures -/

/-- Thread `i`, running `p` for the call `c` from the shared state `s` since
the input `x` arrived in the world `w`, keeps the contract to its end. -/
def Proc.Safe (K : Contract C σ Q A ε α) (i : ℕ) (c : C) :
    Proc σ Q A ε α → Input Q A → World C σ Q A ε α → σ → Prop
  | .ret a, x, w, s => K.Ok w ⟨i, c, x, .returned a⟩ → K.Lands w s ⟨i, c, x, .returned a⟩
  | .raise e, x, w, s => K.Ok w ⟨i, c, x, .raised e⟩ → K.Lands w s ⟨i, c, x, .raised e⟩
  | .read k, x, w, s => (k s).Safe K i c x w s
  | .write s p, x, w, _ => p.Safe K i c x w s
  | .await q k, x, w, s => K.Ok w ⟨i, c, x, .awaiting q⟩ →
      K.Lands w s ⟨i, c, x, .awaiting q⟩ ∧
        ∀ a w', K.Later i (w.push s ⟨i, c, x, .awaiting q⟩) w' →
          (k a).Safe K i c (.answer ⟨q, a⟩) w' w'.shared

/-- The answer to the question at which a segment stopped may arrive in any
later world. -/
def Yield.Safe (K : Contract C σ Q A ε α) (i : ℕ) (c : C) (w : World C σ Q A ε α) :
    Yield σ Q A ε α → Prop
  | .returned _ => True
  | .raised _ => True
  | .awaiting q k => ∀ a w', K.Later i w w' → (k a).Safe K i c (.answer ⟨q, a⟩) w' w'.shared

variable {K : Contract C σ Q A ε α}

theorem Yield.Safe.later {i : ℕ} {c : C} {w w' : World C σ Q A ε α} {y : Yield σ Q A ε α}
    (h : y.Safe K i c w) (hw : K.Later i w w') : y.Safe K i c w' := by
  cases y with
  | returned a => trivial
  | raised e => trivial
  | awaiting q k =>
      intro a w'' hlater
      exact h a w'' (hw.trans hlater)

/-- Safety, one segment at a time. -/
theorem Proc.safe_iff_advance {i : ℕ} {c : C} (p : Proc σ Q A ε α) {x : Input Q A}
    {w : World C σ Q A ε α} {s : σ} :
    p.Safe K i c x w s ↔
      (K.Ok w ⟨i, c, x, (p.advance s).2.stop⟩ →
        K.Lands w (p.advance s).1 ⟨i, c, x, (p.advance s).2.stop⟩ ∧
        (p.advance s).2.Safe K i c (w.push (p.advance s).1 ⟨i, c, x, (p.advance s).2.stop⟩)) := by
  induction p generalizing s with
  | ret a => simp [Proc.Safe, Yield.Safe, Yield.stop]
  | raise e => simp [Proc.Safe, Yield.Safe, Yield.stop]
  | read k ih => exact ih s
  | write s' p ih => exact ih
  | await q k _ => simp [Proc.Safe, Yield.Safe, Yield.stop]

/-! ## Safe systems -/

namespace Contract

variable (K) (prog : C → Proc σ Q A ε α)

/-- Every call is safe from the world in which it starts. -/
def Keeps : Prop :=
  ∀ i c w, K.Inv w → own i w.trace = [] → (prog c).Safe K i c .start w w.shared

/-- The steps of the schedule are among those the contract considers. -/
def Allowed (s : Sys C σ Q A ε α) (xs : List (Step C Q A)) : Prop :=
  Along prog (fun t x => ∀ f, fire prog t x = some f → K.Ok t.toWorld f.label) s xs

/-- The invariant of a whole system: every thread in the pool is safe, and
only those have run. -/
structure SysInv (s : Sys C σ Q A ε α) : Prop where
  inv : K.Inv s.toWorld
  safe : ∀ i th, s.threads i = some th → th.now.Safe K i th.call s.toWorld
  fresh : ∀ i, s.threads i = none → own i s.trace = []

variable {K prog}

theorem SysInv.land {s : Sys C σ Q A ε α} {x : Step C Q A} {f : Firing C σ Q A ε α}
    (hK : K.Keeps prog) (h : K.SysInv s) (hok : K.Ok s.toWorld f.label)
    (hf : fire prog s x = some f) : K.SysInv (s.land f) := by
  obtain ⟨i, c, input, s', y⟩ := f
  have hrun : K.Lands s.toWorld s' ⟨i, c, input, y.stop⟩ ∧
      y.Safe K i c (s.toWorld.push s' ⟨i, c, input, y.stop⟩) := by
    rcases fire_cases hf with ⟨hnone, rfl, hland⟩ | ⟨q, k, a, hsome, rfl, hland⟩
    · -- the call starts
      have hsafe := (Proc.safe_iff_advance _).1 (hK i c s.toWorld h.inv (h.fresh i hnone))
      simp only at hland
      rw [← hland] at hsafe
      exact hsafe hok
    · -- an answer arrives
      have hsafe := h.safe i _ hsome a s.toWorld ⟨h.inv, K.refl _, rfl⟩
      simp only at hland
      rw [Proc.safe_iff_advance, ← hland] at hsafe
      exact hsafe hok
  refine ⟨hrun.1.2, ?_, ?_⟩
  · intro j th hth
    by_cases hj : j = i
    · subst hj
      simp only [Sys.land, Function.update_self, Option.some.injEq] at hth
      subst hth
      exact hrun.2
    · simp only [Sys.land, Function.update_of_ne hj] at hth
      refine (h.safe j th hth).later ⟨hrun.1.2, hrun.1.1, ?_⟩
      exact own_append_ne _ (Ne.symm hj)
  · intro j hj
    by_cases hji : j = i
    · subst hji
      simp [Sys.land] at hj
    · simp only [Sys.land, Function.update_of_ne hji] at hj
      exact (own_append_ne _ (Ne.symm hji)).trans (h.fresh j hj)

/-- The rule: if every call is safe, every run whose steps are considered
keeps the invariant. -/
theorem run_inv (hK : K.Keeps prog) {s : σ} (hinit : K.Inv ⟨s, []⟩) (xs : List (Step C Q A))
    (hok : K.Allowed prog (init s) xs) : K.Inv (run prog (init s) xs).toWorld := by
  have hsys : K.SysInv (run prog (init s) xs) := by
    apply run_invariant _ _ xs hok
    · exact ⟨hinit, fun i th hth => by simp [init] at hth, fun i _ => rfl⟩
    · intro t x f ht hP hf
      exact ht.land hK (hP f hf) hf
  exact hsys.inv

end Contract

end Coop
