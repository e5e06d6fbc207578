import Alos.Coop.System

/-! # Procedures as stage machines

The continuation that a suspended call waits with is a function, so an
invariant cannot look into it. A `Staging` gives the places at which a call can
be suspended or finished by names, its stages, and says which stage a segment
leads to (`Begins`, `Turn`).

* `Follows` connects the stages with the procedures: every segment is a turn;
* `Describes` connects a pool of stages with the threads of a system;
* `Keeps` is what has to be checked of the turns, one at a time;
* `histories_keeps` is the rule for what is said of the labels of one call;
* `run_inv` is the rule: an invariant of the stages that every turn keeps holds
  along every run.
-/

namespace Coop

variable {σ Q : Type} {A : Q → Type} {ε α : Type} {C Stage : Type}

/-- The stages of the calls of a system. `now` is where a call at a stage
stands; `Begins c s s' st` and `Turn c s st x s' st'` say what a first segment
and the segment that the exchange `x` lets run can do. -/
structure Staging (C σ Q : Type) (A : Q → Type) (ε α Stage : Type) where
  now : C → Stage → Yield σ Q A ε α
  Begins : C → σ → σ → Stage → Prop
  Turn : C → σ → Stage → Exchange Q A → σ → Stage → Prop

/-- The calls of a system with their stages. -/
abbrev Pool (C Stage : Type) := ℕ → Option (C × Stage)

/-- Call `c`, at the stage `st`, is put at place `i`. -/
def Pool.put (pool : Pool C Stage) (i : ℕ) (c : C) (st : Stage) : Pool C Stage :=
  Function.update pool i (some (c, st))

theorem Pool.put_eq_some {pool : Pool C Stage} {i j : ℕ} {c d : C} {st u : Stage} :
    pool.put i c st j = some (d, u) ↔
      (j = i ∧ d = c ∧ u = st) ∨ (j ≠ i ∧ pool j = some (d, u)) := by
  by_cases hj : j = i
  · subst hj
    simp [put, eq_comm]
  · simp [put, hj]

@[simp] theorem Pool.put_self (pool : Pool C Stage) (i : ℕ) (c : C) (st : Stage) :
    pool.put i c st i = some (c, st) :=
  Function.update_self ..

theorem Pool.put_of_ne (pool : Pool C Stage) {i j : ℕ} (h : j ≠ i) (c : C) (st : Stage) :
    pool.put i c st j = pool j :=
  Function.update_of_ne h ..

namespace Staging

variable (M : Staging C σ Q A ε α Stage)

/-- Every segment of the calls is a turn of the stage machine. -/
structure Follows (prog : C → Proc σ Q A ε α) : Prop where
  begins : ∀ c s, ∃ s' st, M.Begins c s s' st ∧ (prog c).advance s = (s', M.now c st)
  turns : ∀ c st q k, M.now c st = .awaiting q k → ∀ a s,
    ∃ s' st', M.Turn c s st ⟨q, a⟩ s' st' ∧ (k a).advance s = (s', M.now c st')

/-- The threads of `t` are at the stages of the pool. -/
def Describes (t : Sys C σ Q A ε α) (pool : Pool C Stage) : Prop :=
  ∀ i, t.threads i = (pool i).map fun p => ⟨p.1, M.now p.1 p.2⟩

/-- The stages of the calls of `t` meet `Inv`. -/
def Staged (Inv : World C σ Q A ε α → Pool C Stage → Prop) (t : Sys C σ Q A ε α) : Prop :=
  ∃ pool, M.Describes t pool ∧ Inv t.toWorld pool

/-- The label of a segment that ended at the stage `st`. -/
def label (i : ℕ) (c : C) (input : Input Q A) (st : Stage) : Label C Q A ε α :=
  ⟨i, c, input, (M.now c st).stop⟩

/-- Every turn keeps `Inv`, for steps that meet `P`. -/
structure Keeps (P : Sys C σ Q A ε α → Step C Q A → Prop)
    (Inv : World C σ Q A ε α → Pool C Stage → Prop) : Prop where
  start : ∀ t pool i c s' st, M.Describes t pool → Inv t.toWorld pool → P t (.call i c) →
    pool i = none → M.Begins c t.shared s' st →
    Inv (t.toWorld.push s' (M.label i c .start st)) (pool.put i c st)
  turn : ∀ t pool i reply c st q k a s' st', M.Describes t pool → Inv t.toWorld pool →
    P t (.resume i reply) → pool i = some (c, st) → M.now c st = .awaiting q k → reply q = a →
    M.Turn c t.shared st ⟨q, a⟩ s' st' →
    Inv (t.toWorld.push s' (M.label i c (.answer ⟨q, a⟩) st')) (pool.put i c st')

variable {M} {prog : C → Proc σ Q A ε α} {t : Sys C σ Q A ε α} {pool : Pool C Stage}

theorem describes_init (s : σ) : M.Describes (init s) fun _ => none := fun _ => rfl

theorem Describes.thread_none (h : M.Describes t pool) {i : ℕ} :
    t.threads i = none ↔ pool i = none := by
  rw [h i]
  exact Option.map_eq_none_iff

theorem Describes.thread_some (h : M.Describes t pool) {i : ℕ} {c : C} {st : Stage}
    (hi : pool i = some (c, st)) : t.threads i = some ⟨c, M.now c st⟩ := by
  rw [h i, hi]
  rfl

theorem Describes.stage (h : M.Describes t pool) {i : ℕ} {th : Thread C σ Q A ε α}
    (hi : t.threads i = some th) : ∃ st, pool i = some (th.call, st) ∧ th.now = M.now th.call st := by
  rw [h i, Option.map_eq_some_iff] at hi
  rcases hi with ⟨⟨c, st⟩, hpool, rfl⟩
  exact ⟨st, hpool, rfl⟩

/-- A segment that ends at `st` leaves the pool described. -/
theorem Describes.land (h : M.Describes t pool) {f : Firing C σ Q A ε α} {s' : σ} {st : Stage}
    (hf : f.landing = (s', M.now f.call st)) :
    M.Describes (t.land f) (pool.put f.thread f.call st) := by
  intro j
  by_cases hj : j = f.thread
  · subst hj
    simp [Sys.land, hf]
  · rw [Pool.put_of_ne _ hj, ← h j]
    exact Function.update_of_ne hj ..

theorem land_toWorld {f : Firing C σ Q A ε α} {s' : σ} {st : Stage}
    (hf : f.landing = (s', M.now f.call st)) :
    (t.land f).toWorld = t.toWorld.push s' (M.label f.thread f.call f.input st) := by
  simp [Sys.land, Firing.label, label, hf]

/-- The answer to a suspended call arrives. -/
theorem Describes.resume (hM : M.Follows prog) (h : M.Describes t pool) {i : ℕ} {c : C} {st : Stage}
    {q : Q} {k : A q → Proc σ Q A ε α} (hi : pool i = some (c, st))
    (hnow : M.now c st = .awaiting q k) (reply : (q : Q) → A q) :
    ∃ s' st', M.Turn c t.shared st ⟨q, reply q⟩ s' st' ∧
      M.Describes (Coop.next prog t (.resume i reply)) (pool.put i c st') ∧
      (Coop.next prog t (.resume i reply)).toWorld =
        t.toWorld.push s' (M.label i c (.answer ⟨q, reply q⟩) st') := by
  rcases hM.turns c st q k hnow (reply q) t.shared with ⟨s', st', hturn, hadvance⟩
  have hth : t.threads i = some ⟨c, .awaiting q k⟩ := by
    rw [h.thread_some hi, hnow]
  have hnext : Coop.next prog t (.resume i reply) =
      t.land ⟨i, c, .answer ⟨q, reply q⟩, (k (reply q)).advance t.shared⟩ := by
    rw [Coop.next, fire_resume_eq_some.2 ⟨c, q, k, hth, rfl⟩]
  refine ⟨s', st', hturn, ?_, ?_⟩
  · rw [hnext]
    exact h.land hadvance
  · rw [hnext, land_toWorld hadvance]

/-- A segment that runs is the first one of its call, or a turn of it. -/
theorem Describes.fired (hM : M.Follows prog) (h : M.Describes t pool) {x : Step C Q A}
    {f : Firing C σ Q A ε α} (hf : fire prog t x = some f) :
    ∃ s' st', f.landing = (s', M.now f.call st') ∧
      ((x = .call f.thread f.call ∧ f.input = .start ∧ pool f.thread = none ∧
          M.Begins f.call t.shared s' st') ∨
        ∃ reply st q k, x = .resume f.thread reply ∧ f.input = .answer ⟨q, reply q⟩ ∧
          pool f.thread = some (f.call, st) ∧ M.now f.call st = .awaiting q k ∧
          M.Turn f.call t.shared st ⟨q, reply q⟩ s' st') := by
  -- a call begins as its stage says, an answer takes it a turn further
  cases x with
  | call i c =>
      obtain ⟨hi, rfl⟩ := fire_call_eq_some.1 hf
      obtain ⟨s', st, hbegins, hadvance⟩ := hM.begins c t.shared
      exact ⟨s', st, hadvance, .inl ⟨rfl, rfl, h.thread_none.1 hi, hbegins⟩⟩
  | resume i reply =>
      obtain ⟨c, q, k, hi, rfl⟩ := fire_resume_eq_some.1 hf
      obtain ⟨st, hst, hnow⟩ := h.stage hi
      obtain ⟨s', st', hturn, hadvance⟩ := hM.turns c st q k hnow.symm (reply q) t.shared
      exact ⟨s', st', hadvance, .inr ⟨reply, st, q, k, rfl, rfl, hst, hnow.symm, hturn⟩⟩

variable (M) in
/-- What one step makes of a system and of its pool of stages: nothing, when it
is not enabled, or a turn. -/
inductive Moved (t : Sys C σ Q A ε α) (pool : Pool C Stage) :
    Step C Q A → World C σ Q A ε α → Pool C Stage → Prop where
  | idle {x} : Moved t pool x t.toWorld pool
  | start {i c s' st} (hi : pool i = none) (h : M.Begins c t.shared s' st) :
      Moved t pool (.call i c) (t.toWorld.push s' (M.label i c .start st)) (pool.put i c st)
  | turn {i reply c st q k s' st'} (hi : pool i = some (c, st)) (hnow : M.now c st = .awaiting q k)
      (h : M.Turn c t.shared st ⟨q, reply q⟩ s' st') :
      Moved t pool (.resume i reply)
        (t.toWorld.push s' (M.label i c (.answer ⟨q, reply q⟩) st')) (pool.put i c st')

/-- Every step of a described system is a turn of its pool. -/
theorem Describes.next (hM : M.Follows prog) (h : M.Describes t pool) (x : Step C Q A) :
    ∃ pool', M.Describes (next prog t x) pool' ∧
      M.Moved t pool x (Coop.next prog t x).toWorld pool' := by
  cases hf : fire prog t x with
  | none =>
      simp only [Coop.next, hf]
      exact ⟨pool, h, .idle⟩
  | some f =>
      simp only [Coop.next, hf]
      rcases h.fired hM hf with ⟨s', st', hlanding, hsegment⟩
      refine ⟨pool.put f.thread f.call st', h.land hlanding, ?_⟩
      rw [land_toWorld hlanding]
      rcases hsegment with ⟨rfl, hinput, hi, hbegins⟩ | ⟨reply, st, q, k, rfl, hinput, hi, hnow, hturn⟩
      · rw [hinput]
        exact .start hi hbegins
      · rw [hinput]
        exact .turn hi hnow hturn

/-- One step of the system is one turn. -/
theorem Keeps.land {P : Sys C σ Q A ε α → Step C Q A → Prop}
    {Inv : World C σ Q A ε α → Pool C Stage → Prop} (hK : M.Keeps P Inv) (hM : M.Follows prog)
    {x : Step C Q A} {f : Firing C σ Q A ε α} (h : M.Staged Inv t) (hP : P t x)
    (hf : fire prog t x = some f) : M.Staged Inv (t.land f) := by
  rcases h with ⟨pool, hpool, hinv⟩
  rcases hpool.fired hM hf with ⟨s', st', hlanding, hsegment⟩
  refine ⟨pool.put f.thread f.call st', hpool.land hlanding, ?_⟩
  rw [land_toWorld hlanding]
  rcases hsegment with ⟨rfl, hinput, hi, hbegins⟩ | ⟨reply, st, q, k, rfl, hinput, hi, hnow, hturn⟩
  · rw [hinput]
    exact hK.start t pool _ _ s' st' hpool hinv hP hi hbegins
  · rw [hinput]
    exact hK.turn t pool _ reply _ st q k _ s' st' hpool hinv hP hi hnow rfl hturn

/-- The rule: what every turn keeps holds along every run. -/
theorem Keeps.run_inv {P : Sys C σ Q A ε α → Step C Q A → Prop}
    {Inv : World C σ Q A ε α → Pool C Stage → Prop} (hK : M.Keeps P Inv) (hM : M.Follows prog)
    (h : M.Staged Inv t) (xs : List (Step C Q A)) (hP : Along prog P t xs) :
    M.Staged Inv (run prog t xs) := by
  apply run_invariant h _ xs hP
  intro u x f hu hPu hf
  exact hK.land hM hu hPu hf

/-- Two invariants, each kept by every turn, are kept together. -/
theorem Keeps.and {P : Sys C σ Q A ε α → Step C Q A → Prop}
    {Inv Inv' : World C σ Q A ε α → Pool C Stage → Prop} (h : M.Keeps P Inv)
    (h' : M.Keeps P Inv') : M.Keeps P fun w pool => Inv w pool ∧ Inv' w pool where
  start := by
    intro t pool i c s' st hpool hinv hP hi hbegins
    exact ⟨h.start t pool i c s' st hpool hinv.1 hP hi hbegins,
      h'.start t pool i c s' st hpool hinv.2 hP hi hbegins⟩
  turn := by
    intro t pool i reply c st q k a s' st' hpool hinv hP hi hnow hreply hturn
    exact ⟨h.turn t pool i reply c st q k a s' st' hpool hinv.1 hP hi hnow hreply hturn,
      h'.turn t pool i reply c st q k a s' st' hpool hinv.2 hP hi hnow hreply hturn⟩

/-! ## The history of a call -/

/-- The labels of every call, and the stage it has come to, meet `H`. -/
structure Histories (H : ℕ → C → Stage → List (Label C Q A ε α) → Prop) (w : World C σ Q A ε α)
    (pool : Pool C Stage) : Prop where
  started : ∀ i c st, pool i = some (c, st) → H i c st (own i w.trace)
  fresh : ∀ i, pool i = none → own i w.trace = []

/-- A segment adds its label to the history of its call, and to no other. -/
theorem Histories.push {H : ℕ → C → Stage → List (Label C Q A ε α) → Prop} {w : World C σ Q A ε α}
    (h : Histories H w pool) {i : ℕ} {c : C} {input : Input Q A} {s' : σ} {st' : Stage}
    (hnew : H i c st' (own i w.trace ++ [M.label i c input st'])) :
    Histories H (w.push s' (M.label i c input st')) (pool.put i c st') where
  started := by
    intro j d u hj
    rcases Pool.put_eq_some.1 hj with ⟨rfl, rfl, rfl⟩ | ⟨hne, hj⟩
    · have hown : own j (w.trace ++ [M.label j d input u]) = own j w.trace ++ [M.label j d input u] :=
        own_append_self w.trace (M.label j d input u)
      rw [World.push_trace, hown]
      exact hnew
    · rw [World.push_trace, own_append_ne _ (Ne.symm hne)]
      exact h.started j d u hj
  fresh := by
    intro j hj
    -- only the history of the thread that moved is longer
    by_cases hji : j = i
    · subst hji
      simp at hj
    · rw [World.push_trace, own_append_ne _ (Ne.symm hji)]
      exact h.fresh j ((Pool.put_of_ne _ hji ..).symm.trans hj)

/-- A predicate on histories that every turn extends holds of all calls. -/
theorem histories_keeps {P : Sys C σ Q A ε α → Step C Q A → Prop}
    {H : ℕ → C → Stage → List (Label C Q A ε α) → Prop}
    (hbegins : ∀ i c s s' st, M.Begins c s s' st → H i c st [M.label i c .start st])
    (hturn : ∀ i c s st q k a s' st' ls, H i c st ls → M.now c st = .awaiting q k →
      M.Turn c s st ⟨q, a⟩ s' st' → H i c st' (ls ++ [M.label i c (.answer ⟨q, a⟩) st'])) :
    M.Keeps P (Histories H) where
  start := by
    intro t pool i c s' st hpool h hP hi hst
    apply h.push
    rw [h.fresh i hi]
    exact hbegins i c _ s' st hst
  turn := by
    intro t pool i reply c st q k a s' st' hpool h hP hi hnow hreply hst
    apply h.push
    exact hturn i c _ st q k a s' st' _ (h.started i c st hi) hnow hst

/-! ## A call alone -/

/-- The first segment of a call alone. -/
theorem Follows.alone_begins (hM : M.Follows prog) (c : C) (env : Env Q A) (s : σ) :
    ∃ s' st, M.Begins c s s' st ∧ (prog c).alone env s = (M.now c st).alone env s' := by
  rcases hM.begins c s with ⟨s', st, hbegins, hadvance⟩
  refine ⟨s', st, hbegins, ?_⟩
  rw [Proc.alone_eq_yield, hadvance]

/-- The segment of a call alone that the answer to its next question lets run. -/
theorem Follows.alone_turn (hM : M.Follows prog) {c : C} {st : Stage} {q : Q}
    {k : A q → Proc σ Q A ε α} (h : M.now c st = .awaiting q k) (env : Env Q A) (s : σ) :
    ∃ s' st', M.Turn c s st ⟨q, env 0 q⟩ s' st' ∧ (M.now c st).alone env s =
      ((M.now c st').alone (fun n => env (n + 1)) s').after ⟨q, env 0 q⟩ := by
  rcases hM.turns c st q k h (env 0 q) s with ⟨s', st', hturn, hadvance⟩
  refine ⟨s', st', hturn, ?_⟩
  rw [h, Yield.alone, Proc.alone_eq_yield, hadvance]

end Staging

end Coop
