import Alos.Coop.Staged

/-! # Locks

An `asyncio.Lock` that is held across awaits. `withLock` takes the lock, runs
its body and gives the lock back however the body ends. The lock is a flag of
the shared state; that it is handed to one waiter at a time is a condition on
runs, `Granted`: the answer to `acquire` arrives while nobody holds the lock.

* `Exclusive` says that at most one call holds a lock;
* `Handling` is what one segment may do with the locks, and `Exclusive.handle`
  keeps them exclusive.
-/

namespace Coop

variable {σ Q : Type} {A : Q → Type} {ε α β : Type} {C Stage L : Type}

namespace Proc

/-- The value, or the error raised. -/
def ofExcept : Except ε α → Proc σ Q A ε α
  | .ok a => .ret a
  | .error e => .raise e

/-- `try: p finally: f`, where `f` does not await. -/
def ensuring : Proc σ Q A ε α → (σ → σ) → Proc σ Q A ε α
  | .ret a, f => .read fun s => .write (f s) (.ret a)
  | .raise e, f => .read fun s => .write (f s) (.raise e)
  | .read k, f => .read fun s => (k s).ensuring f
  | .write s p, f => .write s (p.ensuring f)
  | .await q k, f => .await q fun a => (k a).ensuring f

theorem alone_ofExcept_state (x : Except ε α) (env : Env Q A) (s : σ) :
    ((ofExcept x : Proc σ Q A ε α).alone env s).state = s := by
  cases x <;> rfl

/-- A segment of `p.ensuring f` is the segment of `p`, and `f` when `p` ends
within it. -/
theorem advance_ensuring (p : Proc σ Q A ε α) (f : σ → σ) (s : σ) :
    (p.ensuring f).advance s = match p.advance s with
      | (s', .returned a) => (f s', .returned a)
      | (s', .raised e) => (f s', .raised e)
      | (s', .awaiting q k) => (s', .awaiting q fun a => (k a).ensuring f) := by
  induction p generalizing s with
  | ret a => rfl
  | raise e => rfl
  | read k ih => exact ih s s
  | write s' p ih => exact ih s'
  | await q k _ => rfl

/-- Alone, `f` comes last. -/
theorem alone_ensuring (p : Proc σ Q A ε α) (f : σ → σ) (env : Env Q A) (s : σ) :
    (p.ensuring f).alone env s = { p.alone env s with state := f (p.alone env s).state } := by
  induction p generalizing env s with
  | ret a => rfl
  | raise e => rfl
  | read k ih => exact ih s env s
  | write s' p ih => exact ih env s'
  | await q k ih => simp only [ensuring, alone, ih]

theorem Asks.ensuring {P : Q → Prop} {p : Proc σ Q A ε α} (h : p.Asks P) (f : σ → σ) :
    (p.ensuring f).Asks P := by
  induction p with
  | ret a => exact fun _ => trivial
  | raise e => exact fun _ => trivial
  | read k ih => exact fun s => ih s (h s)
  | write s p ih => exact ih h
  | await q k ih => exact ⟨h.1, fun a => ih a (h.2 a)⟩

/-- A result that is only wrapped can be wrapped before or after. -/
theorem ensuring_bind_ret (p : Proc σ Q A ε α) (f : σ → σ) (g : α → β) :
    (p.bind fun a => .ret (g a)).ensuring f = (p.ensuring f).bind fun a => .ret (g a) := by
  induction p with
  | ret a => rfl
  | raise e => rfl
  | read k ih => exact congrArg _ (funext ih)
  | write s p ih => exact congrArg _ ih
  | await q k ih => exact congrArg _ (funext ih)

end Proc

/-- The locks of a shared state: their flags, and the question by which a call
asks for one. -/
structure Locks (σ Q L : Type) where
  isLocked : σ → L → Bool
  set : σ → L → Bool → σ
  acquire : L → Q

/-- `async with lock: p`. -/
def Locks.withLock (K : Locks σ Q L) (l : L) (p : Proc σ Q A ε α) : Proc σ Q A ε α :=
  .await (K.acquire l) fun _ => .read fun s =>
    .write (K.set s l true) (p.ensuring fun s => K.set s l false)

theorem Locks.withLock_bind_ret (K : Locks σ Q L) (l : L) (p : Proc σ Q A ε α) (g : α → β) :
    K.withLock l (p.bind fun a => .ret (g a)) = (K.withLock l p).bind fun a => .ret (g a) := by
  simp only [withLock, Proc.bind, Proc.ensuring_bind_ret]

theorem Locks.asks_withLock (K : Locks σ Q L) {P : Q → Prop} (l : L) {p : Proc σ Q A ε α}
    (hl : P (K.acquire l)) (h : p.Asks P) : (K.withLock l p).Asks P :=
  ⟨hl, fun _ _ => h.ensuring _⟩

/-- Alone, the body runs with the lock taken. -/
theorem Locks.alone_withLock (K : Locks σ Q L) (l : L) (p : Proc σ Q A ε α) (env : Env Q A)
    (s : σ) :
    (K.withLock l p).alone env s =
      let body := p.alone (fun n => env (n + 1)) (K.set s l true)
      Proc.Finished.after { body with state := K.set body.state l false }
        ⟨K.acquire l, env 0 (K.acquire l)⟩ := by
  simp only [withLock, Proc.alone, Proc.alone_ensuring]
  rfl

/-- The lock is handed over only while it is free. -/
def Locks.Granted (K : Locks σ Q L) (t : Sys C σ Q A ε α) : Step C Q A → Prop
  | .call _ _ => True
  | .resume i _ => ∀ th, t.threads i = some th →
      ∀ l, th.now.stop = .awaiting (K.acquire l) → K.isLocked t.shared l = false

/-- A call that is handed a lock finds it free. -/
theorem Locks.Granted.free {K : Locks σ Q L} {M : Staging C σ Q A ε α Stage} {t : Sys C σ Q A ε α}
    {pool : Pool C Stage} {i : ℕ} {reply : (q : Q) → A q} (h : K.Granted t (.resume i reply))
    (hpool : M.Describes t pool) {c : C} {st : Stage} (hi : pool i = some (c, st)) {q : Q}
    {k : A q → Proc σ Q A ε α} (hnow : M.now c st = .awaiting q k) {l : L} (hq : q = K.acquire l) :
    K.isLocked t.shared l = false := by
  apply h _ (hpool.thread_some hi) l
  rw [hnow]
  exact congrArg Stop.awaiting hq

/-! ## Mutual exclusion -/

/-- `holds c st` is the lock that the call `c` holds at the stage `st`. A held
lock is locked, and held once. -/
structure Exclusive (locked : L → Bool) (holds : C → Stage → Option L) (pool : Pool C Stage) :
    Prop where
  locked : ∀ i c st l, pool i = some (c, st) → holds c st = some l → locked l = true
  unique : ∀ i j c d st u l, pool i = some (c, st) → pool j = some (d, u) →
    holds c st = some l → holds d u = some l → i = j

section Exclusive

variable {locked locked' : L → Bool} {holds : C → Stage → Option L} {pool : Pool C Stage}

theorem exclusive_empty : Exclusive locked holds (fun _ => none) where
  locked := by
    intro i c st l hi
    cases hi
  unique := by
    intro i j c d st u l hi
    cases hi

/-- Call `c` goes from holding `held` to holding what the stage `st'` holds: a
lock it has just got was free, and the flags of the others stay. -/
theorem Exclusive.move (h : Exclusive locked holds pool) {i : ℕ} {c : C} {st' : Stage}
    {held : Option L}
    (hheld : held = none ∨ ∃ st, pool i = some (c, st) ∧ holds c st = held)
    (hgranted : ∀ l, holds c st' = some l → held = some l ∨ locked l = false)
    (hnow : ∀ l, holds c st' = some l → locked' l = true)
    (hothers : ∀ l, held ≠ some l → locked l = true → locked' l = true) :
    Exclusive locked' holds (pool.put i c st') := by
  -- nobody else holds what the call holds now
  have hmine : ∀ j d u l, j ≠ i → pool j = some (d, u) → holds d u = some l →
      holds c st' ≠ some l ∧ held ≠ some l := by
    intro j d u l hj hpool hl
    have hlocked := h.locked j d u l hpool hl
    have hheld' : held ≠ some l := by
      rintro rfl
      rcases hheld with hnone | ⟨st, hi, hst⟩
      · cases hnone
      · exact hj (h.unique j i d c u st l hpool hi hl hst)
    refine ⟨fun hst' => ?_, hheld'⟩
    rcases hgranted l hst' with hsame | hfree
    · exact hheld' hsame
    · rw [hlocked] at hfree
      cases hfree
  constructor
  · intro j d u l hj hl
    rcases Pool.put_eq_some.1 hj with ⟨rfl, rfl, rfl⟩ | ⟨hne, hj⟩
    · exact hnow l hl
    · exact hothers l (hmine j d u l hne hj hl).2 (h.locked j d u l hj hl)
  · intro j k d e u v l hputj hputk hl hl'
    rcases Pool.put_eq_some.1 hputj with ⟨rfl, rfl, rfl⟩ | ⟨hnej, hj⟩
    · rcases Pool.put_eq_some.1 hputk with ⟨rfl, -, -⟩ | ⟨hnek, hk⟩
      · rfl
      · exact absurd hl (hmine k e v l hnek hk hl').1
    · rcases Pool.put_eq_some.1 hputk with ⟨rfl, rfl, rfl⟩ | ⟨hnek, hk⟩
      · exact absurd hl' (hmine j d u l hnej hj hl).1
      · exact h.unique j k d e u v l hj hk hl hl'

/-- What a segment may do with the locks: leave them alone, take one that is
free, keep the one it holds, or give it back. -/
inductive Handling [DecidableEq L] (locked : L → Bool) : Option L → (L → Bool) → Option L → Prop
    where
  | idle : Handling locked none locked none
  | take {l} (h : locked l = false) :
      Handling locked none (Function.update locked l true) (some l)
  | keep {l} : Handling locked (some l) locked (some l)
  | release {l} : Handling locked (some l) (Function.update locked l false) none

theorem Exclusive.handle [DecidableEq L] (h : Exclusive locked holds pool) {i : ℕ} {c : C}
    {st' : Stage} {held : Option L}
    (hheld : held = none ∨ ∃ st, pool i = some (c, st) ∧ holds c st = held)
    (hhandling : Handling locked held locked' (holds c st')) :
    Exclusive locked' holds (pool.put i c st') := by
  refine h.move hheld ?_ ?_ ?_ <;> generalize holds c st' = now at hhandling
  · intro l hl
    -- only taking a lock that is free makes a new holder
    cases hhandling with
    | idle => cases hl
    | take hfree =>
        cases hl
        exact .inr hfree
    | keep => exact .inl hl
    | release => cases hl
  · intro l hl
    cases hhandling with
    | idle => cases hl
    | take hfree =>
        cases hl
        exact Function.update_self ..
    | keep =>
        cases hl
        rcases hheld with hnone | ⟨st, hi, hst⟩
        · cases hnone
        · exact h.locked i c st _ hi hst
    | release => cases hl
  · intro l hne hl
    cases hhandling with
    | idle => exact hl
    | take hfree =>
        rw [Function.update_of_ne]
        · exact hl
        · rintro rfl
          rw [hfree] at hl
          cases hl
    | keep => exact hl
    | release =>
        rw [Function.update_of_ne]
        · exact hl
        · rintro rfl
          exact hne rfl

end Exclusive

end Coop
