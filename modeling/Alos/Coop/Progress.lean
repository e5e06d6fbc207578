import Mathlib.Algebra.Order.BigOperators.Group.Finset
import Alos.Coop.Embed
import Alos.Coop.Lock

/-! # Calls that take one lock at a time

Calls that give a lock back before they ask for another one, and that ask so many
questions at most. However they overlap, none of them is stuck.

* `Proc.Sectioned` says so of a procedure, with lemmas for the ways in which procedures
  are put together;
* `Possession` connects the flags of the locks with who holds them, and `Served` is the
  invariant of a run;
* `progress` is what follows: a bound on the segments of a call, no deadlock, no lock
  left taken, and a way to bring all calls to their ends.
-/

namespace Coop

variable {σ Q Q' L : Type} {A : Q → Type} {A' : Q' → Type} {ε ε' α β : Type} {C : Type}

/-! ## Procedures -/

section Sectioned

variable [DecidableEq L] (K : Locks σ Q L)

/-- The procedure holds `held` while the flags are `v`, goes on to hold at most one
lock at a time, asks at most `n` questions, and ends when it holds `out`. -/
inductive Proc.Sectioned (out : Option L) :
    Option L → (L → Bool) → ℕ → Proc σ Q A ε α → Prop where
  | ret {v n a} : Sectioned out out v n (.ret a)
  | raise {v n e} : Sectioned out out v n (.raise e)
  | read {held v n k} (h : ∀ s, K.isLocked s = v → Sectioned out held v n (k s)) :
      Sectioned out held v n (.read k)
  | write {held v n s p} (hs : K.isLocked s = v) (h : Sectioned out held v n p) :
      Sectioned out held v n (.write s p)
  | take {l v n s p} (hfree : v l = false) (hs : K.isLocked s = Function.update v l true)
      (h : Sectioned out (some l) (Function.update v l true) n p) :
      Sectioned out none v n (.write s p)
  | give {l v n s p} (hs : K.isLocked s = Function.update v l false)
      (h : Sectioned out none (Function.update v l false) n p) :
      Sectioned out (some l) v n (.write s p)
  | await {held v n q k} (hq : ∀ l, q ≠ K.acquire l)
      (h : ∀ a v, (∀ l ∈ held, v l = true) → Sectioned out held v n (k a)) :
      Sectioned out held v (n + 1) (.await q k)
  | acquire {l v n q k} (hq : q = K.acquire l)
      (h : ∀ a v, v l = false → Sectioned out none v n (k a)) :
      Sectioned out none v (n + 1) (.await q k)

/-- The rest of such a procedure, which goes on for at most `n` segments. -/
inductive Yield.Sectioned : Option L → ℕ → Yield σ Q A ε α → Prop where
  | returned {n a} : Sectioned none n (.returned a)
  | raised {n e} : Sectioned none n (.raised e)
  | asking {held n q k} (hq : ∀ l, q ≠ K.acquire l)
      (h : ∀ a v, (∀ l ∈ held, v l = true) → (k a).Sectioned K none held v n) :
      Sectioned held (n + 1) (.awaiting q k)
  | acquiring {l n q k} (hq : q = K.acquire l)
      (h : ∀ a v, v l = false → (k a).Sectioned K none none v n) :
      Sectioned none (n + 1) (.awaiting q k)

/-- What one segment may do with the flags and with the lock that its call holds. -/
inductive Passes : (L → Bool) → Option L → (L → Bool) → Option L → Prop where
  | stay {v held} : Passes v held v held
  | take {l v v' held'} (hfree : v l = false)
      (h : Passes (Function.update v l true) (some l) v' held') : Passes v none v' held'
  | give {l v v' held'} (h : Passes (Function.update v l false) none v' held') :
      Passes v (some l) v' held'

variable {K}

namespace Proc.Sectioned

variable {out held : Option L} {v : L → Bool} {n m : ℕ} {p : Proc σ Q A ε α}

/-- A bound on the waits can be raised. -/
theorem mono (h : p.Sectioned K out held v n) (hnm : n ≤ m) : p.Sectioned K out held v m := by
  induction h generalizing m with
  | ret => exact .ret
  | raise => exact .raise
  | read _ ih => exact .read fun s hs => ih s hs hnm
  | write hs _ ih => exact .write hs (ih hnm)
  | take hfree hs _ ih => exact .take hfree hs (ih hnm)
  | give hs _ ih => exact .give hs (ih hnm)
  -- a wait uses one of the bound
  | @await held v n q k hq _ ih =>
      have hm : m = (m - 1) + 1 := by omega
      have hn : n ≤ m - 1 := by omega
      rw [hm]
      exact .await hq fun a v hv => ih a v hv hn
  | @acquire l v n q k hq _ ih =>
      have hm : m = (m - 1) + 1 := by omega
      have hn : n ≤ m - 1 := by omega
      rw [hm]
      exact .acquire hq fun a v hv => ih a v hv hn

/-- The waits of a composition are those of its parts. -/
theorem bind {f : α → Proc σ Q A ε β} (h : p.Sectioned K out held v n)
    (hf : ∀ a v, (f a).Sectioned K out out v m) : (p.bind f).Sectioned K out held v (n + m) := by
  induction h with
  | @ret v n a => exact (hf a v).mono (by omega)
  | raise => exact .raise
  | read _ ih => exact .read ih
  | write hs _ ih => exact .write hs ih
  | take hfree hs _ ih => exact .take hfree hs ih
  | give hs _ ih => exact .give hs ih
  | await hq _ ih =>
      rw [Nat.add_right_comm]
      exact .await hq ih
  | acquire hq _ ih =>
      rw [Nat.add_right_comm]
      exact .acquire hq ih

/-- The lock is given back at the end. -/
theorem ensuring {l : L} (h : p.Sectioned K (some l) held v n)
    (hset : ∀ s b, K.isLocked (K.set s l b) = Function.update (K.isLocked s) l b) :
    (p.ensuring fun s => K.set s l false).Sectioned K none held v n := by
  -- the clean-up runs where the coroutine ends, and reads the state there
  induction h with
  | ret =>
      refine .read ?_
      intro s hs
      exact .give (by rw [hset, hs]) .ret
  | raise =>
      refine .read ?_
      intro s hs
      exact .give (by rw [hset, hs]) .raise
  | read _ ih => exact .read ih
  | write hs _ ih => exact .write hs ih
  | take hfree hs _ ih => exact .take hfree hs ih
  | give hs _ ih => exact .give hs ih
  | await hq _ ih => exact .await hq ih
  | acquire hq _ ih => exact .acquire hq ih

/-- Taking a lock is one wait more, and the lock is given back. -/
theorem withLock {l : L} (h : ∀ v, p.Sectioned K (some l) (some l) v n)
    (hset : ∀ s b, K.isLocked (K.set s l b) = Function.update (K.isLocked s) l b) :
    (K.withLock l p).Sectioned K none none v (n + 1) := by
  refine .acquire rfl ?_
  intro a v hfree
  refine .read ?_
  intro s hs
  refine .take hfree ?_ ((h _).ensuring hset)
  rw [hset, hs]

/-- Renaming questions changes no wait. -/
theorem embed {K' : Locks σ Q' L} {f : Q → Q'} (h : p.Sectioned K out held v n)
    (back : (q : Q) → A' (f q) → A q) (g : ε → ε') (hlocked : K'.isLocked = K.isLocked)
    (hacquire : ∀ q l, f q = K'.acquire l ↔ q = K.acquire l) :
    (p.embed f back g).Sectioned K' out held v n := by
  induction h with
  | ret => exact .ret
  | raise => exact .raise
  | read _ ih => exact .read fun s hs => ih s (by rw [← hlocked, hs])
  | write hs _ ih => exact .write (by rw [hlocked, hs]) ih
  | take hfree hs _ ih => exact .take hfree (by rw [hlocked, hs]) ih
  | give hs _ ih => exact .give (by rw [hlocked, hs]) ih
  | @await held v n q k hq _ ih =>
      refine .await ?_ fun a => ih (back q a)
      intro l hl
      exact hq l ((hacquire q l).1 hl)
  | @acquire l v n q k hq _ ih => exact .acquire ((hacquire q l).2 hq) fun a => ih (back q a)

/-- A computation without state waits for nothing. -/
theorem ofExcept (x : Except ε α) :
    (Proc.ofExcept x : Proc σ Q A ε α).Sectioned K out out v n := by
  cases x with
  | ok a => exact .ret
  | error e => exact .raise

/-- Nor does a change of the state that leaves the locks alone. -/
theorem modify {f : σ → σ} (hf : ∀ s, K.isLocked (f s) = K.isLocked s) :
    (Proc.modify f : Proc σ Q A ε Unit).Sectioned K out out v n := by
  refine .read ?_
  intro s hs
  exact .write (by rw [hf, hs]) .ret

/-- One segment. -/
theorem advance {s : σ} (h : p.Sectioned K none held v n) (hs : K.isLocked s = v) :
    ∃ held', Passes v held (K.isLocked (p.advance s).1) held' ∧
      (p.advance s).2.Sectioned K held' n := by
  induction h generalizing s with
  | ret =>
      subst hs
      exact ⟨none, .stay, .returned⟩
  | raise =>
      subst hs
      exact ⟨none, .stay, .raised⟩
  | read _ ih => exact ih s hs hs
  | write hs' _ ih => exact ih hs'
  -- the lock is taken in this step, and held from here on
  | take hfree hs' _ ih =>
      rcases ih hs' with ⟨held', hpasses, hnow⟩
      exact ⟨held', .take hfree hpasses, hnow⟩
  -- the lock is given back in this step
  | give hs' _ ih =>
      rcases ih hs' with ⟨held', hpasses, hnow⟩
      exact ⟨held', .give hpasses, hnow⟩
  | @await held v n q k hq h _ =>
      subst hs
      exact ⟨held, .stay, .asking hq h⟩
  | acquire hq h _ =>
      subst hs
      exact ⟨none, .stay, .acquiring hq h⟩

end Proc.Sectioned

end Sectioned

/-! ## Who holds what -/

/-- A lock is locked if and only if a thread holds it, and no two threads hold it. -/
structure Possession (v : L → Bool) (holds : ℕ → Option L) : Prop where
  flags : ∀ l, v l = true ↔ ∃ i, holds i = some l
  unique : ∀ i j l, holds i = some l → holds j = some l → i = j

section Possession

variable [DecidableEq L] {v v' : L → Bool} {holds : ℕ → Option L} {i : ℕ} {l : L}

omit [DecidableEq L] in
/-- Free locks are held by nobody. -/
theorem possession_free (hv : ∀ l, v l = false) : Possession v fun _ => none where
  flags := by simp [hv]
  unique := by
    intro i j l hi
    cases hi

/-- A free lock can be taken by a thread that holds none. -/
theorem Possession.take (h : Possession v holds) (hi : holds i = none) (hfree : v l = false) :
    Possession (Function.update v l true) (Function.update holds i (some l)) := by
  -- a lock that is free is held by nobody, so nobody holds two
  have hnobody : ∀ j, holds j ≠ some l := by
    intro j hj
    rw [(h.flags l).2 ⟨j, hj⟩] at hfree
    cases hfree
  constructor
  · intro m
    by_cases hm : m = l
    · subst hm
      simp only [Function.update_self, true_iff]
      exact ⟨i, Function.update_self ..⟩
    · rw [Function.update_of_ne hm, h.flags]
      constructor
      · rintro ⟨j, hj⟩
        refine ⟨j, ?_⟩
        rw [Function.update_of_ne, hj]
        rintro rfl
        rw [hi] at hj
        cases hj
      · rintro ⟨j, hj⟩
        by_cases hji : j = i
        · subst hji
          rw [Function.update_self] at hj
          exact absurd (Option.some.inj hj).symm hm
        · rw [Function.update_of_ne hji] at hj
          exact ⟨j, hj⟩
  · intro j k m hj hk
    by_cases hji : j = i
    · subst hji
      rw [Function.update_self] at hj
      cases hj
      by_cases hkj : k = j
      · exact hkj.symm
      · rw [Function.update_of_ne hkj] at hk
        exact absurd hk (hnobody k)
    · rw [Function.update_of_ne hji] at hj
      by_cases hki : k = i
      · subst hki
        rw [Function.update_self] at hk
        cases hk
        exact absurd hj (hnobody j)
      · rw [Function.update_of_ne hki] at hk
        exact h.unique j k m hj hk

/-- A lock is given back by the thread that holds it. -/
theorem Possession.give (h : Possession v holds) (hi : holds i = some l) :
    Possession (Function.update v l false) (Function.update holds i none) := by
  -- what the others hold is another lock
  have hothers : ∀ j m, Function.update holds i none j = some m → j ≠ i ∧ holds j = some m := by
    intro j m hj
    by_cases hji : j = i
    · subst hji
      rw [Function.update_self] at hj
      cases hj
    · rw [Function.update_of_ne hji] at hj
      exact ⟨hji, hj⟩
  constructor
  · intro m
    by_cases hm : m = l
    · subst hm
      simp only [Function.update_self, Bool.false_eq_true, false_iff, not_exists]
      intro j hj
      exact (hothers j m hj).1 (h.unique j i m (hothers j m hj).2 hi)
    · rw [Function.update_of_ne hm, h.flags]
      constructor
      · rintro ⟨j, hj⟩
        refine ⟨j, ?_⟩
        rw [Function.update_of_ne, hj]
        rintro rfl
        rw [hi] at hj
        exact hm (Option.some.inj hj).symm
      · rintro ⟨j, hj⟩
        exact ⟨j, (hothers j m hj).2⟩
  · intro j k m hj hk
    exact h.unique j k m (hothers j m hj).2 (hothers k m hk).2

/-- A segment of the thread `i`. -/
theorem Possession.passes {held held' : Option L} (h : Possession v holds) (hi : holds i = held)
    (hpasses : Passes v held v' held') : Possession v' (Function.update holds i held') := by
  induction hpasses generalizing holds with
  | stay =>
      rw [← hi, Function.update_eq_self]
      exact h
  | take hfree _ ih =>
      have hnext := ih (h.take hi hfree) (Function.update_self ..)
      rwa [Function.update_idem] at hnext
  | give _ ih =>
      have hnext := ih (h.give hi) (Function.update_self ..)
      rwa [Function.update_idem] at hnext

end Possession

/-! ## Runs -/

section Run

variable [DecidableEq L] (prog : C → Proc σ Q A ε α) (K : Locks σ Q L) (N : ℕ)

/-- Where a run of calls stands that ask `N` questions at most. -/
structure Served (holds : ℕ → Option L) (t : Sys C σ Q A ε α) : Prop where
  possession : Possession (K.isLocked t.shared) holds
  idle : ∀ i, t.threads i = none → holds i = none ∧ own i t.trace = []
  live : ∀ i th, t.threads i = some th →
    ∃ n, th.now.Sectioned K (holds i) n ∧ (own i t.trace).length + n ≤ N + 1

/-- How many segments the calls of the threads `S` may still have. -/
def left (S : Finset ℕ) (t : Sys C σ Q A ε α) : ℕ :=
  ∑ i ∈ S, (N + 1 - (own i t.trace).length)

/-- The thread is suspended, and may be resumed whatever the answer. -/
def Ready (t : Sys C σ Q A ε α) (i : ℕ) : Prop :=
  (∃ th, t.threads i = some th ∧ ¬ th.now.stop.Over) ∧ ∀ reply, K.Granted t (.resume i reply)

/-- All calls are over. -/
def Finished (t : Sys C σ Q A ε α) : Prop := ∀ i th, t.threads i = some th → th.now.stop.Over

/-- Whatever is answered, the calls can be resumed one after the other until all of
them are over. -/
inductive Settles : Sys C σ Q A ε α → Prop where
  | finished {t} (h : Finished t) : Settles t
  | resume {t} (i : ℕ) (hready : Ready K t i)
      (h : ∀ reply, Settles (next prog t (.resume i reply))) : Settles t

/-- No call of the run is stuck. -/
structure Progress (t : Sys C σ Q A ε α) : Prop where
  /-- A call has run in `N + 1` segments at most. -/
  bounded : ∀ i, (own i t.trace).length ≤ N + 1
  /-- While some call is not over, one that is not over can be resumed. -/
  unblocked : ¬ Finished t → ∃ i, Ready K t i
  /-- When all calls are over, no lock is left taken. -/
  released : Finished t → ∀ l, K.isLocked t.shared l = false
  settles : Settles prog K t

variable {prog K N} {holds : ℕ → Option L} {t : Sys C σ Q A ε α}

/-- Before the first call every lock is free. -/
theorem served_init {s : σ} (hs : ∀ l, K.isLocked s l = false) :
    Served K N (fun _ => none) (init s : Sys C σ Q A ε α) where
  possession := possession_free hs
  idle := fun _ _ => ⟨rfl, rfl⟩
  live := by
    intro i th hth
    cases hth

/-- A firing is the last of its thread. -/
theorem own_land_self (t : Sys C σ Q A ε α) (F : Firing C σ Q A ε α) :
    own F.thread (t.land F).trace = own F.thread t.trace ++ [F.label] :=
  own_append_self t.trace F.label

/-- It is none of another thread's. -/
theorem own_land_ne {F : Firing C σ Q A ε α} {i : ℕ} (hi : F.thread ≠ i) :
    own i (t.land F).trace = own i t.trace :=
  own_append_ne t.trace hi

/-- A segment, with what is left of its call. -/
theorem Served.land (h : Served K N holds t) {F : Firing C σ Q A ε α} {held : Option L} {n : ℕ}
    (hpasses : Passes (K.isLocked t.shared) (holds F.thread) (K.isLocked F.landing.1) held)
    (hnow : F.landing.2.Sectioned K held n)
    (hcount : (own F.thread t.trace).length + 1 + n ≤ N + 1) :
    Served K N (Function.update holds F.thread held) (t.land F) where
  possession := h.possession.passes rfl hpasses
  idle := by
    intro i hi
    have hF : i ≠ F.thread := by
      rintro rfl
      simp [Sys.land] at hi
    simp only [Sys.land, Function.update_of_ne hF] at hi
    rw [Function.update_of_ne hF, own_land_ne (Ne.symm hF)]
    exact h.idle i hi
  live := by
    intro i th hth
    -- the thread that moved has one wait less, the others theirs
    by_cases hF : i = F.thread
    · subst hF
      simp only [Sys.land, Function.update_self, Option.some.injEq] at hth
      subst hth
      refine ⟨n, ?_, ?_⟩
      · rw [Function.update_self]
        exact hnow
      · rw [own_land_self, List.length_append, List.length_singleton]
        exact hcount
    · simp only [Sys.land, Function.update_of_ne hF] at hth
      rw [Function.update_of_ne hF, own_land_ne (Ne.symm hF)]
      exact h.live i th hth

/-- Starting a call keeps the locks in order. -/
theorem Served.call (h : Served K N holds t) {i : ℕ} {c : C} (hi : t.threads i = none)
    (hc : ∀ v, (prog c).Sectioned K none none v N) :
    ∃ holds', Served K N holds' (t.land ⟨i, c, .start, (prog c).advance t.shared⟩) := by
  rcases (hc _).advance rfl with ⟨held, hpasses, hnow⟩
  rcases h.idle i hi with ⟨hheld, hown⟩
  refine ⟨_, h.land ?_ hnow ?_⟩
  · rw [hheld]
    exact hpasses
  · simp only [hown, List.length_nil]
    omega

/-- So does answering a thread, when a lock is granted only while it is free. -/
theorem Served.resume (h : Served K N holds t) {i : ℕ} {c : C} {q : Q}
    {k : A q → Proc σ Q A ε α} {reply : (q : Q) → A q} (hi : t.threads i = some ⟨c, .awaiting q k⟩)
    (hgranted : K.Granted t (.resume i reply)) :
    ∃ holds', Served K N holds'
      (t.land ⟨i, c, .answer ⟨q, reply q⟩, (k (reply q)).advance t.shared⟩) := by
  rcases h.live i _ hi with ⟨n, hnow, hcount⟩
  have hrest : ∃ m, n = m + 1 ∧
      (k (reply q)).Sectioned K none (holds i) (K.isLocked t.shared) m := by
    generalize hheld : holds i = held at hnow
    -- a thread waits for an answer or for a lock, which is free now
    cases hnow with
    | asking hq hk =>
        refine ⟨_, rfl, hk _ _ ?_⟩
        intro l hl
        exact (h.possession.flags l).2 ⟨i, hheld.trans hl⟩
    | acquiring hq hk => exact ⟨_, rfl, hk _ _ (hgranted _ hi _ (congrArg Stop.awaiting hq))⟩
  rcases hrest with ⟨m, rfl, hk⟩
  rcases hk.advance rfl with ⟨held, hpasses, hnext⟩
  exact ⟨_, h.land hpasses hnext (by simp only; omega)⟩

/-- So they are after any run. -/
theorem served_run (hprog : ∀ c v, (prog c).Sectioned K none none v N) (h : Served K N holds t)
    {xs : List (Step C Q A)} (hxs : Along prog K.Granted t xs) :
    ∃ holds', Served K N holds' (run prog t xs) := by
  have hstep : ∀ (t : Sys C σ Q A ε α) x F, (∃ holds, Served K N holds t) → K.Granted t x →
      fire prog t x = some F → ∃ holds, Served K N holds (t.land F) := by
    rintro t x F ⟨holds, h⟩ hgranted hfire
    cases x with
    | call i c =>
        rcases fire_call_eq_some.1 hfire with ⟨hi, rfl⟩
        exact h.call hi (hprog c)
    | resume i reply =>
        rcases fire_resume_eq_some.1 hfire with ⟨c, q, k, hi, rfl⟩
        exact h.resume hi hgranted
  exact run_invariant ⟨holds, h⟩ hstep xs hxs

/-! ## No call is stuck -/

/-- Who holds a lock does not wait for one. -/
theorem Served.ready_of_holds (h : Served K N holds t) {i : ℕ} {l : L} (hi : holds i = some l) :
    Ready K t i := by
  cases hth : t.threads i with
  | none =>
      rw [(h.idle i hth).1] at hi
      cases hi
  | some th =>
      rcases h.live i th hth with ⟨n, hnow, -⟩
      rw [hi] at hnow
      rcases th with ⟨c, y⟩
      cases hnow with
      | asking hq hk =>
          refine ⟨⟨_, hth, fun hover => hover⟩, ?_⟩
          intro reply th' hth' l' hl'
          rw [hth] at hth'
          cases hth'
          exact absurd (Stop.awaiting.inj hl') (hq l')

/-- While something is not over, some thread can be answered. -/
theorem Served.unblocked (h : Served K N holds t) (hinj : Function.Injective K.acquire)
    (hopen : ¬ Finished t) : ∃ i, Ready K t i := by
  simp only [Finished, not_forall] at hopen
  rcases hopen with ⟨i, th, hth, hwaits⟩
  rcases h.live i th hth with ⟨n, hnow, -⟩
  rcases th with ⟨c, y⟩
  generalize hheld : holds i = held at hnow
  -- a thread that waits for anything but a lock can be answered
  cases hnow with
  | returned => exact absurd trivial hwaits
  | raised => exact absurd trivial hwaits
  | asking hq hk =>
      refine ⟨i, ⟨_, hth, hwaits⟩, ?_⟩
      intro reply th' hth' l hl
      rw [hth] at hth'
      cases hth'
      exact absurd (Stop.awaiting.inj hl) (hq l)
  | @acquiring l n q k hq hk =>
      -- a lock that is taken has a holder, who can be answered
      cases hlocked : K.isLocked t.shared l with
      | true =>
          rcases (h.possession.flags l).1 hlocked with ⟨j, hj⟩
          exact ⟨j, h.ready_of_holds hj⟩
      | false =>
          refine ⟨i, ⟨_, hth, hwaits⟩, ?_⟩
          intro reply th' hth' l' hl'
          rw [hth] at hth'
          cases hth'
          have hq' : q = K.acquire l' := Stop.awaiting.inj hl'
          have hll' : l = l' := hinj (hq.symm.trans hq')
          rwa [← hll']

/-- When everything is over, every lock is free. -/
theorem Served.released (h : Served K N holds t) (hdone : Finished t) (l : L) :
    K.isLocked t.shared l = false := by
  rw [Bool.eq_false_iff]
  intro hlocked
  rcases (h.possession.flags l).1 hlocked with ⟨i, hi⟩
  rcases (h.ready_of_holds hi).1 with ⟨th, hth, hopen⟩
  exact hopen (hdone i th hth)

/-- No thread takes more steps than its bound. -/
theorem Served.bounded (h : Served K N holds t) (i : ℕ) : (own i t.trace).length ≤ N + 1 := by
  cases hi : t.threads i with
  | none =>
      rw [(h.idle i hi).2]
      exact Nat.zero_le _
  | some th =>
      rcases h.live i th hi with ⟨n, -, hn⟩
      omega

/-- A call that can be resumed has not asked all its questions. -/
theorem Served.lt_of_ready (h : Served K N holds t) {i : ℕ} (hi : Ready K t i) :
    (own i t.trace).length < N + 1 := by
  rcases hi with ⟨⟨th, hth, hopen⟩, -⟩
  rcases h.live i th hth with ⟨n, hnow, hn⟩
  rcases th with ⟨c, y⟩
  generalize holds i = held at hnow
  cases hnow with
  | returned => exact absurd trivial hopen
  | raised => exact absurd trivial hopen
  | asking => omega
  | acquiring => omega

/-- The segments that the calls may still have become fewer. -/
theorem left_land {S : Finset ℕ} {F : Firing C σ Q A ε α} (hF : F.thread ∈ S)
    (hroom : (own F.thread t.trace).length < N + 1) : left N S (t.land F) < left N S t := by
  have hself : (own F.thread (t.land F).trace).length = (own F.thread t.trace).length + 1 := by
    rw [own_land_self, List.length_append, List.length_singleton]
  apply Finset.sum_lt_sum
  · intro j _
    by_cases hj : F.thread = j
    · rw [← hj, hself]
      omega
    · rw [own_land_ne hj]
  · refine ⟨F.thread, hF, ?_⟩
    rw [hself]
    omega

/-- From any such state some further answers end everything. -/
theorem Served.settles (h : Served K N holds t) (hinj : Function.Injective K.acquire)
    {S : Finset ℕ} (hS : ∀ i, i ∉ S → t.threads i = none) : Settles prog K t := by
  generalize hleft : left N S t = m
  -- on the waits that are left over all threads
  induction m using Nat.strong_induction_on generalizing t holds with
  | _ m ih =>
      by_cases hdone : Finished t
      · exact .finished hdone
      · rcases h.unblocked hinj hdone with ⟨i, hready⟩
        refine .resume i hready ?_
        intro reply
        rcases hready.1 with ⟨⟨c, y⟩, hth, hopen⟩
        cases y with
        | returned => exact absurd trivial hopen
        | raised => exact absurd trivial hopen
        | awaiting q k =>
            have hnext : next prog t (.resume i reply) =
                t.land ⟨i, c, .answer ⟨q, reply q⟩, (k (reply q)).advance t.shared⟩ := by
              rw [next, fire_resume_eq_some.2 ⟨c, q, k, hth, rfl⟩]
            rcases h.resume hth (hready.2 reply) with ⟨holds', h'⟩
            rw [← hnext] at h'
            have hi : i ∈ S := by
              by_contra hi
              rw [hS i hi] at hth
              cases hth
            refine ih _ ?_ h' ?_ rfl
            · rw [← hleft, hnext]
              exact left_land hi (h.lt_of_ready hready)
            · intro j hj
              have hji : j ≠ i := by
                rintro rfl
                exact hj hi
              rw [hnext]
              simp only [Sys.land, Function.update_of_ne hji]
              exact hS j hj

/-- **No call is stuck.** Calls that take one lock at a time and ask `N` questions at
most, in every run in which a lock is handed over only while it is free. -/
theorem progress (hinj : Function.Injective K.acquire)
    (hprog : ∀ c v, (prog c).Sectioned K none none v N) {s : σ}
    (hs : ∀ l, K.isLocked s l = false) {xs : List (Step C Q A)}
    (hxs : Along prog K.Granted (init s) xs) : Progress prog K N (run prog (init s) xs) := by
  rcases served_run hprog (served_init hs) hxs with ⟨holds, h⟩
  refine ⟨h.bounded, h.unblocked hinj, h.released,
    h.settles hinj (S := (xs.map Step.thread).toFinset) ?_⟩
  intro i hi
  cases hth : (run prog (init s) xs).threads i with
  | none => rfl
  | some th =>
      have hcall : .call i th.call ∈ xs := (run_started prog s xs).threads i th hth
      refine absurd ?_ hi
      rw [List.mem_toFinset, List.mem_map]
      exact ⟨_, hcall, rfl⟩

end Run

end Coop
