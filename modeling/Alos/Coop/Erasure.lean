import Alos.Coop.Delegation

/-! # Runs without the calls of others

An observer sees a part of the shared state, and some of the calls are its own.

* `Proc.Matches`: two procedures that do the same, as far as the observer sees; one
  that matches itself is `Proc.Local`;
* `Proc.Spares`: a procedure that leaves alone what the observer sees;
* `erased_step` and `erased_run`: while the own calls depend on what is seen only, and
  the others spare it, the run without the others is the same to the observer.
-/

namespace Coop

variable {σ Q Q' V : Type} {A : Q → Type} {A' : Q' → Type} {ε ε' α β : Type} {C D L : Type}

/-! ## Procedures and an observer -/

section Observer

variable (view : σ → V)

/-- From states that look the same, the procedures do what looks the same. -/
inductive Proc.Matches : Proc σ Q A ε α → Proc σ Q A ε α → Prop where
  | ret {a} : Matches (.ret a) (.ret a)
  | raise {e} : Matches (.raise e) (.raise e)
  | read {k k'} (h : ∀ s s', view s = view s' → Matches (k s) (k' s')) :
      Matches (.read k) (.read k')
  | write {s s' p p'} (hs : view s = view s') (h : Matches p p') :
      Matches (.write s p) (.write s' p')
  | await {q k k'} (h : ∀ a, Matches (k a) (k' a)) : Matches (.await q k) (.await q k')

/-- The procedure depends on what is seen only. -/
abbrev Proc.Local (p : Proc σ Q A ε α) : Prop := p.Matches view p

/-- Where matching procedures stop. -/
inductive Yield.Matches : Yield σ Q A ε α → Yield σ Q A ε α → Prop where
  | returned {a} : Matches (.returned a) (.returned a)
  | raised {e} : Matches (.raised e) (.raised e)
  | awaiting {q k k'} (h : ∀ a, (k a).Matches view (k' a)) :
      Matches (.awaiting q k) (.awaiting q k')

/-- Every segment leaves what is seen as it finds it; the current one has found `v`. -/
def Proc.Spares : V → Proc σ Q A ε α → Prop
  | _, .ret _ => True
  | _, .raise _ => True
  | v, .read k => ∀ s, view s = v → (k s).Spares v
  | v, .write s p => view s = v ∧ p.Spares v
  | _, .await _ k => ∀ v a, (k a).Spares v

/-- What is left of a coroutine at a wait never changes the view. -/
def Yield.Spares : Yield σ Q A ε α → Prop
  | .returned _ => True
  | .raised _ => True
  | .awaiting _ k => ∀ v a, (k a).Spares view v

variable {view}

namespace Proc.Matches

variable {p p' : Proc σ Q A ε α}

/-- Coroutines that match can be followed by coroutines that match. -/
theorem bind {f f' : α → Proc σ Q A ε β} (hp : p.Matches view p')
    (hf : ∀ a, (f a).Matches view (f' a)) : (p.bind f).Matches view (p'.bind f') := by
  induction hp with
  | ret => exact hf _
  | raise => exact .raise
  | read _ ih => exact .read ih
  | write hs _ ih => exact .write hs ih
  | await _ ih => exact .await ih

/-- A clean-up that acts on the view alone keeps a match. -/
theorem ensuring {f : σ → σ} (hp : p.Matches view p')
    (hf : ∀ s s', view s = view s' → view (f s) = view (f s')) :
    (p.ensuring f).Matches view (p'.ensuring f) := by
  induction hp with
  | ret => exact .read fun s s' hs => .write (hf s s' hs) .ret
  | raise => exact .read fun s s' hs => .write (hf s s' hs) .raise
  | read _ ih => exact .read ih
  | write hs _ ih => exact .write hs ih
  | await _ ih => exact .await ih

/-- Renaming questions and errors keeps a match. -/
theorem embed (hp : p.Matches view p') (f : Q → Q') (back : (q : Q) → A' (f q) → A q) (g : ε → ε') :
    (p.embed f back g).Matches view (p'.embed f back g) := by
  induction hp with
  | ret => exact .ret
  | raise => exact .raise
  | read _ ih => exact .read ih
  | write hs _ ih => exact .write hs ih
  | await _ ih => exact .await fun a => ih (back _ a)

/-- A lock that is not seen. -/
theorem withLock {K : Locks σ Q L} {l : L} (hp : p.Matches view p')
    (hset : ∀ s b, view (K.set s l b) = view s) :
    (K.withLock l p).Matches view (K.withLock l p') := by
  refine .await fun a => .read fun s s' hs => .write ?_ ?_
  · rw [hset, hset, hs]
  · apply hp.ensuring
    intro s s' hs
    rw [hset, hset, hs]

/-- A computation without state depends on no view. -/
theorem ofExcept (x : Except ε α) : (Proc.ofExcept x : Proc σ Q A ε α).Local view := by
  cases x with
  | ok a => exact .ret
  | error e => exact .raise

theorem modify {f : σ → σ} (hf : ∀ s s', view s = view s' → view (f s) = view (f s')) :
    (Proc.modify f : Proc σ Q A ε Unit).Local view :=
  .read fun s s' hs => .write (hf s s' hs) .ret

/-- One segment of each. -/
theorem advance {s s' : σ} (hp : p.Matches view p') (hs : view s = view s') :
    view (p.advance s).1 = view (p'.advance s').1 ∧
      (p.advance s).2.Matches view (p'.advance s').2 := by
  induction hp generalizing s s' with
  | ret => exact ⟨hs, .returned⟩
  | raise => exact ⟨hs, .raised⟩
  | read _ ih => exact ih s s' hs hs
  | write hs' _ ih => exact ih hs'
  | await h _ => exact ⟨hs, .awaiting h⟩

end Proc.Matches

/-- Coroutines that match look the same from outside. -/
theorem Yield.Matches.stop {y y' : Yield σ Q A ε α} (h : y.Matches view y') : y.stop = y'.stop := by
  cases h <;> rfl

namespace Proc.Spares

variable {p : Proc σ Q A ε α} {v : V}

/-- Reading changes nothing. -/
theorem read {k : σ → Proc σ Q A ε α} (h : ∀ s, view s = v → (k s).Spares view v) :
    (Proc.read k).Spares view v := h

/-- Waiting changes nothing. -/
theorem await {q : Q} {k : A q → Proc σ Q A ε α} (h : ∀ a v, (k a).Spares view v) :
    (Proc.await q k).Spares view v := fun v a => h a v

theorem modify {f : σ → σ} (hf : ∀ s, view (f s) = view s) :
    (Proc.modify f : Proc σ Q A ε Unit).Spares view v :=
  fun s hs => ⟨(hf s).trans hs, trivial⟩

/-- A composition spares what its parts spare. -/
theorem bind {f : α → Proc σ Q A ε β} (hp : p.Spares view v)
    (hf : ∀ a v, (f a).Spares view v) : (p.bind f).Spares view v := by
  induction p generalizing v with
  | ret a => exact hf a v
  | raise e => trivial
  | read k ih => exact fun s hs => ih s (hp s hs)
  | write s p ih => exact ⟨hp.1, ih hp.2⟩
  | await q k ih => exact fun v a => ih a (hp v a)

/-- So does a clean-up that leaves the view alone. -/
theorem ensuring {f : σ → σ} (hp : p.Spares view v) (hf : ∀ s, view (f s) = view s) :
    (p.ensuring f).Spares view v := by
  induction p generalizing v with
  | ret a => exact fun s hs => ⟨(hf s).trans hs, trivial⟩
  | raise e => exact fun s hs => ⟨(hf s).trans hs, trivial⟩
  | read k ih => exact fun s hs => ih s (hp s hs)
  | write s p ih => exact ⟨hp.1, ih hp.2⟩
  | await q k ih => exact fun v a => ih a (hp v a)

/-- Renaming questions and errors changes nothing of it. -/
theorem embed (hp : p.Spares view v) (f : Q → Q') (back : (q : Q) → A' (f q) → A q) (g : ε → ε') :
    (p.embed f back g).Spares view v := by
  induction p generalizing v with
  | ret a => trivial
  | raise e => trivial
  | read k ih => exact fun s hs => ih s (hp s hs)
  | write s p ih => exact ⟨hp.1, ih hp.2⟩
  | await q k ih => exact fun v a => ih (back q a) (hp v (back q a))

/-- Holding a lock that is not part of the view is not seen. -/
theorem withLock {K : Locks σ Q L} {l : L} (hp : ∀ v, p.Spares view v)
    (hset : ∀ s b, view (K.set s l b) = view s) : (K.withLock l p).Spares view v := by
  intro v a s hs
  exact ⟨(hset s true).trans hs, (hp v).ensuring fun s => hset s false⟩

/-- One segment. -/
theorem advance {s : σ} (hp : p.Spares view (view s)) :
    view (p.advance s).1 = view s ∧ (p.advance s).2.Spares view := by
  induction p generalizing s with
  | ret a => exact ⟨rfl, trivial⟩
  | raise e => exact ⟨rfl, trivial⟩
  | read k ih => exact ih s (hp s rfl)
  | write s' p ih =>
      rcases hp with ⟨hs', hp⟩
      rw [← hs'] at hp ⊢
      exact ih hp
  | await q k _ => exact ⟨rfl, hp⟩

end Proc.Spares

/-- A procedure that does nothing but to delegate calls spares what they spare. -/
theorem Proc.Delegates.spares {prog : D → Proc σ Q A ε β} {f : Q → Q'}
    {back : (q : Q) → A' (f q) → A q} {P : D → Prop} {p : Proc σ Q' A' ε' α}
    (hp : p.Delegates prog f back P) (hprog : ∀ d v, P d → (prog d).Spares view v) (v : V) :
    p.Spares view v := by
  induction hp generalizing v with
  | ret => trivial
  | raise => trivial
  | read _ ih => exact fun s _ => ih s v
  | await _ ih => exact fun v a => ih a v
  | call hd _ ih => exact ((hprog _ v hd).embed f back _).bind ih

end Observer

/-! ## Systems and an observer -/

section Erasure

variable (prog : C → Proc σ Q A ε α) (view : σ → V) (own : ℕ → Bool)

/-- The steps of the own threads. -/
def ownSteps (xs : List (Step C Q A)) : List (Step C Q A) := xs.filter fun x => own x.thread

/-- A call that starts in an own thread depends on what is seen only, and one that
starts in another thread spares it. -/
def Parted (t : Sys C σ Q A ε α) : Step C Q A → Prop
  | .call i c => t.threads i = none →
      if own i then (prog c).Local view else ∀ v, (prog c).Spares view v
  | .resume _ _ => True

/-- Two threads of one call that stand at matching points. -/
structure Thread.Matches (th th' : Thread C σ Q A ε α) : Prop where
  call : th.call = th'.call
  now : th.now.Matches view th'.now

/-- To the observer, `u` is `t` without the threads of others. -/
structure Erased (t u : Sys C σ Q A ε α) : Prop where
  shared : view t.shared = view u.shared
  trace : (t.trace.filter fun l => own l.thread) = u.trace
  threads : ∀ i, own i = true → Option.Rel (Thread.Matches view) (t.threads i) (u.threads i)
  others : ∀ i th, own i = false → t.threads i = some th → th.now.Spares view

variable {prog view own} {t u : Sys C σ Q A ε α}

/-- Nothing is to be erased before the first step. -/
theorem erased_init {s s' : σ} (h : view s = view s') :
    Erased view own (init s : Sys C σ Q A ε α) (init s') where
  shared := h
  trace := rfl
  threads := fun _ _ => .none
  others := by
    intro i th _ hth
    cases hth

/-- A segment of an own thread, on both sides. -/
theorem Erased.land_own (h : Erased view own t u) {F G : Firing C σ Q A ε α}
    (hown : own F.thread = true) (hthread : F.thread = G.thread) (hcall : F.call = G.call)
    (hinput : F.input = G.input) (hshared : view F.landing.1 = view G.landing.1)
    (hnow : F.landing.2.Matches view G.landing.2) : Erased view own (t.land F) (u.land G) where
  shared := hshared
  trace := by
    -- both sides record the same step
    have hlabel : F.label = G.label := by
      simp only [Firing.label, hthread, hcall, hinput, hnow.stop]
    have hkept : own F.label.thread = true := hown
    simp only [Sys.land, World.push_trace, List.filter_append, h.trace, ← hlabel]
    simp [hkept]
  threads := by
    intro i hi
    -- the thread that moved matches anew, the others as before
    by_cases hF : i = F.thread
    · subst hF
      simp only [Sys.land]
      rw [Function.update_self, hthread, Function.update_self]
      exact .some ⟨hcall, hnow⟩
    · have hG : i ≠ G.thread := hthread ▸ hF
      simp only [Sys.land]
      rw [Function.update_of_ne hF, Function.update_of_ne hG]
      exact h.threads i hi
  others := by
    intro i th hi hth
    have hF : i ≠ F.thread := by
      rintro rfl
      rw [hown] at hi
      cases hi
    simp only [Sys.land, Function.update_of_ne hF] at hth
    exact h.others i th hi hth

/-- A segment of another thread. -/
theorem Erased.land_other (h : Erased view own t u) {F : Firing C σ Q A ε α}
    (hother : own F.thread = false) (hshared : view F.landing.1 = view t.shared)
    (hnow : F.landing.2.Spares view) : Erased view own (t.land F) u where
  shared := hshared.trans h.shared
  trace := by
    -- the step is not recorded on the other side
    have hdropped : own F.label.thread = false := hother
    simp only [Sys.land, World.push_trace, List.filter_append, h.trace]
    simp [hdropped]
  threads := by
    intro i hi
    have hF : i ≠ F.thread := by
      rintro rfl
      rw [hother] at hi
      cases hi
    simp only [Sys.land, Function.update_of_ne hF]
    exact h.threads i hi
  others := by
    intro i th hi hth
    by_cases hF : i = F.thread
    · subst hF
      simp only [Sys.land, Function.update_self, Option.some.injEq] at hth
      subst hth
      exact hnow
    · simp only [Sys.land, Function.update_of_ne hF] at hth
      exact h.others i th hi hth

/-- A step of a thread that is kept is taken on both sides. -/
theorem erased_step_own (h : Erased view own t u) {x : Step C Q A} (hown : own x.thread = true)
    (hx : Parted prog view own t x) : Erased view own (next prog t x) (next prog u x) := by
  have hrel := h.threads x.thread hown
  cases x with
  | call i c =>
      -- the number is in use on both sides or on neither
      cases ht : t.threads i with
      | some th =>
          rw [Step.thread, ht] at hrel
          cases hu : u.threads i with
          | none =>
              rw [hu] at hrel
              cases hrel
          | some th' =>
              simp only [next, fire, ht, hu]
              exact h
      | none =>
          rw [Step.thread, ht] at hrel
          cases hu : u.threads i with
          | some th' =>
              rw [hu] at hrel
              cases hrel
          | none =>
              have hc : (prog c).Local view := by
                have hparted := hx ht
                rwa [if_pos (show own i = true from hown)] at hparted
              rcases hc.advance h.shared with ⟨hshared, hnow⟩
              simp only [next, fire, ht, hu]
              exact h.land_own hown rfl rfl rfl hshared hnow
  | resume i reply =>
      simp only [Step.thread] at hown hrel
      cases ht : t.threads i with
      | none =>
          cases hu : u.threads i with
          | none =>
              simp only [next, fire, ht, hu]
              exact h
          | some th' =>
              rw [ht, hu] at hrel
              cases hrel
      | some th =>
          cases hu : u.threads i with
          | none =>
              rw [ht, hu] at hrel
              cases hrel
          | some th' =>
              rw [ht, hu] at hrel
              cases hrel with
              | some hth =>
                  rcases th with ⟨c, y⟩
                  rcases th' with ⟨c', y'⟩
                  rcases hth with ⟨rfl, hy⟩
                  cases hy with
                  | returned =>
                      simp only [next, fire, ht, hu]
                      exact h
                  | raised =>
                      simp only [next, fire, ht, hu]
                      exact h
                  | awaiting hk =>
                      rcases (hk (reply _)).advance h.shared with ⟨hshared, hnow⟩
                      simp only [next, fire, ht, hu]
                      exact h.land_own hown rfl rfl rfl hshared hnow

/-- A step of any other thread is taken on one side and not seen on the other. -/
theorem erased_step_other (h : Erased view own t u) {x : Step C Q A}
    (hother : own x.thread = false) (hx : Parted prog view own t x) :
    Erased view own (next prog t x) u := by
  cases hfire : fire prog t x with
  -- a step that is not taken changes nothing
  | none =>
      simp only [next, hfire]
      exact h
  | some F =>
      simp only [next, hfire]
      cases x with
      | call i c =>
          rcases fire_call_eq_some.1 hfire with ⟨hi, rfl⟩
          -- a call of another place spares the view
          have hc : (prog c).Spares view (view t.shared) := by
            have hparted := hx hi
            rw [if_neg (by rw [show own i = false from hother]; simp)] at hparted
            exact hparted _
          rcases hc.advance with ⟨hshared, hnow⟩
          exact h.land_other hother hshared hnow
      | resume i reply =>
          rcases fire_resume_eq_some.1 hfire with ⟨c, q, k, hi, rfl⟩
          have hk := h.others i _ hother hi (view t.shared) (reply q)
          rcases hk.advance with ⟨hshared, hnow⟩
          exact h.land_other hother hshared hnow

/-- One step: it is one of both sides, or of the first one. -/
theorem erased_step (h : Erased view own t u) {x : Step C Q A} (hx : Parted prog view own t x) :
    Erased view own (next prog t x) (run prog u (ownSteps own [x])) := by
  by_cases hown : own x.thread = true
  · have hkept : ownSteps own [x] = [x] := by simp [ownSteps, hown]
    rw [hkept]
    exact erased_step_own h hown hx
  · have hkept : ownSteps own [x] = [] := by simp [ownSteps, hown]
    rw [hkept]
    exact erased_step_other h (Bool.eq_false_iff.2 hown) hx

/-- Both runs agree after any number of steps. -/
theorem erased_run (h : Erased view own t u) (xs : List (Step C Q A))
    (hxs : Along prog (Parted prog view own) t xs) :
    Erased view own (run prog t xs) (run prog u (ownSteps own xs)) := by
  induction xs using List.reverseRecOn with
  | nil => exact h
  | append_singleton xs x ih =>
      rw [run_snoc, ownSteps, List.filter_append, run_append]
      exact erased_step (ih hxs.of_append) hxs.last

/-- While all calls that start spare what is seen, it stays as it is. -/
theorem spared_run {s : σ} {xs : List (Step C Q A)}
    (hxs : Along prog (fun t x => ∀ i c, x = .call i c → t.threads i = none →
      ∀ v, (prog c).Spares view v) (init s) xs) :
    view (run prog (init s) xs).shared = view s := by
  have hparted : Along prog (Parted prog view fun _ => false) (init s) xs := by
    intro pre x post hsplit
    cases x with
    | call i c =>
        intro hi
        simpa using hxs pre _ post hsplit i c rfl hi
    | resume i reply => trivial
  have hnone : ownSteps (fun _ => false) xs = [] := by simp [ownSteps]
  have herased : Erased view (fun _ => false) (run prog (init s) xs)
      (run prog (init s) (ownSteps (fun _ => false) xs)) :=
    erased_run (erased_init rfl) xs hparted
  rw [hnone] at herased
  exact herased.shared

end Erasure

/-! ## Which call a thread is -/

section Called

/-- The call that the step starts the thread `i` with, if any. -/
def Step.starts? (i : ℕ) : Step C Q A → Option C
  | .call j c => if j = i then some c else none
  | .resume _ _ => none

/-- The call that the schedule starts the thread `i` with, if any. -/
def called (xs : List (Step C Q A)) (i : ℕ) : Option C := xs.findSome? (Step.starts? i)

/-- A step of one thread starts no other. -/
theorem Step.starts?_of_ne {i : ℕ} {x : Step C Q A} (h : x.thread ≠ i) : x.starts? i = none := by
  cases x with
  | call j c => exact if_neg h
  | resume j reply => rfl

theorem called_cons (x : Step C Q A) (xs : List (Step C Q A)) (i : ℕ) :
    called (x :: xs) i = (x.starts? i).or (called xs i) := by
  rw [called, List.findSome?_cons]
  cases x.starts? i <;> rfl

/-- The call of a thread is the first that was made under its number. -/
theorem called_append (xs ys : List (Step C Q A)) (i : ℕ) :
    called (xs ++ ys) i = (called xs i).or (called ys i) :=
  List.findSome?_append

variable {prog : C → Proc σ Q A ε α}

/-- A thread that has been called is there. -/
theorem called_of_fresh {s : σ} {xs : List (Step C Q A)} {i : ℕ}
    (h : (run prog (init s) xs).threads i = none) : called xs i = none := by
  induction xs using List.reverseRecOn with
  | nil => rfl
  | append_singleton xs x ih =>
      rw [run_snoc, next] at h
      -- the thread was not in use before the last step either
      have hlast : (run prog (init s) xs).threads i = none ∧ x.starts? i = none := by
        cases hfire : fire prog (run prog (init s) xs) x with
        | none =>
            rw [hfire] at h
            have hfresh : (run prog (init s) xs).threads i = none := h
            refine ⟨hfresh, ?_⟩
            cases x with
            | resume j reply => rfl
            | call j c =>
                apply Step.starts?_of_ne
                intro hj
                have hcall : (run prog (init s) xs).threads j = none := by
                  rw [show j = i from hj, hfresh]
                rw [fire_call_eq_some.2 ⟨hcall, rfl⟩] at hfire
                cases hfire
        | some F =>
            rw [hfire] at h
            by_cases hF : i = F.thread
            · subst hF
              simp [Sys.land] at h
            · simp only [Sys.land, Function.update_of_ne hF] at h
              refine ⟨h, ?_⟩
              cases x with
              | resume j reply => rfl
              | call j c =>
                  rcases fire_call_eq_some.1 hfire with ⟨-, rfl⟩
                  exact Step.starts?_of_ne (Ne.symm hF)
      rw [called_append, ih hlast.1, called_cons, hlast.2]
      rfl

/-- A call that starts is the one that its thread is called with. -/
theorem called_of_starts {s : σ} {pre post : List (Step C Q A)} {i : ℕ} {c : C}
    (h : (run prog (init s) pre).threads i = none) :
    called (pre ++ .call i c :: post) i = some c := by
  have hstarts : (Step.call i c : Step C Q A).starts? i = some c := if_pos rfl
  rw [called_append, called_of_fresh h, called_cons, hstarts]
  rfl

/-- Own threads are called with the same when the steps of others are left out. -/
theorem called_ownSteps {own : ℕ → Bool} {i : ℕ} (hi : own i = true) (xs : List (Step C Q A)) :
    called (ownSteps own xs) i = called xs i := by
  induction xs with
  | nil => rfl
  | cons x xs ih =>
      by_cases hx : own x.thread = true
      · have hown : ownSteps own (x :: xs) = x :: ownSteps own xs := by simp [ownSteps, hx]
        rw [hown, called_cons, called_cons, ih]
      · have hown : ownSteps own (x :: xs) = ownSteps own xs := by simp [ownSteps, hx]
        have hne : x.thread ≠ i := by
          rintro rfl
          exact hx hi
        rw [hown, called_cons, Step.starts?_of_ne hne, ih]
        rfl

end Called

/-! ## Own calls -/

section Own

variable {prog : C → Proc σ Q A ε α} {view : σ → V} {own : C → Bool} {s s' : σ}

/-- The threads of own calls. -/
def ownThreads (own : C → Bool) (xs : List (Step C Q A)) (i : ℕ) : Bool := (called xs i).any own

/-- A thread is kept when its call is. -/
theorem ownThreads_of_starts {pre post : List (Step C Q A)} {i : ℕ} {c : C}
    (h : (run prog (init s) pre).threads i = none) :
    ownThreads own (pre ++ .call i c :: post) i = own c := by
  rw [ownThreads, called_of_starts h, Option.any_some]

/-- The run without the calls of others, as the observer sees it. -/
theorem erased_calls (hown : ∀ c, own c = true → (prog c).Local view)
    (hothers : ∀ c, own c = false → ∀ v, (prog c).Spares view v) (hs : view s = view s')
    (xs : List (Step C Q A)) :
    Erased view (ownThreads own xs) (run prog (init s) xs)
      (run prog (init s') (ownSteps (ownThreads own xs) xs)) := by
  apply erased_run (erased_init hs) xs
  intro pre x post hxs
  -- only a call can be parted or not; answers follow their threads
  cases x with
  | resume j reply => trivial
  | call j c =>
      intro hj
      subst hxs
      rw [ownThreads_of_starts hj]
      split
      · rename_i hc
        exact hown c hc
      · rename_i hc
        exact hothers c (Bool.eq_false_iff.2 hc)

/-- What the own calls spare is not changed without the others. -/
theorem spared_ownSteps (hspares : ∀ c, own c = true → ∀ v, (prog c).Spares view v) (s : σ)
    (xs : List (Step C Q A)) :
    view (run prog (init s) (ownSteps (ownThreads own xs) xs)).shared = view s := by
  apply spared_run
  intro pre x post hsplit i c hx hi
  subst hx
  apply hspares
  have hthread : ownThreads own xs i = true := by
    have hmem : Step.call i c ∈ ownSteps (ownThreads own xs) xs := by simp [hsplit]
    exact (List.mem_filter.1 hmem).2
  have hcalled : called xs i = some c := by
    rw [← called_ownSteps hthread, hsplit, called_of_starts hi]
  rwa [ownThreads, hcalled, Option.any_some] at hthread

end Own

end Coop
