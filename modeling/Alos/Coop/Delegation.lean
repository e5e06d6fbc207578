import Mathlib.Data.Nat.Pairing
import Alos.Coop.Embed
import Alos.Coop.Lock

/-! # Systems over systems

Calls that do nothing to the shared state but to run calls of another system, one
after the other, among whatever else they read and ask.

* `Proc.Delegates` says so of a procedure, and its lemmas follow the way in which
  procedures are put together;
* `Represents` connects such a system with the other one: a call that is
  suspended within a call it has delegated is a thread of the other system;
* `delegation_step` is what one step of the outer system is in the inner one;
* `delegation_refines`: every run of the outer system is one of the inner system,
  over the same states.
-/

namespace Coop

variable {σ Q Q' : Type} {A : Q → Type} {A' : Q' → Type} {ε ε' α β γ : Type} {C D : Type}

section Delegates

variable (prog : D → Proc σ Q A ε β) (f : Q → Q') (back : (q : Q) → A' (f q) → A q)

/-- The state is changed by calls of `prog` only, all of which meet `P`. -/
inductive Proc.Delegates (P : D → Prop) : Proc σ Q' A' ε' α → Prop where
  | ret {a} : Delegates P (.ret a)
  | raise {e} : Delegates P (.raise e)
  | read {k} (h : ∀ s, Delegates P (k s)) : Delegates P (.read k)
  | await {q k} (h : ∀ a, Delegates P (k a)) : Delegates P (.await q k)
  | call {d g k} (hd : P d) (h : ∀ b, Delegates P (k b)) :
      Delegates P (((prog d).embed f back g).bind k)

variable {prog f back} {P : D → Prop}

namespace Proc.Delegates

theorem bind {p : Proc σ Q' A' ε' α} {h : α → Proc σ Q' A' ε' γ} (hp : p.Delegates prog f back P)
    (hh : ∀ a, (h a).Delegates prog f back P) : (p.bind h).Delegates prog f back P := by
  induction hp with
  | ret => exact hh _
  | raise => exact .raise
  | read _ ih => exact .read ih
  | await _ ih => exact .await ih
  | call hd _ ih =>
      rw [Proc.bind_assoc]
      exact .call hd ih

/-- What follows a value is reached with the value. -/
theorem ofExcept {x : Except ε' α} {h : α → Proc σ Q' A' ε' γ}
    (hh : ∀ a, x = .ok a → (h a).Delegates prog f back P) :
    ((Proc.ofExcept x).bind h).Delegates prog f back P := by
  cases x with
  | ok a => exact hh a rfl
  | error e => exact .raise

end Proc.Delegates

/-- Within a larger environment, a procedure delegates what it did. -/
theorem Proc.embed_embed {Q'' ε'' : Type} {A'' : Q'' → Type} (f' : Q' → Q'')
    (back' : (q : Q') → A'' (f' q) → A' q) (g : ε → ε') (g' : ε' → ε'') (p : Proc σ Q A ε α) :
    (p.embed f back g).embed f' back' g' =
      p.embed (f' ∘ f) (fun q a => back q (back' (f q) a)) (g' ∘ g) := by
  induction p with
  | ret a => rfl
  | raise e => rfl
  | read k ih => exact congrArg _ (funext ih)
  | write s p ih => exact congrArg _ ih
  | await q k ih => exact congrArg _ (funext fun a => ih (back q (back' (f q) a)))

theorem Proc.Delegates.embed {Q'' ε'' : Type} {p : Proc σ Q' A' ε' α}
    (hp : p.Delegates prog f back P) (A'' : Q'' → Type) (f' : Q' → Q'')
    (back' : (q : Q') → A'' (f' q) → A' q) (g' : ε' → ε'') :
    (p.embed f' back' g').Delegates prog (f' ∘ f) (fun q a => back q (back' (f q) a)) P := by
  -- on the derivation; a call stays the call it was
  induction hp with
  | ret => exact .ret
  | raise => exact .raise
  | read _ ih => exact .read ih
  | await _ ih => exact .await fun a => ih (back' _ a)
  | call hd _ ih =>
      rw [Proc.embed_bind, Proc.embed_embed]
      exact .call hd ih

end Delegates

/-! ## One system over the other -/

section Represents

variable (prog : D → Proc σ Q A ε β) (f : Q → Q') (back : (q : Q) → A' (f q) → A q)
  (P : D → Prop) (R : σ → Q → Prop)

/-- The steps of the inner system: calls that meet `P`, and answers to questions
that are ready for them. -/
def Admits (u : Sys D σ Q A ε β) : Step D Q A → Prop
  | .call _ d => P d
  | .resume j _ => ∀ th, u.threads j = some th → ∀ q, th.now.stop = .awaiting q → R u.shared q

/-- Questions of the inner system are answered when they are ready for it. -/
def Answers (t : Sys C σ Q' A' ε' α) : Step C Q' A' → Prop
  | .call _ _ => True
  | .resume i _ => ∀ th, t.threads i = some th → ∀ q, th.now.stop = .awaiting (f q) →
      R t.shared q

/-- Where the outer call `i` stands, which has delegated fewer than `n` calls: the
call that it waits within is a thread of the inner system. -/
inductive Yield.Stands (threads : ℕ → Option (Thread D σ Q A ε β)) (i n : ℕ) :
    Yield σ Q' A' ε' α → Prop where
  | returned {a} : Stands threads i n (.returned a)
  | raised {e} : Stands threads i n (.raised e)
  | idle {q k} (h : ∀ a, (k a).Delegates prog f back P) : Stands threads i n (.awaiting q k)
  | within {m d q k g next} (hm : m < n)
      (hthread : threads (Nat.pair i m) = some ⟨d, .awaiting q k⟩)
      (h : ∀ b, (next b).Delegates prog f back P) :
      Stands threads i n (.awaiting (f q) fun a => ((k (back q a)).embed f back g).bind next)

/-- The inner system `u` is where the calls that `t` has delegated have led. -/
structure Represents (t : Sys C σ Q' A' ε' α) (u : Sys D σ Q A ε β) : Prop where
  shared : u.shared = t.shared
  stands : ∀ i, ∃ n, (∀ m, n ≤ m → u.threads (Nat.pair i m) = none) ∧
    ∀ th, t.threads i = some th → th.now.Stands prog f back P u.threads i n

variable {prog f back P R}

theorem represents_init (s : σ) :
    Represents prog f back P (init s : Sys C σ Q' A' ε' α) (init s) where
  shared := rfl
  stands := by
    intro i
    refine ⟨0, fun _ _ => rfl, ?_⟩
    intro th hth
    cases hth

/-- Only the threads of the call itself matter. -/
theorem Yield.Stands.congr {threads threads' : ℕ → Option (Thread D σ Q A ε β)} {i n : ℕ}
    {y : Yield σ Q' A' ε' α} (h : y.Stands prog f back P threads i n)
    (hsame : ∀ m, threads' (Nat.pair i m) = threads (Nat.pair i m)) :
    y.Stands prog f back P threads' i n := by
  cases h with
  | returned => exact .returned
  | raised => exact .raised
  | idle h => exact .idle h
  | within hm hthread h => exact .within hm (by rw [hsame, hthread]) h

variable (prog f back P R) in
/-- What a segment of the outer call `i`, which leaves the state `s'` and stands
at `y`, is in the inner system `u`: the steps `ys`. -/
structure Segment (i : ℕ) (u : Sys D σ Q A ε β) (ys : List (Step D Q A)) (s' : σ)
    (y : Yield σ Q' A' ε' α) : Prop where
  shared : (run prog u ys).shared = s'
  stands : ∃ n, (∀ m, n ≤ m → (run prog u ys).threads (Nat.pair i m) = none) ∧
    y.Stands prog f back P (run prog u ys).threads i n
  others : ∀ j m, j ≠ i → (run prog u ys).threads (Nat.pair j m) = u.threads (Nat.pair j m)
  admits : Along prog (Admits P R) u ys

section Segments

variable {i m n : ℕ} {u : Sys D σ Q A ε β} {x : Step D Q A} {ys : List (Step D Q A)} {s s' : σ}
  {y : Yield σ Q' A' ε' α}

/-- A segment that does nothing to the state. -/
theorem Segment.nil (hfresh : ∀ m, n ≤ m → u.threads (Nat.pair i m) = none)
    (hstands : y.Stands prog f back P u.threads i n) :
    Segment prog f back P R i u [] u.shared y where
  shared := rfl
  stands := ⟨n, hfresh, hstands⟩
  others := fun _ _ _ => rfl
  admits := along_nil _ _

/-- A step of the call `i` comes before a segment of it. -/
theorem Segment.cons (h : Segment prog f back P R i (next prog u x) ys s' y)
    (hothers : ∀ j m, j ≠ i → (next prog u x).threads (Nat.pair j m) = u.threads (Nat.pair j m))
    (hadmits : Admits P R u x) : Segment prog f back P R i u (x :: ys) s' y where
  shared := h.shared
  stands := h.stands
  others := by
    intro j m hj
    rw [run_cons, h.others j m hj, hothers j m hj]
  admits := h.admits.cons hadmits

/-- The call `d` has come to the end of a segment, as the call `(i, m)` of the inner
system: what follows it is delegated in turn, if it is over. -/
theorem Segment.landed {d : D} {g : ε → ε'} {p : Proc σ Q A ε β} {next : β → Proc σ Q' A' ε' α}
    (hshared : u.shared = (p.advance s).1)
    (hthread : u.threads (Nat.pair i m) = some ⟨d, (p.advance s).2⟩) (hm : m < n)
    (hfresh : ∀ m, n ≤ m → u.threads (Nat.pair i m) = none)
    (h : ∀ b, (next b).Delegates prog f back P)
    (hnext : ∀ b, ∃ ys, Segment prog f back P R i u ys ((next b).advance u.shared).1
      ((next b).advance u.shared).2) :
    ∃ ys, Segment prog f back P R i u ys (((p.embed f back g).bind next).advance s).1
      (((p.embed f back g).bind next).advance s).2 := by
  rw [Proc.advance_bind, Proc.advance_embed]
  generalize p.advance s = landing at hshared hthread
  rcases landing with ⟨s', y⟩
  simp only at hshared hthread
  subst hshared
  -- whether the inner call is over decides where the outer one stands
  cases y with
  | returned b => exact hnext b
  | raised e => exact ⟨[], .nil hfresh .raised⟩
  | awaiting q k => exact ⟨[], .nil hfresh (.within hm hthread h)⟩

theorem pair_ne {j m' : ℕ} (hj : j ≠ i) : Nat.pair j m' ≠ Nat.pair i m := by
  intro heq
  exact hj (Nat.pair_eq_pair.1 heq).1

/-- Every segment of a procedure that delegates, by induction on the way in which
it is put together. -/
theorem Proc.Delegates.segment {p : Proc σ Q' A' ε' α} (h : p.Delegates prog f back P)
    (hfresh : ∀ m, n ≤ m → u.threads (Nat.pair i m) = none) :
    ∃ ys, Segment prog f back P R i u ys (p.advance u.shared).1 (p.advance u.shared).2 := by
  induction h generalizing u n with
  | ret => exact ⟨[], .nil hfresh .returned⟩
  | raise => exact ⟨[], .nil hfresh .raised⟩
  | read _ ih => exact ih u.shared hfresh
  | await h _ => exact ⟨[], .nil hfresh (.idle h)⟩
  -- the call gets a number of its own, the next free one of the thread
  | @call d g k hd h ih =>
      have hnone : u.threads (Nat.pair i n) = none := hfresh n (le_refl n)
      have hnext : next prog u (.call (Nat.pair i n) d) =
          u.land ⟨Nat.pair i n, d, .start, (prog d).advance u.shared⟩ := by
        rw [next, fire_call_eq_some.2 ⟨hnone, rfl⟩]
      have hfresh' : ∀ m, n + 1 ≤ m →
          (next prog u (.call (Nat.pair i n) d)).threads (Nat.pair i m) = none := by
        intro m hm
        rw [hnext]
        refine (Function.update_of_ne ?_ _ _).trans (hfresh m (by omega))
        intro heq
        have hmn := (Nat.pair_eq_pair.1 heq).2
        omega
      have hothers : ∀ j m, j ≠ i →
          (next prog u (.call (Nat.pair i n) d)).threads (Nat.pair j m) =
            u.threads (Nat.pair j m) := by
        intro j m hj
        rw [hnext]
        exact Function.update_of_ne (pair_ne hj) _ _
      have hthread : (next prog u (.call (Nat.pair i n) d)).threads (Nat.pair i n) =
          some ⟨d, ((prog d).advance u.shared).2⟩ := by
        rw [hnext]
        exact Function.update_self ..
      have hshared : (next prog u (.call (Nat.pair i n) d)).shared =
          ((prog d).advance u.shared).1 := by
        rw [hnext]
        rfl
      rcases Segment.landed (R := R) (g := g) hshared hthread (Nat.lt_succ_self n) hfresh' h
        (fun b => ih b hfresh') with ⟨ys, hys⟩
      exact ⟨_, hys.cons hothers hd⟩

/-- The segment that the answer to a suspended call lets run. -/
theorem Yield.Stands.resumed {q' : Q'} {k' : A' q' → Proc σ Q' A' ε' α}
    (h : Yield.Stands prog f back P u.threads i n (.awaiting q' k'))
    (hfresh : ∀ m, n ≤ m → u.threads (Nat.pair i m) = none) (reply : (q : Q') → A' q)
    (hready : ∀ q, q' = f q → R u.shared q) :
    ∃ ys, Segment prog f back P R i u ys ((k' (reply q')).advance u.shared).1
      ((k' (reply q')).advance u.shared).2 := by
  cases h with
  -- nobody is called: the answer is for the outer coroutine
  | idle h => exact (h (reply q')).segment hfresh
  -- the answer goes to the call it stands in
  | @within m d q k g next' hm hthread h =>
      let answer : (q : Q) → A q := fun q => back q (reply (f q))
      have hnext : next prog u (.resume (Nat.pair i m) answer) =
          u.land ⟨Nat.pair i m, d, .answer ⟨q, answer q⟩, (k (answer q)).advance u.shared⟩ := by
        rw [next, fire_resume_eq_some.2 ⟨d, q, k, hthread, rfl⟩]
      have hfresh' : ∀ m', n ≤ m' →
          (next prog u (.resume (Nat.pair i m) answer)).threads (Nat.pair i m') = none := by
        intro m' hm'
        rw [hnext]
        refine (Function.update_of_ne ?_ _ _).trans (hfresh m' hm')
        intro heq
        have hmn := (Nat.pair_eq_pair.1 heq).2
        omega
      have hothers : ∀ j m', j ≠ i →
          (next prog u (.resume (Nat.pair i m) answer)).threads (Nat.pair j m') =
            u.threads (Nat.pair j m') := by
        intro j m' hj
        rw [hnext]
        exact Function.update_of_ne (pair_ne hj) _ _
      have hlanded : (next prog u (.resume (Nat.pair i m) answer)).threads (Nat.pair i m) =
          some ⟨d, ((k (answer q)).advance u.shared).2⟩ := by
        rw [hnext]
        exact Function.update_self ..
      have hshared : (next prog u (.resume (Nat.pair i m) answer)).shared =
          ((k (answer q)).advance u.shared).1 := by
        rw [hnext]
        rfl
      have hadmits : Admits P R u (.resume (Nat.pair i m) answer) := by
        intro th hth q₀ hq₀
        rw [hthread] at hth
        cases hth
        cases hq₀
        exact hready q rfl
      rcases Segment.landed (R := R) (g := g) hshared hlanded hm hfresh' h
        (fun b => (h b).segment hfresh') with ⟨ys, hys⟩
      exact ⟨_, hys.cons hothers hadmits⟩

end Segments

/-! ## Runs -/

theorem Along.append {K : Sys D σ Q A ε β → Step D Q A → Prop} {u : Sys D σ Q A ε β}
    {ys zs : List (Step D Q A)} (h : Along prog K u ys) (h' : Along prog K (run prog u ys) zs) :
    Along prog K u (ys ++ zs) := by
  induction ys generalizing u with
  | nil => exact h'
  | cons y ys ih =>
      have hrest : Along prog K (next prog u y) ys :=
        Along.after (show Along prog K u ([y] ++ ys) from h)
      exact (ih hrest h').cons (h [] y ys rfl)

section Runs

variable {prog' : C → Proc σ Q' A' ε' α} {t : Sys C σ Q' A' ε' α} {u : Sys D σ Q A ε β}

/-- A segment of the outer call `i` leaves the systems connected. -/
theorem Represents.land (h : Represents prog f back P t u) {F : Firing C σ Q' A' ε' α}
    {ys : List (Step D Q A)}
    (hys : Segment prog f back P R F.thread u ys F.landing.1 F.landing.2) :
    Represents prog f back P (t.land F) (run prog u ys) where
  shared := hys.shared
  stands := by
    intro j
    -- the thread that moved, then all the others
    by_cases hj : j = F.thread
    · subst hj
      rcases hys.stands with ⟨n, hfresh, hstands⟩
      refine ⟨n, hfresh, ?_⟩
      intro th hth
      simp only [Sys.land, Function.update_self, Option.some.injEq] at hth
      subst hth
      exact hstands
    · rcases h.stands j with ⟨n, hfresh, hstands⟩
      refine ⟨n, ?_, ?_⟩
      · intro m hm
        rw [hys.others j m hj, hfresh m hm]
      · intro th hth
        simp only [Sys.land, Function.update_of_ne hj] at hth
        exact (hstands th hth).congr fun m => hys.others j m hj

theorem delegation_step (h : Represents prog f back P t u) (x : Step C Q' A')
    (hprog : ∀ i c, x = .call i c → (prog' c).Delegates prog f back P)
    (hready : Answers f R t x) :
    ∃ ys, Along prog (Admits P R) u ys ∧
      Represents prog f back P (next prog' t x) (run prog u ys) := by
  cases hfire : fire prog' t x with
  -- a step that is not taken is answered by none
  | none =>
      simp only [next, hfire]
      exact ⟨[], along_nil _ _, h⟩
  | some F =>
      simp only [next, hfire]
      -- the steps of the inner system that stand for this one
      have hsegment : ∃ ys,
          Segment prog f back P R F.thread u ys F.landing.1 F.landing.2 := by
        cases x with
        | call i c =>
            rcases fire_call_eq_some.1 hfire with ⟨-, rfl⟩
            rcases h.stands i with ⟨n, hfresh, -⟩
            have hseg := (hprog i c rfl).segment (R := R) hfresh
            rwa [h.shared] at hseg
        | resume i reply =>
            rcases fire_resume_eq_some.1 hfire with ⟨c, q', k', hi, rfl⟩
            rcases h.stands i with ⟨n, hfresh, hstands⟩
            have hseg := (hstands _ hi).resumed (R := R) hfresh reply (by
              intro q hq
              rw [h.shared]
              exact hready _ hi q (congrArg Stop.awaiting hq))
            rwa [h.shared] at hseg
      rcases hsegment with ⟨ys, hys⟩
      exact ⟨ys, hys.admits, h.land hys⟩

/-- From connected systems on, every run of the outer one is a run of the inner
one. -/
theorem delegation_run (h : Represents prog f back P t u) (xs : List (Step C Q' A'))
    (hprog : ∀ i c, .call i c ∈ xs → (prog' c).Delegates prog f back P)
    (hready : Along prog' (Answers f R) t xs) :
    ∃ ys, Along prog (Admits P R) u ys ∧
      Represents prog f back P (run prog' t xs) (run prog u ys) := by
  induction xs using List.reverseRecOn with
  | nil => exact ⟨[], along_nil _ _, h⟩
  | append_singleton xs x ih =>
      rcases ih (fun i c hc => hprog i c (List.mem_append_left _ hc)) hready.of_append with
        ⟨ys, hys, hrun⟩
      rcases delegation_step hrun x (fun i c hx => hprog i c (by simp [hx])) hready.last with
        ⟨zs, hzs, hnext⟩
      refine ⟨ys ++ zs, hys.append hzs, ?_⟩
      rw [run_snoc, run_append]
      exact hnext

theorem delegation_refines (s : σ) (xs : List (Step C Q' A'))
    (hprog : ∀ i c, .call i c ∈ xs → (prog' c).Delegates prog f back P)
    (hready : Along prog' (Answers f R) (init s) xs) :
    ∃ ys, Along prog (Admits P R) (init s) ys ∧
      (run prog (init s) ys).shared = (run prog' (init s) xs).shared := by
  rcases delegation_run (represents_init s) xs hprog hready with ⟨ys, hys, hrun⟩
  exact ⟨ys, hys, hrun.shared⟩

end Runs

end Represents

end Coop
