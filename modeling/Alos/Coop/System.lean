import Mathlib.Data.List.Induction
import Mathlib.Logic.Function.Basic
import Alos.Coop.Proc

/-! # Interleaved runs of cooperative procedures

Any number of calls run against one shared state. A step of the system either
starts a call or delivers the answer a suspended call waits for; in both cases
exactly one segment of that call runs. The order of the steps and the answers
are the environment's choice, so a list of `Step`s is a schedule, and every
schedule is a run: a step that is not enabled does nothing.
-/

namespace Coop

variable {σ Q : Type} {A : Q → Type} {ε α : Type} {C : Type}

/-- What lets a segment run: the start of its call, or an answer. -/
inductive Input (Q : Type) (A : Q → Type) where
  | start
  | answer (x : Exchange Q A)

/-- The record of one segment: whose it was, what let it run, where it
stopped. -/
structure Label (C Q : Type) (A : Q → Type) (ε α : Type) where
  thread : ℕ
  call : C
  input : Input Q A
  stop : Stop Q ε α

/-- A call in the pool, suspended or finished. -/
structure Thread (C σ Q : Type) (A : Q → Type) (ε α : Type) where
  call : C
  now : Yield σ Q A ε α

/-- The shared state and the labels of all segments run so far, oldest first. -/
structure World (C σ Q : Type) (A : Q → Type) (ε α : Type) where
  shared : σ
  trace : List (Label C Q A ε α)

/-- The whole system: the world and the pool of calls. -/
structure Sys (C σ Q : Type) (A : Q → Type) (ε α : Type) extends World C σ Q A ε α where
  threads : ℕ → Option (Thread C σ Q A ε α)

/-- One choice of the scheduler and the environment. -/
inductive Step (C Q : Type) (A : Q → Type) where
  | call (i : ℕ) (c : C)
  | resume (i : ℕ) (reply : (q : Q) → A q)

/-- A segment that a step makes run: its thread, its input and its outcome. -/
structure Firing (C σ Q : Type) (A : Q → Type) (ε α : Type) where
  thread : ℕ
  call : C
  input : Input Q A
  landing : σ × Yield σ Q A ε α

/-- What is recorded of a firing. -/
def Firing.label (f : Firing C σ Q A ε α) : Label C Q A ε α :=
  ⟨f.thread, f.call, f.input, f.landing.2.stop⟩

/-- The world after a segment that left the state `s` and the label `l`. -/
def World.push (w : World C σ Q A ε α) (s : σ) (l : Label C Q A ε α) : World C σ Q A ε α :=
  ⟨s, w.trace ++ [l]⟩

/-- The labels of thread `i`. -/
def own (i : ℕ) (tr : List (Label C Q A ε α)) : List (Label C Q A ε α) :=
  tr.filter fun l => l.thread = i

@[simp] theorem World.push_shared (w : World C σ Q A ε α) (s : σ) (l : Label C Q A ε α) :
    (w.push s l).shared = s := rfl

@[simp] theorem World.push_trace (w : World C σ Q A ε α) (s : σ) (l : Label C Q A ε α) :
    (w.push s l).trace = w.trace ++ [l] := rfl

theorem World.filterMap_push {β : Type} (g : Label C Q A ε α → Option β) (w : World C σ Q A ε α)
    (s : σ) (l : Label C Q A ε α) :
    (w.push s l).trace.filterMap g = w.trace.filterMap g ++ (g l).toList := by
  rw [push_trace, List.filterMap_append]
  cases h : g l <;> simp [h]

/-- A step of a thread is the last of its own. -/
theorem own_append_self (tr : List (Label C Q A ε α)) (l : Label C Q A ε α) :
    own l.thread (tr ++ [l]) = own l.thread tr ++ [l] := by
  simp [own]

/-- A step of another thread is not. -/
theorem own_append_ne {i : ℕ} (tr : List (Label C Q A ε α)) {l : Label C Q A ε α}
    (h : l.thread ≠ i) : own i (tr ++ [l]) = own i tr := by
  simp [own, h]

/-- The steps of a thread among those recorded. -/
@[simp] theorem mem_own {i : ℕ} {tr : List (Label C Q A ε α)} {l : Label C Q A ε α} :
    l ∈ own i tr ↔ l ∈ tr ∧ l.thread = i := by
  simp [own]

section Run

variable (prog : C → Proc σ Q A ε α)

/-- The segment that step `x` makes run in `s`, if `x` is enabled. -/
def fire (s : Sys C σ Q A ε α) : Step C Q A → Option (Firing C σ Q A ε α)
  | .call i c =>
      match s.threads i with
      | none => some ⟨i, c, .start, (prog c).advance s.shared⟩
      | some _ => none
  | .resume i reply =>
      match s.threads i with
      | some ⟨c, .awaiting q k⟩ =>
          some ⟨i, c, .answer ⟨q, reply q⟩, (k (reply q)).advance s.shared⟩
      | _ => none

/-- The state after a firing: the shared part, the record and the thread. -/
def Sys.land (s : Sys C σ Q A ε α) (f : Firing C σ Q A ε α) : Sys C σ Q A ε α where
  toWorld := s.toWorld.push f.landing.1 f.label
  threads := Function.update s.threads f.thread (some ⟨f.call, f.landing.2⟩)

/-- One step of the system; a step that is not enabled changes nothing. -/
def next (s : Sys C σ Q A ε α) (x : Step C Q A) : Sys C σ Q A ε α :=
  match fire prog s x with
  | some f => s.land f
  | none => s

/-- The run of a schedule. -/
def run (s : Sys C σ Q A ε α) (xs : List (Step C Q A)) : Sys C σ Q A ε α :=
  xs.foldl (next prog) s

/-- Nothing has run yet. -/
def init (s : σ) : Sys C σ Q A ε α := ⟨⟨s, []⟩, fun _ => none⟩

@[simp] theorem run_nil (s : Sys C σ Q A ε α) : run prog s [] = s := rfl

@[simp] theorem run_cons (s : Sys C σ Q A ε α) (x : Step C Q A) (xs : List (Step C Q A)) :
    run prog s (x :: xs) = run prog (next prog s x) xs := rfl

/-- Runs are composed. -/
theorem run_append (s : Sys C σ Q A ε α) (xs ys : List (Step C Q A)) :
    run prog s (xs ++ ys) = run prog (run prog s xs) ys :=
  List.foldl_append

/-- A run ends with its last step. -/
theorem run_snoc (s : Sys C σ Q A ε α) (xs : List (Step C Q A)) (x : Step C Q A) :
    run prog s (xs ++ [x]) = next prog (run prog s xs) x := by
  rw [run_append]
  rfl

/-- The labels of a run stay. -/
theorem trace_extends (s : Sys C σ Q A ε α) (xs : List (Step C Q A)) :
    s.trace <+: (run prog s xs).trace := by
  induction xs using List.reverseRecOn with
  | nil => exact List.prefix_refl _
  | append_singleton xs x ih =>
      rw [run_snoc, next]
      cases fire prog (run prog s xs) x with
      | none => exact ih
      | some f => exact ih.trans (List.prefix_append ..)

/-- The call that a step lets run. -/
def Step.thread : Step C Q A → ℕ
  | .call i _ => i
  | .resume i _ => i

/-- The suspended call that a step lets go on. -/
def Step.resumed? : Step C Q A → Option ℕ
  | .call _ _ => none
  | .resume i _ => some i

/-- Every step of the schedule meets `P` in the state it is taken from. -/
def Along (P : Sys C σ Q A ε α → Step C Q A → Prop) (s : Sys C σ Q A ε α)
    (xs : List (Step C Q A)) : Prop :=
  ∀ pre x post, xs = pre ++ x :: post → P (run prog s pre) x

variable {prog}

/-- Nothing is asked of a run without steps. -/
theorem along_nil (P : Sys C σ Q A ε α → Step C Q A → Prop) (s : Sys C σ Q A ε α) :
    Along prog P s [] := by
  intro pre x post hxs
  simp at hxs

/-- A condition along a run holds of its first step and along the rest. -/
theorem Along.cons {P : Sys C σ Q A ε α → Step C Q A → Prop} {s : Sys C σ Q A ε α}
    {x : Step C Q A} {xs : List (Step C Q A)} (h : Along prog P (next prog s x) xs) (hx : P s x) :
    Along prog P s (x :: xs) := by
  intro pre y post hxs
  cases pre with
  | nil =>
      cases hxs
      exact hx
  | cons z pre =>
      cases hxs
      exact h pre y post rfl

/-- On a given schedule the conditions can be checked step by step. -/
instance Along.decidable (P : Sys C σ Q A ε α → Step C Q A → Prop) [∀ s x, Decidable (P s x)]
    (s : Sys C σ Q A ε α) : (xs : List (Step C Q A)) → Decidable (Along prog P s xs)
  | [] => isTrue (along_nil P s)
  | x :: xs =>
      if hx : P s x then
        match Along.decidable P (next prog s x) xs with
        | isTrue h => isTrue (h.cons hx)
        | isFalse h => isFalse fun h' => h (by
            intro pre y post hxs
            exact h' (x :: pre) y post (by rw [hxs]; rfl))
      else isFalse fun h' => hx (h' [] x xs rfl)

/-- Two conditions along a run hold together. -/
theorem Along.and {P P' : Sys C σ Q A ε α → Step C Q A → Prop} {s : Sys C σ Q A ε α}
    {xs : List (Step C Q A)} (h : Along prog P s xs) (h' : Along prog P' s xs) :
    Along prog (fun t x => P t x ∧ P' t x) s xs := by
  intro pre x post hxs
  exact ⟨h pre x post hxs, h' pre x post hxs⟩

/-- A condition along a run holds along its beginnings. -/
theorem Along.of_append {P : Sys C σ Q A ε α → Step C Q A → Prop} {s : Sys C σ Q A ε α}
    {xs ys : List (Step C Q A)} (h : Along prog P s (xs ++ ys)) : Along prog P s xs := by
  intro pre x post hxs
  exact h pre x (post ++ ys) (by simp [hxs])

/-- What is left of a schedule meets `P` from where its beginning has led. -/
theorem Along.after {P : Sys C σ Q A ε α → Step C Q A → Prop} {s : Sys C σ Q A ε α}
    {xs ys : List (Step C Q A)} (h : Along prog P s (xs ++ ys)) :
    Along prog P (run prog s xs) ys := by
  intro pre x post hys
  rw [← run_append]
  exact h (xs ++ pre) x post (by simp [hys])

/-- It holds of the last step, in the state before it. -/
theorem Along.last {P : Sys C σ Q A ε α → Step C Q A → Prop} {s : Sys C σ Q A ε α}
    {xs : List (Step C Q A)} {x : Step C Q A} (h : Along prog P s (xs ++ [x])) :
    P (run prog s xs) x :=
  h xs x [] rfl

/-- Where a list that ends with `x` can be split: at its end, or before. -/
theorem snoc_split {β : Type} {xs pre post : List β} {x y : β}
    (h : xs ++ [x] = pre ++ y :: post) :
    (pre = xs ∧ y = x) ∨ ∃ post', xs = pre ++ y :: post' := by
  -- either the split is at the last element, or `x` ends the second part
  rcases List.eq_nil_or_concat post with rfl | ⟨post', z, rfl⟩
  · have hlast := List.append_inj' h rfl
    cases hlast.2
    exact .inl ⟨hlast.1.symm, rfl⟩
  · rw [List.concat_eq_append, ← List.cons_append, ← List.append_assoc] at h
    exact .inr ⟨post', (List.append_inj' h rfl).1⟩

/-- A place in a list with one more element is that element or a place before. -/
theorem snoc_split_post {β : Type} {xs pre post : List β} {x y : β}
    (h : xs ++ [x] = pre ++ y :: post) :
    (pre = xs ∧ y = x) ∨ ∃ post', xs = pre ++ y :: post' ∧ post = post' ++ [x] := by
  rcases snoc_split h with hend | ⟨post', rfl⟩
  · exact .inl hend
  · rw [List.append_assoc, List.cons_append] at h
    exact .inr ⟨post', rfl, (List.cons.inj (List.append_cancel_left h)).2.symm⟩

/-- A condition along a run goes on with one more step. -/
theorem Along.snoc {P : Sys C σ Q A ε α → Step C Q A → Prop} {s : Sys C σ Q A ε α}
    {xs : List (Step C Q A)} {x : Step C Q A} (h : Along prog P s xs) (hx : P (run prog s xs) x) :
    Along prog P s (xs ++ [x]) := by
  intro pre y post hxs
  rcases snoc_split hxs with ⟨rfl, rfl⟩ | ⟨post', hxs'⟩
  · exact hx
  · exact h pre y post' hxs'

/-- Inductive invariance over the runs whose steps all meet `P`. -/
theorem run_invariant {P : Sys C σ Q A ε α → Step C Q A → Prop}
    {Inv : Sys C σ Q A ε α → Prop} {s : Sys C σ Q A ε α} (hinit : Inv s)
    (hstep : ∀ t x f, Inv t → P t x → fire prog t x = some f → Inv (t.land f))
    (xs : List (Step C Q A)) (hP : Along prog P s xs) : Inv (run prog s xs) := by
  -- a step that fires nothing leaves the state
  induction xs using List.reverseRecOn with
  | nil => exact hinit
  | append_singleton xs x ih =>
      rw [run_snoc, next]
      have hxs : Inv (run prog s xs) := ih hP.of_append
      cases hf : fire prog (run prog s xs) x with
      | none => exact hxs
      | some f => exact hstep _ x f hxs hP.last hf

/-- A call is taken when its number is not in use. -/
theorem fire_call_eq_some {s : Sys C σ Q A ε α} {i : ℕ} {c : C} {f : Firing C σ Q A ε α} :
    fire prog s (.call i c) = some f ↔
      s.threads i = none ∧ f = ⟨i, c, .start, (prog c).advance s.shared⟩ := by
  simp only [fire]
  split
  · rename_i hi
    simp [hi, eq_comm]
  · rename_i hi
    simp [hi]

/-- An answer is taken when the thread waits for one. -/
theorem fire_resume_eq_some {s : Sys C σ Q A ε α} {i : ℕ} {reply : (q : Q) → A q}
    {f : Firing C σ Q A ε α} :
    fire prog s (.resume i reply) = some f ↔
      ∃ c q k, s.threads i = some ⟨c, .awaiting q k⟩ ∧
        f = ⟨i, c, .answer ⟨q, reply q⟩, (k (reply q)).advance s.shared⟩ := by
  simp only [fire]
  -- the thread waits for a question, or there is nothing to answer
  split
  · rename_i c q k hi
    constructor
    · intro hf
      exact ⟨c, q, k, hi, (Option.some.inj hf).symm⟩
    · rintro ⟨c', q', k', hi', rfl⟩
      rw [hi] at hi'
      cases hi'
      rfl
  · rename_i hi
    constructor
    · intro hf
      cases hf
    · rintro ⟨c, q, k, hi', -⟩
      exact absurd hi' (hi c q k)

/-- An answer lets the call go on that waits for it. -/
theorem next_resume {s : Sys C σ Q A ε α} {i : ℕ} {c : C} {q : Q} {k : A q → Proc σ Q A ε α}
    (hi : s.threads i = some ⟨c, .awaiting q k⟩) (reply : (q : Q) → A q) :
    (next prog s (.resume i reply)).threads i =
      some ⟨c, ((k (reply q)).advance s.shared).2⟩ := by
  rw [next, fire_resume_eq_some.2 ⟨c, q, k, hi, rfl⟩]
  exact Function.update_self ..

/-- Where a firing comes from: a fresh thread, or a suspended one. -/
theorem fire_cases {s : Sys C σ Q A ε α} {x : Step C Q A} {f : Firing C σ Q A ε α}
    (h : fire prog s x = some f) :
    (s.threads f.thread = none ∧ f.input = .start ∧
      f.landing = (prog f.call).advance s.shared) ∨
    (∃ q k a, s.threads f.thread = some ⟨f.call, .awaiting q k⟩ ∧ f.input = .answer ⟨q, a⟩ ∧
      f.landing = (k a).advance s.shared) := by
  cases x with
  | call i c =>
      obtain ⟨hi, rfl⟩ := fire_call_eq_some.1 h
      exact .inl ⟨hi, rfl, rfl⟩
  | resume i reply =>
      obtain ⟨c, q, k, hi, rfl⟩ := fire_resume_eq_some.1 h
      exact .inr ⟨q, k, reply q, hi, rfl, rfl⟩

/-- Whose labels the trace holds: those of started calls. -/
structure Started (xs : List (Step C Q A)) (s : Sys C σ Q A ε α) : Prop where
  threads : ∀ i th, s.threads i = some th → .call i th.call ∈ xs
  trace : ∀ l ∈ s.trace, ∃ th, s.threads l.thread = some th ∧ th.call = l.call

/-- A firing keeps every thread at a call of the run. -/
theorem Started.land {xs : List (Step C Q A)} {s : Sys C σ Q A ε α} (h : Started xs s)
    {x : Step C Q A} (hx : x ∈ xs) {f : Firing C σ Q A ε α} (hf : fire prog s x = some f) :
    Started xs (s.land f) := by
  -- the call of a thread never changes
  have hold : ∀ th, s.threads f.thread = some th → th.call = f.call := by
    intro th hth
    rcases fire_cases hf with ⟨hnone, -, -⟩ | ⟨q, k, a, hsome, -, -⟩
    · rw [hth] at hnone
      cases hnone
    · rw [hth] at hsome
      cases hsome
      rfl
  have hcall : .call f.thread f.call ∈ xs := by
    cases x with
    | call i c =>
        rcases fire_call_eq_some.1 hf with ⟨-, rfl⟩
        exact hx
    | resume i reply =>
        rcases fire_resume_eq_some.1 hf with ⟨c, q, k, hi, rfl⟩
        exact h.threads i _ hi
  refine ⟨?_, ?_⟩
  · intro j th hth
    by_cases hj : j = f.thread
    · subst hj
      simp only [Sys.land, Function.update_self, Option.some.injEq] at hth
      subst hth
      exact hcall
    · simp only [Sys.land, Function.update_of_ne hj] at hth
      exact h.threads j th hth
  · intro l hl
    by_cases hj : l.thread = f.thread
    · refine ⟨⟨f.call, f.landing.2⟩, by simp [Sys.land, hj], ?_⟩
      simp only [Sys.land, World.push_trace, List.mem_append, List.mem_singleton] at hl
      rcases hl with hl | rfl
      · rcases h.trace l hl with ⟨th, hth, hcall'⟩
        rw [← hcall', hold th (hj ▸ hth)]
      · rfl
    · simp only [Sys.land, World.push_trace, List.mem_append, List.mem_singleton] at hl
      rcases hl with hl | rfl
      · rcases h.trace l hl with ⟨th, hth, hcall'⟩
        exact ⟨th, (Function.update_of_ne hj ..).trans hth, hcall'⟩
      · exact absurd rfl hj

/-- Every thread of a run was started by a call of it. -/
theorem run_started (prog : C → Proc σ Q A ε α) (s : σ) (xs : List (Step C Q A)) : Started xs (run prog (init s) xs) := by
  have hP : Along prog (fun _ x => x ∈ xs) (init s) xs := by
    intro pre x post hxs
    simp [hxs]
  apply run_invariant _ _ xs hP
  · exact ⟨fun i th h => (by cases h), fun l hl => (by cases hl)⟩
  · intro t x f ht hx hf
    exact ht.land hx hf

/-- A thread of the pool was started, at one step of the run. -/
theorem exists_start {s : σ} {xs : List (Step C Q A)} {i : ℕ} {c : C} {y : Yield σ Q A ε α}
    (h : (run prog (init s) xs).threads i = some ⟨c, y⟩) :
    ∃ pre rest, xs = pre ++ .call i c :: rest ∧ (run prog (init s) pre).threads i = none := by
  -- on the run from its end: the thread was there before, or started now
  induction xs using List.reverseRecOn generalizing y with
  | nil => cases h
  | append_singleton xs x ih =>
      have hextends : (∃ y, (run prog (init s) xs).threads i = some ⟨c, y⟩) →
          ∃ pre rest, xs ++ [x] = pre ++ .call i c :: rest ∧
            (run prog (init s) pre).threads i = none := by
        rintro ⟨y', hy'⟩
        obtain ⟨pre, rest, rfl, hpre⟩ := ih hy'
        exact ⟨pre, rest ++ [x], by simp, hpre⟩
      rw [run_snoc, next] at h
      cases hf : fire prog (run prog (init s) xs) x with
      | none =>
          rw [hf] at h
          exact hextends ⟨y, h⟩
      | some f =>
          simp only [hf, Sys.land] at h
          by_cases hi : i = f.thread
          · subst hi
            rw [Function.update_self] at h
            cases h
            cases x with
            | call j d =>
                obtain ⟨hnone, rfl⟩ := fire_call_eq_some.1 hf
                exact ⟨xs, [], rfl, hnone⟩
            | resume j reply =>
                obtain ⟨d, q, k, hj, rfl⟩ := fire_resume_eq_some.1 hf
                exact hextends ⟨_, hj⟩
          · rw [Function.update_of_ne hi] at h
            exact hextends ⟨y, h⟩

/-- A thread that is never started stays out of the pool. -/
theorem run_threads_none {i : ℕ} {s : Sys C σ Q A ε α} (hs : s.threads i = none)
    (xs : List (Step C Q A)) (hxs : ∀ c, .call i c ∉ xs) :
    (run prog s xs).threads i = none := by
  induction xs using List.reverseRecOn with
  | nil => exact hs
  | append_singleton xs x ih =>
      have hxs' : (run prog s xs).threads i = none := by
        apply ih
        intro c hc
        exact hxs c (by simp [hc])
      rw [run_snoc, next]
      cases hf : fire prog (run prog s xs) x with
      | none => exact hxs'
      | some f =>
          -- a firing of the thread would be its start
          have hne : i ≠ f.thread := by
            rintro rfl
            cases x with
            | call j c =>
                obtain ⟨-, rfl⟩ := fire_call_eq_some.1 hf
                exact hxs c (by simp)
            | resume j reply =>
                obtain ⟨c, q, k, hj, rfl⟩ := fire_resume_eq_some.1 hf
                simp [hxs'] at hj
          simp only [Sys.land, Function.update_of_ne hne]
          exact hxs'

end Run

end Coop
