import Mathlib.Data.Nat.Notation

/-! # Cooperative procedures

Code of an `async` runtime: a procedure works on a state shared with others,
runs without interruption until it *awaits* an answer of its environment, and
goes on from there when the answer arrives. Between two awaits nobody else
runs, so one such segment is a single atomic step of the whole system.

* `Proc` is the syntax of such procedures (a monad, so that a model can be
  written in the order of its source);
* `Proc.advance` runs one segment, up to the next await or the end;
* `Proc.alone` runs a whole call with nobody interfering.
-/

namespace Coop

/-- A procedure over the shared state `σ`. `await q k` asks the environment
`q` and is suspended until the answer arrives, which is passed to `k`. -/
inductive Proc (σ Q : Type) (A : Q → Type) (ε α : Type) where
  | ret (a : α)
  | raise (e : ε)
  | read (k : σ → Proc σ Q A ε α)
  | write (s : σ) (p : Proc σ Q A ε α)
  | await (q : Q) (k : A q → Proc σ Q A ε α)

/-- Where a segment stops. -/
inductive Yield (σ Q : Type) (A : Q → Type) (ε α : Type) where
  | returned (a : α)
  | raised (e : ε)
  | awaiting (q : Q) (k : A q → Proc σ Q A ε α)

/-- The visible part of a `Yield`: the continuation is forgotten. -/
inductive Stop (Q ε α : Type) where
  | returned (a : α)
  | raised (e : ε)
  | awaiting (q : Q)

/-- A question put to the environment together with its answer. -/
abbrev Exchange (Q : Type) (A : Q → Type) := (q : Q) × A q

/-- The environment of one call: the answer to its `n`-th question. -/
abbrev Env (Q : Type) (A : Q → Type) := ℕ → (q : Q) → A q

variable {σ Q : Type} {A : Q → Type} {ε α β : Type}

/-- What a coroutine is known by from outside. -/
def Yield.stop : Yield σ Q A ε α → Stop Q ε α
  | .returned a => .returned a
  | .raised e => .raised e
  | .awaiting q _ => .awaiting q

/-- The call is over. -/
def Stop.Over : Stop Q ε α → Prop
  | .awaiting _ => False
  | _ => True

/-- The question that a suspended call waits with. -/
def Stop.question? : Stop Q ε α → Option Q
  | .awaiting q => some q
  | _ => none

namespace Proc

/-- Runs `p`, then what `f` makes of its result. -/
def bind : Proc σ Q A ε α → (α → Proc σ Q A ε β) → Proc σ Q A ε β
  | .ret a, f => f a
  | .raise e, _ => .raise e
  | .read k, f => .read fun s => (k s).bind f
  | .write s p, f => .write s (p.bind f)
  | .await q k, f => .await q fun a => (k a).bind f

instance : Monad (Proc σ Q A ε) where
  pure := .ret
  bind := bind

/-- The current shared state. -/
def get : Proc σ Q A ε σ := .read .ret

/-- Replace the shared state by `f` of it. -/
def modify (f : σ → σ) : Proc σ Q A ε Unit := .read fun s => .write (f s) (.ret ())

/-- Ask the environment `q`. -/
def ask (q : Q) : Proc σ Q A ε (A q) := .await q .ret

/-- Raise `e` when `c` holds. -/
def raiseIf (c : Prop) [Decidable c] (e : ε) : Proc σ Q A ε Unit :=
  if c then .raise e else .ret ()

@[simp] theorem pure_def (a : α) : (pure a : Proc σ Q A ε α) = .ret a := rfl

@[simp] theorem bind_def (p : Proc σ Q A ε α) (f : α → Proc σ Q A ε β) :
    (p >>= f) = p.bind f := rfl

@[simp] theorem ret_bind (a : α) (f : α → Proc σ Q A ε β) : (ret a).bind f = f a := rfl

@[simp] theorem raise_bind (e : ε) (f : α → Proc σ Q A ε β) :
    (raise e : Proc σ Q A ε α).bind f = raise e := rfl

@[simp] theorem get_bind (f : σ → Proc σ Q A ε β) : get.bind f = .read f := rfl

@[simp] theorem modify_bind (g : σ → σ) (f : Unit → Proc σ Q A ε β) :
    (modify g).bind f = .read fun s => .write (g s) (f ()) := rfl

@[simp] theorem ask_bind (q : Q) (f : A q → Proc σ Q A ε β) : (ask q).bind f = .await q f := rfl

/-- Coroutines are composed associatively. -/
theorem bind_assoc {γ : Type} (p : Proc σ Q A ε α) (f : α → Proc σ Q A ε β)
    (g : β → Proc σ Q A ε γ) : (p.bind f).bind g = p.bind fun a => (f a).bind g := by
  induction p with
  | ret a => rfl
  | raise e => rfl
  | read k ih => exact congrArg _ (funext ih)
  | write s p ih => exact congrArg _ ih
  | await q k ih => exact congrArg _ (funext ih)

@[simp] theorem bind_ret (p : Proc σ Q A ε α) : p.bind .ret = p := by
  induction p with
  | ret a => rfl
  | raise e => rfl
  | read k ih => exact congrArg _ (funext ih)
  | write s p ih => exact congrArg _ ih
  | await q k ih => exact congrArg _ (funext ih)

/-! ## One segment -/

/-- Run one segment: up to the next await, or to the end. -/
def advance : Proc σ Q A ε α → σ → σ × Yield σ Q A ε α
  | .ret a, s => (s, .returned a)
  | .raise e, s => (s, .raised e)
  | .read k, s => (k s).advance s
  | .write s p, _ => p.advance s
  | .await q k, s => (s, .awaiting q k)

@[simp] theorem advance_ret (a : α) (s : σ) :
    (ret a : Proc σ Q A ε α).advance s = (s, .returned a) := rfl

@[simp] theorem advance_raise (e : ε) (s : σ) :
    (raise e : Proc σ Q A ε α).advance s = (s, .raised e) := rfl

@[simp] theorem advance_read (k : σ → Proc σ Q A ε α) (s : σ) :
    (read k).advance s = (k s).advance s := rfl

@[simp] theorem advance_write (s' : σ) (p : Proc σ Q A ε α) (s : σ) :
    (write s' p).advance s = p.advance s' := rfl

@[simp] theorem advance_await (q : Q) (k : A q → Proc σ Q A ε α) (s : σ) :
    (await q k).advance s = (s, .awaiting q k) := rfl

/-- A segment of `p.bind f` is the segment of `p`, continued by `f` when `p`
returns within it. -/
theorem advance_bind (p : Proc σ Q A ε α) (f : α → Proc σ Q A ε β) (s : σ) :
    (p.bind f).advance s = match p.advance s with
      | (s', .returned a) => (f a).advance s'
      | (s', .raised e) => (s', .raised e)
      | (s', .awaiting q k) => (s', .awaiting q fun a => (k a).bind f) := by
  induction p generalizing s with
  | ret a => rfl
  | raise e => rfl
  | read k ih => exact ih s s
  | write s' p ih => exact ih s'
  | await q k _ => rfl

/-- A guard either ends the coroutine or lets it go on at once. -/
theorem advance_raiseIf_bind (c : Prop) [Decidable c] (e : ε) (f : Unit → Proc σ Q A ε α)
    (s : σ) : ((raiseIf c e).bind f).advance s =
      if c then (s, .raised e) else (f ()).advance s := by
  unfold raiseIf
  split <;> rfl

/-! ## A call that nobody interferes with -/

/-- What a finished call leaves behind: the state, its result, and what it
asked the environment and was answered, in order. -/
structure Finished (σ Q : Type) (A : Q → Type) (ε α : Type) where
  state : σ
  result : Except ε α
  log : List (Exchange Q A)

/-- Run `p` to its end from `s`; `env n` answers its `n`-th question. -/
def alone : Proc σ Q A ε α → Env Q A → σ → Finished σ Q A ε α
  | .ret a, _, s => ⟨s, .ok a, []⟩
  | .raise e, _, s => ⟨s, .error e, []⟩
  | .read k, env, s => (k s).alone env s
  | .write s p, env, _ => p.alone env s
  | .await q k, env, s =>
      let rest := (k (env 0 q)).alone (fun n => env (n + 1)) s
      { rest with log := ⟨q, env 0 q⟩ :: rest.log }

/-- The exchange `x`, then what `f` records. -/
def Finished.after (f : Finished σ Q A ε α) (x : Exchange Q A) : Finished σ Q A ε α :=
  { f with log := x :: f.log }

@[simp] theorem Finished.after_state (f : Finished σ Q A ε α) (x : Exchange Q A) :
    (f.after x).state = f.state := rfl

@[simp] theorem Finished.after_result (f : Finished σ Q A ε α) (x : Exchange Q A) :
    (f.after x).result = f.result := rfl

@[simp] theorem Finished.after_log (f : Finished σ Q A ε α) (x : Exchange Q A) :
    (f.after x).log = x :: f.log := rfl

end Proc

/-- What is left of a call alone after one of its segments. -/
def Yield.alone : Yield σ Q A ε α → Env Q A → σ → Proc.Finished σ Q A ε α
  | .returned a, _, s => ⟨s, .ok a, []⟩
  | .raised e, _, s => ⟨s, .error e, []⟩
  | .awaiting q k, env, s => ((k (env 0 q)).alone (fun n => env (n + 1)) s).after ⟨q, env 0 q⟩

namespace Proc

/-- A call alone is its first segment, and the rest alone. -/
theorem alone_eq_yield (p : Proc σ Q A ε α) (env : Env Q A) (s : σ) :
    p.alone env s = (p.advance s).2.alone env (p.advance s).1 := by
  induction p generalizing s with
  | ret a => rfl
  | raise e => rfl
  | read k ih => exact ih s s
  | write s' p ih => exact ih s'
  | await q k _ => rfl

/-- What `f` records, then, when it has returned, what `g` does: it starts in
the state that `f` left, and its answers are those that `f` has not used. -/
def Finished.followed (f : Finished σ Q A ε α) (g : α → ℕ → σ → Finished σ Q A ε β) :
    Finished σ Q A ε β :=
  match f.result with
  | .error e => ⟨f.state, .error e, f.log⟩
  | .ok a =>
      let rest := g a f.log.length f.state
      { rest with log := f.log ++ rest.log }

/-- Nothing follows a run that has raised. -/
theorem Finished.followed_of_error {f : Finished σ Q A ε α} {e : ε} (h : f.result = .error e)
    (g : α → ℕ → σ → Finished σ Q A ε β) : f.followed g = ⟨f.state, .error e, f.log⟩ := by
  rw [followed, h]

/-- What follows a run starts where it has stopped. -/
theorem Finished.followed_of_ok {f : Finished σ Q A ε α} {a : α} (h : f.result = .ok a)
    (g : α → ℕ → σ → Finished σ Q A ε β) :
    (f.followed g).state = (g a f.log.length f.state).state ∧
      (f.followed g).result = (g a f.log.length f.state).result := by
  rw [followed, h]
  exact ⟨rfl, rfl⟩

/-- An exchange before both runs can be put before either. -/
theorem Finished.followed_after (f : Finished σ Q A ε α) (x : Exchange Q A)
    (g : α → ℕ → σ → Finished σ Q A ε β) :
    (f.after x).followed g = (f.followed fun a n => g a (n + 1)).after x := by
  unfold followed after
  cases f.result <;> rfl

/-- A sequence of two procedures, alone. -/
theorem alone_bind (p : Proc σ Q A ε α) (f : α → Proc σ Q A ε β) (env : Env Q A) (s : σ) :
    (p.bind f).alone env s =
      (p.alone env s).followed fun a n => (f a).alone fun m => env (m + n) := by
  induction p generalizing env s with
  | ret a => rfl
  | raise e => rfl
  | read k ih => exact ih s env s
  | write s' p ih => exact ih env s'
  | await q k ih =>
      change Finished.after ((((k (env 0 q)).bind f).alone (fun n => env (n + 1)) s)) _ = _
      rw [ih]
      exact (Finished.followed_after _ _ fun a n => (f a).alone fun m => env (m + n)).symm

/-- A sequence that returns has returned from both of its parts. -/
theorem alone_bind_ok {p : Proc σ Q A ε α} {f : α → Proc σ Q A ε β} {env : Env Q A} {s : σ} {b : β}
    (h : ((p.bind f).alone env s).result = .ok b) :
    ∃ a, (p.alone env s).result = .ok a ∧
      ((f a).alone (fun m => env (m + (p.alone env s).log.length)) (p.alone env s).state).result =
        .ok b := by
  rw [alone_bind] at h
  cases hresult : (p.alone env s).result with
  | error e =>
      rw [Finished.followed_of_error hresult] at h
      cases h
  | ok a =>
      rw [(Finished.followed_of_ok hresult _).2] at h
      exact ⟨a, rfl, h⟩

/-- What both parts of a sequence keep. -/
theorem alone_bind_keeps {P : σ → Prop} {p : Proc σ Q A ε α} {f : α → Proc σ Q A ε β}
    {env : Env Q A} {s : σ} (hp : P (p.alone env s).state)
    (hf : ∀ a env s', P s' → P ((f a).alone env s').state) :
    P ((p.bind f).alone env s).state := by
  rw [alone_bind]
  cases hresult : (p.alone env s).result with
  | error e => rwa [Finished.followed_of_error hresult]
  | ok a =>
      rw [(Finished.followed_of_ok hresult _).1]
      exact hf a _ _ hp

/-- A guard changes no state. -/
theorem alone_raiseIf_state (c : Prop) [Decidable c] (e : ε) (env : Env Q A) (s : σ) :
    ((raiseIf c e : Proc σ Q A ε Unit).alone env s).state = s := by
  unfold raiseIf
  split <;> rfl

/-- All questions that `p` can ask meet `P`. -/
def Asks (P : Q → Prop) : Proc σ Q A ε α → Prop
  | .ret _ => True
  | .raise _ => True
  | .read k => ∀ s, (k s).Asks P
  | .write _ p => p.Asks P
  | .await q k => P q ∧ ∀ a, (k a).Asks P

/-- A composition asks what its parts ask. -/
theorem Asks.bind {P : Q → Prop} {p : Proc σ Q A ε α} {f : α → Proc σ Q A ε β} (hp : p.Asks P)
    (hf : ∀ a, (f a).Asks P) : (p.bind f).Asks P := by
  induction p with
  | ret a => exact hf a
  | raise e => trivial
  | read k ih => exact fun s => ih s (hp s)
  | write s p ih => exact ih hp
  | await q k ih => exact ⟨hp.1, fun a => ih a (hp.2 a)⟩

/-- A guard asks nothing. -/
theorem asks_raiseIf (P : Q → Prop) (c : Prop) [Decidable c] (e : ε) :
    (raiseIf c e : Proc σ Q A ε Unit).Asks P := by
  unfold raiseIf
  split <;> trivial

/-- A call alone asks nothing else. -/
theorem Asks.alone {P : Q → Prop} {p : Proc σ Q A ε α} (h : p.Asks P) (env : Env Q A) (s : σ) :
    ∀ y ∈ (p.alone env s).log, P y.1 := by
  induction p generalizing env s with
  | ret a => simp [Proc.alone]
  | raise e => simp [Proc.alone]
  | read k ih => exact ih s (h s) env s
  | write s' p ih => exact ih h env s'
  | await q k ih =>
      simp only [Proc.alone, List.mem_cons, forall_eq_or_imp]
      exact ⟨h.1, ih _ (h.2 _) _ s⟩

/-- A coroutine that raises without waiting is done. -/
theorem alone_of_raised {p : Proc σ Q A ε α} {s s' : σ} {e : ε}
    (h : p.advance s = (s', .raised e)) (env : Env Q A) :
    p.alone env s = ⟨s', .error e, []⟩ := by
  rw [alone_eq_yield, h]
  rfl

/-- A coroutine that returns without waiting is done. -/
theorem alone_of_returned {p : Proc σ Q A ε α} {s s' : σ} {a : α}
    (h : p.advance s = (s', .returned a)) (env : Env Q A) :
    p.alone env s = ⟨s', .ok a, []⟩ := by
  rw [alone_eq_yield, h]
  rfl

/-- A coroutine that waits goes on with the first answer. -/
theorem alone_of_awaiting {p : Proc σ Q A ε α} {s s' : σ} {q : Q} {k : A q → Proc σ Q A ε α}
    (h : p.advance s = (s', .awaiting q k)) (env : Env Q A) :
    p.alone env s = ((k (env 0 q)).alone (fun n => env (n + 1)) s').after ⟨q, env 0 q⟩ := by
  rw [alone_eq_yield, h]
  rfl

end Proc

end Coop
