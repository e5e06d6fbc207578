import Alos.Coop.Proc

/-! # Procedures within procedures

A procedure over one environment, run by another one over a larger
environment: its questions are among those of the larger one, and its errors
are turned into errors of it.

* `advance_embed`: a segment of the embedded procedure is one of its own;
* `alone_embed`: alone, the embedded procedure does what it does on its own;
* `alone_embed_log`: over the same environment it asks the same questions.
-/

namespace Coop

variable {σ Q Q' : Type} {A : Q → Type} {A' : Q' → Type} {ε ε' α β : Type}

/-- Run `p`, asking `f q` for `q`, and raising `g e` for `e`. -/
def Proc.embed (f : Q → Q') (back : (q : Q) → A' (f q) → A q) (g : ε → ε') :
    Proc σ Q A ε α → Proc σ Q' A' ε' α
  | .ret a => .ret a
  | .raise e => .raise (g e)
  | .read k => .read fun s => (k s).embed f back g
  | .write s p => .write s (p.embed f back g)
  | .await q k => .await (f q) fun a => (k (back q a)).embed f back g

/-- The rest of an embedded procedure. -/
def Yield.embed (f : Q → Q') (back : (q : Q) → A' (f q) → A q) (g : ε → ε') :
    Yield σ Q A ε α → Yield σ Q' A' ε' α
  | .returned a => .returned a
  | .raised e => .raised (g e)
  | .awaiting q k => .awaiting (f q) fun a => (k (back q a)).embed f back g

theorem Proc.advance_embed (f : Q → Q') (back : (q : Q) → A' (f q) → A q) (g : ε → ε')
    (p : Proc σ Q A ε α) (s : σ) :
    (p.embed f back g).advance s = ((p.advance s).1, (p.advance s).2.embed f back g) := by
  induction p generalizing s with
  | ret a => rfl
  | raise e => rfl
  | read k ih => exact ih s s
  | write s' p ih => exact ih s'
  | await q k _ => rfl

theorem Proc.embed_bind (f : Q → Q') (back : (q : Q) → A' (f q) → A q) (g : ε → ε')
    (p : Proc σ Q A ε α) (h : α → Proc σ Q A ε β) :
    (p.bind h).embed f back g = (p.embed f back g).bind fun a => (h a).embed f back g := by
  induction p with
  | ret a => rfl
  | raise e => rfl
  | read k ih => exact congrArg _ (funext ih)
  | write s p ih => exact congrArg _ ih
  | await q k ih => exact congrArg _ (funext fun a => ih (back q a))

/-- The environment of the embedded procedure. -/
def Env.within (f : Q → Q') (back : (q : Q) → A' (f q) → A q) (env : Env Q' A') : Env Q A :=
  fun n q => back q (env n (f q))

/-- Alone, an embedded procedure ends in the state in which it ends on its own,
with the result that it has on its own, and after as many questions. -/
theorem Proc.alone_embed (f : Q → Q') (back : (q : Q) → A' (f q) → A q) (g : ε → ε')
    (p : Proc σ Q A ε α) (env : Env Q' A') (s : σ) :
    ((p.embed f back g).alone env s).state = (p.alone (env.within f back) s).state ∧
      ((p.embed f back g).alone env s).result =
        (p.alone (env.within f back) s).result.mapError g ∧
      ((p.embed f back g).alone env s).log.length = (p.alone (env.within f back) s).log.length := by
  induction p generalizing env s with
  | ret a => exact ⟨rfl, rfl, rfl⟩
  | raise e => exact ⟨rfl, rfl, rfl⟩
  | read k ih => exact ih s env s
  | write s' p ih => exact ih env s'
  | await q k ih =>
      rcases ih (back q (env 0 (f q))) (fun n => env (n + 1)) s with ⟨hstate, hresult, hlog⟩
      refine ⟨hstate, hresult, ?_⟩
      exact congrArg (· + 1) hlog

/-- Over the same environment, the questions and their answers are the same. -/
theorem Proc.alone_embed_log (g : ε → ε') (p : Proc σ Q A ε α) (env : Env Q A) (s : σ) :
    ((p.embed id (fun _ answer => answer) g).alone env s).log = (p.alone env s).log := by
  induction p generalizing env s with
  | ret a => rfl
  | raise e => rfl
  | read k ih => exact ih s env s
  | write s' p ih => exact ih env s'
  | await q k ih => exact congrArg _ (ih (env 0 q) (fun n => env (n + 1)) s)

end Coop
