import Alos.Coop.Lock

/-! # What is seen of a call

A procedure that keeps no state of its own, whose questions have one answer
each: what it asked, as an observer sees it, and how it ended. `rescue` is the
`try: … except …` of such a procedure.

* `observe` of a sequence, of a rescue and of the single steps is computed from
  what is seen of the parts (`observe_bind`, `observe_rescue`, …).
-/

namespace Coop

variable {σ Q : Type} {A : Q → Type} {ε α β E : Type}

namespace Proc

/-- `try: p except e: h(e)`. -/
def rescue : Proc σ Q A ε α → (ε → Proc σ Q A ε α) → Proc σ Q A ε α
  | .ret a, _ => .ret a
  | .raise e, h => h e
  | .read k, h => .read fun s => (k s).rescue h
  | .write s p, h => .write s (p.rescue h)
  | .await q k, h => .await q fun a => (k a).rescue h

end Proc

/-- The result of a call, and what it has done that can be seen. -/
structure Observed (E ε α : Type) where
  result : Except ε α
  events : List E

namespace Observed

/-- One part, and the other when it has returned. -/
def bind (o : Observed E ε α) (f : α → Observed E ε β) : Observed E ε β :=
  match o.result with
  | .error e => ⟨.error e, o.events⟩
  | .ok a => ⟨(f a).result, o.events ++ (f a).events⟩

/-- One part, and the other when it has raised. -/
def rescue (o : Observed E ε α) (h : ε → Observed E ε α) : Observed E ε α :=
  match o.result with
  | .error e => ⟨(h e).result, o.events ++ (h e).events⟩
  | .ok a => ⟨.ok a, o.events⟩

@[simp] theorem bind_ok (a : α) (events : List E) (f : α → Observed E ε β) :
    bind ⟨.ok a, events⟩ f = ⟨(f a).result, events ++ (f a).events⟩ := rfl

@[simp] theorem bind_error (e : ε) (events : List E) (f : α → Observed E ε β) :
    bind ⟨.error e, events⟩ f = ⟨.error e, events⟩ := rfl

@[simp] theorem rescue_ok (a : α) (events : List E) (h : ε → Observed E ε α) :
    rescue ⟨.ok a, events⟩ h = ⟨.ok a, events⟩ := rfl

@[simp] theorem rescue_error (e : ε) (events : List E) (h : ε → Observed E ε α) :
    rescue ⟨.error e, events⟩ h = ⟨(h e).result, events ++ (h e).events⟩ := rfl

theorem bind_result (o : Observed E ε α) (f : α → Observed E ε β) :
    (o.bind f).result = o.result >>= fun a => (f a).result := by
  unfold Observed.bind
  cases o.result <;> rfl

/-- A sequence of which nothing is seen. -/
theorem bind_silent (x : Except ε α) (f : α → Except ε β) :
    bind (⟨x, []⟩ : Observed E ε α) (fun a => ⟨f a, []⟩) = ⟨x >>= f, []⟩ := by
  cases x <;> rfl

/-- A part, and a rest of which nothing is seen. -/
theorem bind_quiet (x : Except ε α) (events : List E) (f : α → Except ε β) :
    bind ⟨x, events⟩ (fun a => ⟨f a, []⟩) = ⟨x >>= f, events⟩ := by
  cases x with
  | error e => rfl
  | ok a => simp [bind, Bind.bind, Except.bind]

/-- A part and a step of which nothing is seen are one part. -/
theorem bind_bind_silent {γ : Type} (x : Except ε α) (events : List E) (f : α → Except ε β)
    (g : β → Observed E ε γ) :
    bind ⟨x, events⟩ (fun a => bind ⟨f a, []⟩ g) = bind ⟨x >>= f, events⟩ g := by
  cases x with
  | error e => rfl
  | ok a =>
      have hok : (Except.ok a >>= f) = f a := rfl
      rw [hok]
      cases hf : f a <;> simp [hf]

/-- A rescue that raises another exception in place of the one caught. -/
theorem rescue_mapError (x : Except ε α) (events : List E) (f : ε → ε) :
    rescue ⟨x, events⟩ (fun e => ⟨.error (f e), []⟩) = ⟨x.mapError f, events⟩ := by
  cases x with
  | error e => simp [rescue, Except.mapError]
  | ok a => rfl

end Observed

/-- What is seen of `p` when every question has the answer that `answer` gives;
`view` is what can be seen of an exchange. -/
def observe (view : Exchange Q A → Option E) (answer : (q : Q) → A q)
    (p : Proc Unit Q A ε α) : Observed E ε α where
  result := (p.alone (fun _ => answer) ()).result
  events := (p.alone (fun _ => answer) ()).log.filterMap view

section Observe

variable (view : Exchange Q A → Option E) (answer : (q : Q) → A q)

@[simp] theorem observe_ret (a : α) :
    observe view answer (.ret a : Proc Unit Q A ε α) = ⟨.ok a, []⟩ := rfl

@[simp] theorem observe_raise (e : ε) :
    observe view answer (.raise e : Proc Unit Q A ε α) = ⟨.error e, []⟩ := rfl

@[simp] theorem observe_ofExcept (x : Except ε α) :
    observe view answer (.ofExcept x : Proc Unit Q A ε α) = ⟨x, []⟩ := by
  cases x <;> rfl

theorem observe_await (q : Q) (k : A q → Proc Unit Q A ε α) :
    observe view answer (.await q k) =
      ⟨(observe view answer (k (answer q))).result,
        (view ⟨q, answer q⟩).toList ++ (observe view answer (k (answer q))).events⟩ := by
  simp only [observe, Proc.alone, List.filterMap_cons]
  cases view ⟨q, answer q⟩ <;> rfl

@[simp] theorem observe_ask (q : Q) :
    observe view answer (.ask q : Proc Unit Q A ε (A q)) =
      ⟨.ok (answer q), (view ⟨q, answer q⟩).toList⟩ := by
  rw [Proc.ask, observe_await]
  simp

/-- What is seen of a sequence. -/
@[simp] theorem observe_bind (p : Proc Unit Q A ε α) (f : α → Proc Unit Q A ε β) :
    observe view answer (p.bind f) =
      (observe view answer p).bind fun a => observe view answer (f a) := by
  induction p with
  | ret a => simp [Proc.bind]
  | raise e => rfl
  | read k ih => exact ih ()
  | write u p ih => exact ih
  | await q k ih =>
      rw [Proc.bind, observe_await, ih, observe_await]
      cases hresult : (observe view answer (k (answer q))).result with
      | error e => simp [Observed.bind, hresult]
      | ok a => simp [Observed.bind, hresult]

/-- What is seen of a rescue. -/
@[simp] theorem observe_rescue (p : Proc Unit Q A ε α) (h : ε → Proc Unit Q A ε α) :
    observe view answer (p.rescue h) =
      (observe view answer p).rescue fun e => observe view answer (h e) := by
  induction p with
  | ret a => rfl
  | raise e => simp [Proc.rescue]
  | read k ih => exact ih ()
  | write u p ih => exact ih
  | await q k ih =>
      rw [Proc.rescue, observe_await, ih, observe_await]
      cases hresult : (observe view answer (k (answer q))).result with
      | error e => simp [Observed.rescue, hresult]
      | ok a => simp [Observed.rescue, hresult]

end Observe

end Coop
