import Alos.Coop.Lock

/-! # The same procedure over two states

Two procedures over two states, alone and answered alike: from related states
they end in related states and with the same result. One of them may ask
questions that the other does not ask.

* `Alike.bind` is the rule of sequences, `Alike.await_right` that of a question
  that only one side asks, `Alike.withLock` that of a lock.
-/

namespace Coop

variable {σ σ' Q : Type} {A : Q → Type} {ε α β : Type}

/-- From `s` and `s'` the two procedures end in states that `R` relates, with the
same result. -/
structure Alike (R : σ → σ' → Prop) (answer : (q : Q) → A q) (p : Proc σ Q A ε α) (s : σ)
    (p' : Proc σ' Q A ε α) (s' : σ') : Prop where
  result : (p'.alone (fun _ => answer) s').result = (p.alone (fun _ => answer) s).result
  state : R (p.alone (fun _ => answer) s).state (p'.alone (fun _ => answer) s').state

namespace Alike

variable {R : σ → σ' → Prop} {answer : (q : Q) → A q} {s : σ} {s' : σ'}

theorem ret (h : R s s') (a : α) :
    Alike R answer (.ret a : Proc σ Q A ε α) s (.ret a) s' := ⟨rfl, h⟩

theorem raise (h : R s s') (e : ε) :
    Alike R answer (.raise e : Proc σ Q A ε α) s (.raise e) s' := ⟨rfl, h⟩

theorem ofExcept (h : R s s') (x : Except ε α) :
    Alike R answer (.ofExcept x : Proc σ Q A ε α) s (.ofExcept x) s' := by
  cases x with
  | error e => exact raise h e
  | ok a => exact ret h a

theorem raiseIf (h : R s s') (c : Prop) [Decidable c] (e : ε) :
    Alike R answer (.raiseIf c e : Proc σ Q A ε Unit) s (.raiseIf c e) s' := by
  unfold Proc.raiseIf
  split
  · exact raise h e
  · exact ret h ()

theorem read {k : σ → Proc σ Q A ε α} {k' : σ' → Proc σ' Q A ε α}
    (h : Alike R answer (k s) s (k' s') s') : Alike R answer (.read k) s (.read k') s' :=
  ⟨h.result, h.state⟩

theorem read_right {p : Proc σ Q A ε α} {k' : σ' → Proc σ' Q A ε α}
    (h : Alike R answer p s (k' s') s') : Alike R answer p s (.read k') s' :=
  ⟨h.result, h.state⟩

theorem write {p : Proc σ Q A ε α} {p' : Proc σ' Q A ε α} {t : σ} {t' : σ'}
    (h : Alike R answer p t p' t') : Alike R answer (.write t p) s (.write t' p') s' :=
  ⟨h.result, h.state⟩

theorem await {q : Q} {k : A q → Proc σ Q A ε α} {k' : A q → Proc σ' Q A ε α}
    (h : Alike R answer (k (answer q)) s (k' (answer q)) s') :
    Alike R answer (.await q k) s (.await q k') s' :=
  ⟨h.result, h.state⟩

theorem await_right {p : Proc σ Q A ε α} {q : Q} {k' : A q → Proc σ' Q A ε α}
    (h : Alike R answer p s (k' (answer q)) s') : Alike R answer p s (.await q k') s' :=
  ⟨h.result, h.state⟩

/-- What follows is only compared where the first parts return. -/
theorem bind {p : Proc σ Q A ε α} {p' : Proc σ' Q A ε α} {f : α → Proc σ Q A ε β}
    {f' : α → Proc σ' Q A ε β} (h : Alike R answer p s p' s')
    (hf : ∀ a, (p.alone (fun _ => answer) s).result = .ok a →
      Alike R answer (f a) (p.alone (fun _ => answer) s).state
        (f' a) (p'.alone (fun _ => answer) s').state) :
    Alike R answer (p.bind f) s (p'.bind f') s' := by
  have hresult := h.result
  -- either both runs raise in the first part, or both go on with one result
  cases hp : (p.alone (fun _ => answer) s).result with
  | error e =>
      rw [hp] at hresult
      constructor
      · rw [Proc.alone_bind, Proc.alone_bind, Proc.Finished.followed_of_error hp,
          Proc.Finished.followed_of_error hresult]
      · rw [Proc.alone_bind, Proc.alone_bind, Proc.Finished.followed_of_error hp,
          Proc.Finished.followed_of_error hresult]
        exact h.state
  | ok a =>
      rw [hp] at hresult
      have hrest := hf a hp
      constructor
      · rw [Proc.alone_bind, Proc.alone_bind, (Proc.Finished.followed_of_ok hp _).2,
          (Proc.Finished.followed_of_ok hresult _).2]
        exact hrest.result
      · rw [Proc.alone_bind, Proc.alone_bind, (Proc.Finished.followed_of_ok hp _).1,
          (Proc.Finished.followed_of_ok hresult _).1]
        exact hrest.state

/-- Both procedures under their locks, which `R` does not look at. -/
theorem withLock {L : Type} {K : Locks σ Q L} {K' : Locks σ' Q L} {l : L} {p : Proc σ Q A ε α}
    {p' : Proc σ' Q A ε α} (hset : ∀ t t', R t t' → R (K.set t l false) (K'.set t' l false))
    (h : Alike R answer p (K.set s l true) p' (K'.set s' l true)) :
    Alike R answer (K.withLock l p) s (K'.withLock l p') s' := by
  constructor
  · rw [Locks.alone_withLock, Locks.alone_withLock]
    exact h.result
  · rw [Locks.alone_withLock, Locks.alone_withLock]
    exact hset _ _ h.state

end Alike

end Coop
