import Mathlib.Data.List.Forall2
import Mathlib.Tactic.Basic

/-! # Checks that all passed

What it means that a sequence of fallible steps returns: each of them did.
-/

namespace Except

variable {ε ε' α β : Type}

/-- A sequence succeeds just when each part does on what the part before gives. -/
theorem bind_eq_ok {x : Except ε α} {f : α → Except ε β} {b : β} :
    (x >>= f) = .ok b ↔ ∃ a, x = .ok a ∧ f a = .ok b := by
  cases x with
  | error e => simp [bind, Except.bind]
  | ok a => simp [bind, Except.bind]

/-- A sequence fails in its first part, or in the second after a success of the first. -/
theorem bind_eq_error {x : Except ε α} {f : α → Except ε β} {e : ε} :
    (x >>= f) = .error e ↔ x = .error e ∨ ∃ a, x = .ok a ∧ f a = .error e := by
  cases x with
  | error e' => simp [bind, Except.bind]
  | ok a => simp [bind, Except.bind]

/-- What all errors of both parts of a sequence meet. -/
theorem bind_errors {P : ε → Prop} {x : Except ε α} {f : α → Except ε β}
    (hx : ∀ e, x = .error e → P e) (hf : ∀ a e, f a = .error e → P e) (e : ε)
    (h : (x >>= f) = .error e) : P e := by
  rcases bind_eq_error.1 h with h | ⟨a, -, h⟩
  · exact hx e h
  · exact hf a e h

theorem pure_eq_ok {a b : α} : (pure a : Except ε α) = .ok b ↔ a = b := by
  simp [pure, Except.pure]

theorem throw_ne_ok {e : ε} {a : α} : (throw e : Except ε α) ≠ .ok a := by
  simp [throw, throwThe, MonadExceptOf.throw]

/-- Another name for the error leaves the successes as they are. -/
theorem mapError_eq_ok {x : Except ε α} {f : ε → ε'} {a : α} :
    x.mapError f = .ok a ↔ x = .ok a := by
  cases x with
  | error e => simp [Except.mapError]
  | ok a => simp [Except.mapError]

/-- `if not c: raise e`. -/
def require (c : Prop) [Decidable c] (e : ε) : Except ε Unit := if c then .ok () else .error e

/-- A guard passes just when its condition holds. -/
theorem require_eq_ok {c : Prop} [Decidable c] {e : ε} {u : Unit} :
    require c e = .ok u ↔ c := by
  unfold require
  split <;> simp_all

/-- A check raises nothing but its own exception. -/
theorem require_errors {P : ε → Prop} {c : Prop} [Decidable c] {e : ε} (h : P e) (e' : ε)
    (hrefused : require c e = .error e') : P e' := by
  unfold require at hrefused
  split at hrefused
  · cases hrefused
  · cases hrefused
    exact h

/-- What a loop that returns has made of every item. -/
theorem mapM_eq_ok {f : α → Except ε β} {xs : List α} {ys : List β} :
    xs.mapM f = .ok ys ↔ List.Forall₂ (fun x y => f x = .ok y) xs ys := by
  induction xs generalizing ys with
  | nil =>
      rw [List.mapM_nil, pure_eq_ok, List.forall₂_nil_left_iff]
      exact eq_comm
  | cons x xs ih =>
      simp only [List.mapM_cons, bind_eq_ok, pure_eq_ok, ih]
      constructor
      · rintro ⟨y, hy, ys', hys, rfl⟩
        exact .cons hy hys
      · rintro (_ | ⟨hy, hys⟩)
        exact ⟨_, hy, _, hys, rfl⟩

/-- A loop that raises has raised at one of its items. -/
theorem error_of_mapM {f : α → Except ε β} {xs : List α} {e : ε} (h : xs.mapM f = .error e) :
    ∃ x ∈ xs, f x = .error e := by
  induction xs with
  | nil => cases h
  | cons x xs ih =>
      rw [List.mapM_cons, bind_eq_error] at h
      rcases h with hx | ⟨y, -, h⟩
      · exact ⟨x, List.mem_cons_self, hx⟩
      · rw [bind_eq_error] at h
        rcases h with hxs | ⟨ys, -, h⟩
        · obtain ⟨z, hz, hfz⟩ := ih hxs
          exact ⟨z, List.mem_cons_of_mem _ hz, hfz⟩
        · cases h

/-- What a successful traversal gives was given for one of the elements. -/
theorem mem_of_mapM {f : α → Except ε β} {xs : List α} {ys : List β} (h : xs.mapM f = .ok ys)
    {y : β} (hy : y ∈ ys) : ∃ x ∈ xs, f x = .ok y := by
  have hall := mapM_eq_ok.1 h
  clear h
  induction hall with
  | nil => cases hy
  | cons hhead htail ih =>
      rcases List.mem_cons.1 hy with rfl | hy
      · exact ⟨_, List.mem_cons_self, hhead⟩
      · obtain ⟨x, hx, hfx⟩ := ih hy
        exact ⟨x, List.mem_cons_of_mem _ hx, hfx⟩

/-- A loop over which nothing raises returns what it has made of every item. -/
theorem exists_mapM {f : α → Except ε β} {xs : List α} (h : ∀ x ∈ xs, ∃ y, f x = .ok y) :
    ∃ ys, xs.mapM f = .ok ys ∧ ∀ x ∈ xs, ∀ y, f x = .ok y → y ∈ ys := by
  induction xs with
  | nil => exact ⟨[], rfl, by simp⟩
  | cons x xs ih =>
      obtain ⟨y, hy⟩ := h x List.mem_cons_self
      obtain ⟨ys, hys, hmem⟩ := ih fun z hz => h z (List.mem_cons_of_mem _ hz)
      refine ⟨y :: ys, mapM_eq_ok.2 (.cons hy (mapM_eq_ok.1 hys)), ?_⟩
      intro z hz w hw
      rcases List.mem_cons.1 hz with rfl | hz
      · rw [hy] at hw
        cases hw
        exact List.mem_cons_self
      · exact List.mem_cons_of_mem _ (hmem z hz w hw)

/-- No item of a loop that returns has raised. -/
theorem ok_of_mapM {f : α → Except ε β} {xs : List α} {ys : List β} (h : xs.mapM f = .ok ys)
    {x : α} (hx : x ∈ xs) : ∃ y, f x = .ok y := by
  have hall := mapM_eq_ok.1 h
  clear h
  induction hall with
  | nil => cases hx
  | cons hhead htail ih =>
      rcases List.mem_cons.1 hx with rfl | hx
      · exact ⟨_, hhead⟩
      · exact ih hx

/-- When no check raises, the effectful filter is the filter, reversed as the accumulator is. -/
theorem filterAuxM_eq_ok {p : α → Except ε Bool} {q : α → Bool} {xs : List α}
    (h : ∀ x ∈ xs, p x = .ok (q x)) (acc : List α) :
    xs.filterAuxM p acc = .ok ((xs.filter q).reverse ++ acc) := by
  induction xs generalizing acc with
  | nil => rfl
  | cons x xs ih =>
      rw [List.filterAuxM, h x List.mem_cons_self]
      change xs.filterAuxM p (bif q x then x :: acc else acc) = _
      rw [ih fun y hy => h y (List.mem_cons_of_mem _ hy)]
      cases hq : q x <;> simp [hq]

/-- A selection in which no test raises. -/
theorem filterM_eq_ok {p : α → Except ε Bool} {q : α → Bool} {xs : List α}
    (h : ∀ x ∈ xs, p x = .ok (q x)) : xs.filterM p = .ok (xs.filter q) := by
  rw [List.filterM, filterAuxM_eq_ok h]
  simp [bind, Except.bind, pure, Except.pure]

/-- Elements that a check refuses may be left out before it, and for the others another check may
stand that agrees with it. -/
theorem filterAuxM_filter {p r : α → Except ε Bool} {q : α → Bool} {xs : List α}
    (hselected : ∀ x ∈ xs, q x = true → p x = r x)
    (hout : ∀ x ∈ xs, q x = false → p x = .ok false) (acc : List α) :
    xs.filterAuxM p acc = (xs.filter q).filterAuxM r acc := by
  induction xs generalizing acc with
  | nil => rfl
  | cons x xs ih =>
      have htail := ih (fun y hy => hselected y (List.mem_cons_of_mem _ hy))
        (fun y hy => hout y (List.mem_cons_of_mem _ hy))
      rw [List.filterAuxM]
      cases hq : q x with
      | true =>
          rw [List.filter_cons_of_pos hq, List.filterAuxM, hselected x List.mem_cons_self hq]
          exact bind_congr fun b => htail _
      | false =>
          rw [List.filter_cons_of_neg (by simp [hq]), hout x List.mem_cons_self hq]
          exact htail acc

/-- What another test rules out does not matter to a selection. -/
theorem filterM_filter {p r : α → Except ε Bool} {q : α → Bool} {xs : List α}
    (hselected : ∀ x ∈ xs, q x = true → p x = r x)
    (hout : ∀ x ∈ xs, q x = false → p x = .ok false) :
    xs.filterM p = (xs.filter q).filterM r := by
  rw [List.filterM, List.filterM, filterAuxM_filter hselected hout]

/-- What a successful filter keeps has passed the check. -/
theorem mem_filterAuxM {p : α → Except ε Bool} {xs acc ys : List α}
    (h : xs.filterAuxM p acc = .ok ys) {y : α} :
    y ∈ ys ↔ y ∈ acc ∨ (y ∈ xs ∧ p y = .ok true) := by
  induction xs generalizing acc with
  | nil =>
      rw [List.filterAuxM, pure_eq_ok] at h
      simp [h]
  -- an element is kept by what the test says of it
  | cons x xs ih =>
      simp only [List.filterAuxM, bind_eq_ok] at h
      obtain ⟨selected, hselected, hrest⟩ := h
      rw [ih hrest, List.mem_cons]
      cases selected with
      | false =>
          constructor
          · rintro (hacc | ⟨hxs, hy⟩)
            · exact .inl hacc
            · exact .inr ⟨.inr hxs, hy⟩
          · rintro (hacc | ⟨rfl | hxs, hy⟩)
            · exact .inl hacc
            · rw [hselected] at hy
              cases hy
            · exact .inr ⟨hxs, hy⟩
      | true =>
          rw [cond_true, List.mem_cons]
          constructor
          · rintro ((rfl | hacc) | ⟨hxs, hy⟩)
            · exact .inr ⟨.inl rfl, hselected⟩
            · exact .inl hacc
            · exact .inr ⟨.inr hxs, hy⟩
          · rintro (hacc | ⟨rfl | hxs, hy⟩)
            · exact .inl (.inr hacc)
            · exact .inl (.inl rfl)
            · exact .inr ⟨hxs, hy⟩

/-- What a selection that returns has selected. -/
theorem mem_filterM {p : α → Except ε Bool} {xs ys : List α} (h : xs.filterM p = .ok ys) {y : α} :
    y ∈ ys ↔ y ∈ xs ∧ p y = .ok true := by
  simp only [List.filterM, bind_eq_ok, pure_eq_ok] at h
  obtain ⟨selected, hselected, rfl⟩ := h
  simp [mem_filterAuxM hselected]

end Except
