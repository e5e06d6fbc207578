import Mathlib.Data.List.TakeWhile
import Alos.Coop.System

/-! # What has happened since a call started

`since i` cuts the segments before the first one of the call `i` off a trace, so
that a condition on runs can speak of what has overtaken a call.
-/

namespace Coop

variable {C Q : Type} {A : Q → Type} {ε α : Type}

/-- The segments from the first one of thread `i` on. -/
def since (i : ℕ) (tr : List (Label C Q A ε α)) : List (Label C Q A ε α) :=
  tr.dropWhile fun l => l.thread ≠ i

theorem since_append {i : ℕ} {tr : List (Label C Q A ε α)} (h : ∃ l ∈ tr, l.thread = i)
    (l' : Label C Q A ε α) : since i (tr ++ [l']) = since i tr ++ [l'] := by
  obtain ⟨l, hl, hthread⟩ := h
  have hne : since i tr ≠ [] := by
    intro hnil
    have hall := List.dropWhile_eq_nil_iff.1 hnil l hl
    simp [hthread] at hall
  unfold since at hne ⊢
  rw [List.dropWhile_append, if_neg (by simpa using hne)]

/-- What is before the first segment of a thread is of other threads. -/
theorem mem_since {i : ℕ} {pre post : List (Label C Q A ε α)} {l : Label C Q A ε α}
    (h : ∃ l' ∈ pre ++ [l], l'.thread = i) : l ∈ since i (pre ++ l :: post) := by
  induction pre with
  | nil =>
      obtain ⟨l', hl', hthread⟩ := h
      rw [List.nil_append, List.mem_singleton] at hl'
      subst hl'
      simp [since, hthread]
  | cons l₀ pre ih =>
      unfold since at ih ⊢
      rw [List.cons_append, List.dropWhile_cons]
      -- the trace is cut at the thread's own last step
      by_cases h₀ : l₀.thread = i
      · rw [if_neg (by simpa using h₀)]
        simp
      · rw [if_pos (by simpa using h₀)]
        obtain ⟨l', hl', hthread⟩ := h
        rcases List.mem_cons.1 hl' with rfl | hl'
        · exact absurd hthread h₀
        · exact ih ⟨l', hl', hthread⟩

end Coop
