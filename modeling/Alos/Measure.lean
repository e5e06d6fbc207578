import Mathlib.Algebra.BigOperators.Group.List.Basic
import Mathlib.Algebra.GroupWithZero.Nat
import Alos.Table

/-! # Measures

A measure on the states of a system that every step lowers by at least the work
that the step does: no run does more work than the measure of its first state.

* `runWith` runs a list of commands and keeps the replies;
* `work_le_measure` is the rule;
* `sum_put` is what an assignment makes of a measure that is a sum over the
  values of a dict.
-/

namespace Py

section Runs

variable {σ C R : Type} (step : σ → C → R × σ)

/-- The replies to the commands, and the state after them. -/
def runWith (s : σ) : List C → List R × σ
  | [] => ([], s)
  | c :: cs =>
      let (replies, s') := runWith (step s c).2 cs
      ((step s c).1 :: replies, s')

theorem runWith_snd (s : σ) (cs : List C) :
    (runWith step s cs).2 = cs.foldl (fun s c => (step s c).2) s := by
  induction cs generalizing s with
  | nil => rfl
  | cons c cs ih => exact ih (step s c).2

variable {step}

/-- The rule: what is done in a run comes off the measure. -/
theorem work_le_measure {measure : σ → ℕ} {work : R → ℕ} {P : C → Prop}
    (h : ∀ s c, P c → measure (step s c).2 + work (step s c).1 ≤ measure s) (s : σ) {cs : List C}
    (hcs : ∀ c ∈ cs, P c) :
    measure (runWith step s cs).2 + ((runWith step s cs).1.map work).sum ≤ measure s := by
  induction cs generalizing s with
  | nil =>
      simp only [runWith, List.map_nil, List.sum_nil]
      omega
  | cons c cs ih =>
      have hstep := h s c (hcs c List.mem_cons_self)
      have hrest := ih (step s c).2 fun d hd => hcs d (List.mem_cons_of_mem _ hd)
      simp only [runWith, List.map_cons, List.sum_cons]
      omega

end Runs

section Sums

variable {κ α : Type} [DecidableEq κ] {key : α → κ}

/-- A value takes the place of the one that was under its key. -/
theorem sum_put (measure : α → ℕ) {t : Table key} {old new : α} (h : t.get? (key new) = some old) :
    ((t.put new).values.map measure).sum + measure old =
      (t.values.map measure).sum + measure new := by
  rcases t with ⟨values, hnodup⟩
  rw [Table.put_values]
  simp only [Table.get?] at h ⊢
  clear hnodup
  induction values with
  | nil => cases h
  | cons x xs ih =>
      rw [List.find?_cons] at h
      rw [assign_cons]
      -- the value that is replaced is the first, or stands in the rest
      by_cases hx : key x = key new
      · simp only [hx, decide_true, Option.some.injEq] at h
        subst h
        rw [if_pos hx, List.map_cons, List.map_cons, List.sum_cons, List.sum_cons]
        omega
      · simp only [hx, decide_false] at h
        have hrest := ih h
        rw [if_neg hx, List.map_cons, List.map_cons, List.sum_cons, List.sum_cons]
        omega

end Sums

end Py
