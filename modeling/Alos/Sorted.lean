import Mathlib.Data.List.Sort

/-! # Stable sorting

Facts about insertion sort over a total preorder, for any element type.

* `filter_insertionSort`: a selection of a sorted list is the selection, sorted;
* `rel_getLast`: every element comes before the last one.
-/

namespace Py

variable {α : Type} {r : α → α → Prop} [DecidableRel r]

theorem filter_orderedInsert [IsTrans α r] (p : α → Bool) (a : α) {xs : List α}
    (hxs : xs.Pairwise r) :
    (xs.orderedInsert r a).filter p =
      if p a then (xs.filter p).orderedInsert r a else xs.filter p := by
  induction xs with
  | nil => by_cases hp : p a <;> simp [hp]
  | cons x xs ih =>
      rw [List.pairwise_cons] at hxs
      by_cases hax : r a x
      · rw [List.orderedInsert_cons_of_le r xs hax]
        by_cases hp : p a = true
        · rw [if_pos hp, List.filter_cons_of_pos hp]
          -- whatever is selected comes after `a`
          have hafter : ∀ y ∈ (x :: xs).filter p, r a y := by
            intro y hy
            rcases List.mem_cons.1 (List.mem_filter.1 hy).1 with rfl | hy
            · exact hax
            · exact IsTrans.trans _ _ _ hax (hxs.1 y hy)
          cases hselected : (x :: xs).filter p with
          | nil => rfl
          | cons y ys =>
              rw [List.orderedInsert_cons_of_le r ys (hafter y (by simp [hselected]))]
        · rw [if_neg hp, List.filter_cons_of_neg hp]
      · rw [List.orderedInsert_of_not_le r xs hax]
        by_cases hpx : p x = true
        · rw [List.filter_cons_of_pos hpx, List.filter_cons_of_pos hpx, ih hxs.2]
          by_cases hp : p a = true
          · rw [if_pos hp, if_pos hp, List.orderedInsert_of_not_le r _ hax]
          · rw [if_neg hp, if_neg hp]
        · rw [List.filter_cons_of_neg hpx, List.filter_cons_of_neg hpx, ih hxs.2]

theorem filter_insertionSort [IsTrans α r] [Std.Total r] (p : α → Bool) (xs : List α) :
    (xs.insertionSort r).filter p = (xs.filter p).insertionSort r := by
  induction xs with
  | nil => rfl
  | cons x xs ih =>
      rw [List.insertionSort_cons, filter_orderedInsert p x (List.pairwise_insertionSort r xs), ih]
      by_cases hp : p x = true
      · rw [if_pos hp, List.filter_cons_of_pos hp, List.insertionSort_cons]
      · rw [if_neg hp, List.filter_cons_of_neg hp]

omit [DecidableRel r] in
/-- The last element of an ordered list. -/
theorem rel_getLast [Std.Refl r] {xs : List α} (hxs : xs.Pairwise r) {y z : α}
    (hz : xs.getLast? = some z) (hy : y ∈ xs) : r y z := by
  rw [List.getLast?_eq_some_iff] at hz
  obtain ⟨ys, rfl⟩ := hz
  rcases List.mem_append.1 hy with hy | hy
  · exact (List.pairwise_append.1 hxs).2.2 y hy z List.mem_cons_self
  · rw [List.mem_singleton.1 hy]
    exact Std.Refl.refl z

end Py
