import Mathlib.Data.List.Perm.Basic
import Mathlib.Data.List.Sort
import Mathlib.Order.Basic

/-! # The newest items of a log

A log is appended to, and read from its end. A database that is asked for the
rows with the greatest stamps orders them as it likes when stamps are the same.

* `newest`: the last items, the last one first;
* `Ranked`: what `ORDER BY stamp DESC LIMIT n` may answer;
* `ranked_iff`: it is `newest` when the stamps increase along the log.
-/

namespace Py

variable {α β : Type}

/-- `tuple(reversed(xs[-n:]))`. -/
def newest (n : ℕ) (xs : List α) : List α := (xs.drop (xs.length - n)).reverse

theorem newest_eq_take (n : ℕ) (xs : List α) : newest n xs = xs.reverse.take n := by
  rw [newest, List.take_reverse]

variable [LinearOrder β] (stamp : α → β)

/-- An answer to `ORDER BY stamp DESC LIMIT n`. -/
def Ranked (n : ℕ) (xs ys : List α) : Prop :=
  ∃ zs : List α, zs.Perm xs ∧ (zs.Pairwise fun a b => stamp b ≤ stamp a) ∧ ys = zs.take n

/-- The stamps increase along the log. -/
def Ascending (xs : List α) : Prop := xs.Pairwise fun a b => stamp a < stamp b

variable {stamp}

theorem Ascending.filter {xs : List α} (h : Ascending stamp xs) (p : α → Bool) :
    Ascending stamp (xs.filter p) :=
  List.Pairwise.filter p h

/-- A log whose stamps increase has one order only. -/
theorem eq_reverse_of_perm {xs zs : List α} (hxs : Ascending stamp xs) (hperm : zs.Perm xs)
    (hzs : zs.Pairwise fun a b => stamp b ≤ stamp a) : zs = xs.reverse := by
  have hstrict : xs.reverse.Pairwise fun a b => stamp b < stamp a := List.pairwise_reverse.2 hxs
  have hnodup : zs.Pairwise fun a b => stamp a ≠ stamp b := by
    have hreverse : xs.reverse.Pairwise fun a b => stamp a ≠ stamp b := hstrict.imp fun h => h.ne'
    exact (hperm.trans xs.reverse_perm.symm).symm.pairwise hreverse fun h => h.symm
  have hdescending : zs.Pairwise fun a b => stamp b < stamp a :=
    hzs.imp₂ (fun a b hle hne => lt_of_le_of_ne hle hne.symm) hnodup
  apply List.Perm.eq_of_pairwise ?_ hdescending hstrict (hperm.trans xs.reverse_perm.symm)
  intro a b _ _ hab hba
  exact absurd hab hba.asymm

theorem ranked_iff {n : ℕ} {xs ys : List α} (h : Ascending stamp xs) :
    Ranked stamp n xs ys ↔ ys = newest n xs := by
  constructor
  · rintro ⟨zs, hperm, hzs, rfl⟩
    rw [eq_reverse_of_perm h hperm hzs, newest_eq_take]
  · rintro rfl
    refine ⟨xs.reverse, xs.reverse_perm, ?_, newest_eq_take n xs⟩
    exact (List.pairwise_reverse.2 h).imp fun hlt => hlt.le

variable (stamp) in
/-- There is an answer whatever the stamps are. -/
theorem exists_ranked (n : ℕ) (xs : List α) : ∃ ys, Ranked stamp n xs ys := by
  refine ⟨_, xs.insertionSort (fun a b => stamp b ≤ stamp a), List.perm_insertionSort _ xs, ?_, rfl⟩
  have htotal : Std.Total fun a b : α => stamp b ≤ stamp a := ⟨fun a b => le_total _ _⟩
  have htrans : IsTrans α fun a b => stamp b ≤ stamp a := ⟨fun a b c hab hbc => hbc.trans hab⟩
  exact List.pairwise_insertionSort _ xs

end Py
