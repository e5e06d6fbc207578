import Alos.Table

/-! # Tables that refer to each other

A record names another one by its key. Tables that only take new keys never
lose what a record refers to.

* `Table.insert?` is the insertion of a new key;
* `Table.setDefault` is the insertion that keeps what is there;
* `Table.Within` orders the tables by what is found in them, and an insertion
  goes up (`Table.within_insert?`);
* `Refers` is referential integrity: it survives the growth of either table
  (`Refers.mono`, `Refers.insert?`).
-/

namespace Py

variable {κ κ' α β : Type} [DecidableEq κ] [DecidableEq κ'] {key : α → κ} {key' : β → κ'}

namespace Table

/-- The assignment of a new key. -/
def insert? (t : Table key) (x : α) : Option (Table key) :=
  if (t.get? (key x)).isSome then none else some (t.put x)

theorem insert?_eq_some {t t' : Table key} {x : α} :
    t.insert? x = some t' ↔ t.get? (key x) = none ∧ t' = t.put x := by
  unfold insert?
  cases t.get? (key x) with
  | none => simp [eq_comm]
  | some y => simp

theorem insert?_eq_none {t : Table key} {x : α} :
    t.insert? x = none ↔ ∃ y, t.get? (key x) = some y := by
  unfold insert?
  cases t.get? (key x) <;> simp

/-- `d.setdefault(key(x), x)`. -/
def setDefault (t : Table key) (x : α) : Table key := (t.insert? x).getD t

theorem get?_setDefault (t : Table key) (x : α) :
    (t.setDefault x).get? (key x) = some ((t.get? (key x)).getD x) := by
  unfold setDefault insert?
  cases h : t.get? (key x) with
  | none => simp
  | some y => simp [h]

theorem setDefault_eq_self {t : Table key} {x : α} :
    t.setDefault x = t ↔ ∃ y, t.get? (key x) = some y := by
  constructor
  · intro h
    have hget := t.get?_setDefault x
    rw [h] at hget
    exact ⟨_, hget⟩
  · intro h
    rw [setDefault, insert?_eq_none.2 h, Option.getD_none]

/-- What is found in one table is found in the other. -/
def Within (t t' : Table key) : Prop := ∀ k x, t.get? k = some x → t'.get? k = some x

theorem Within.refl (t : Table key) : t.Within t := fun _ _ h => h

theorem Within.trans {t₁ t₂ t₃ : Table key} (h : t₁.Within t₂) (h' : t₂.Within t₃) :
    t₁.Within t₃ := fun k x hx => h' k x (h k x hx)

theorem within_insert? {t t' : Table key} {x : α} (h : t.insert? x = some t') : t.Within t' := by
  obtain ⟨hnew, rfl⟩ := insert?_eq_some.1 h
  exact fun k y hy => get?_put_of_none hnew hy

end Table

/-- Every record of `t` names a record of `t'` under the key `ref` that it
agrees with. -/
def Refers (t : Table key) (ref : α → κ') (t' : Table key') (Agree : α → β → Prop) : Prop :=
  ∀ x ∈ t.values, ∃ y, t'.get? (ref x) = some y ∧ Agree x y

namespace Refers

variable {ref : α → κ'} {Agree : α → β → Prop} {t t₁ : Table key} {t' t₁' : Table key'}

omit [DecidableEq κ] in
theorem empty : Refers (Table.empty : Table key) ref t' Agree := by
  intro x hx
  cases hx

omit [DecidableEq κ] in
theorem mono (h : Refers t ref t' Agree) (hgrow : t'.Within t₁') : Refers t ref t₁' Agree := by
  intro x hx
  obtain ⟨y, hy, hagree⟩ := h x hx
  exact ⟨y, hgrow _ _ hy, hagree⟩

theorem insert? (h : Refers t ref t' Agree) {x : α} (hinsert : t.insert? x = some t₁)
    (hx : ∃ y, t'.get? (ref x) = some y ∧ Agree x y) : Refers t₁ ref t' Agree := by
  obtain ⟨-, rfl⟩ := Table.insert?_eq_some.1 hinsert
  intro z hz
  rcases Table.mem_put.1 hz with rfl | ⟨hz, -⟩
  · exact hx
  · exact h z hz

end Refers

end Py
