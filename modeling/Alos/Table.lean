import Mathlib.Data.List.Nodup

/-! # Tables

A dict whose values are filed under a key of their own, `d[key(x)] = x`. The
values are kept in the order in which their keys were first assigned, as Python
keeps the items of a dict.

* `Table` carries the fact that no key occurs twice;
* `Table.put` is the assignment, `Table.get?` the lookup, and
  `Table.get?_put` says how they meet;
* `Table.ofList` is the dict comprehension over a list of values;
* `assign_filter` and its variants say what an assignment does to a selection
  of the values;
* `Table.restrict` is the part of a dict that is looked at.
-/

namespace Py

variable {κ α : Type} [DecidableEq κ]

/-- `d[key(x)] = x` on the values of `d`: at the place of the key, or at the
end. -/
def assign (key : α → κ) (x : α) : List α → List α
  | [] => [x]
  | y :: ys => if key y = key x then x :: ys else y :: assign key x ys

section Assign

variable (key : α → κ) (x : α)

theorem assign_cons (y : α) (ys : List α) :
    assign key x (y :: ys) = if key y = key x then x :: ys else y :: assign key x ys := rfl

/-- Assigning keeps the order of the keys and adds a new one last. -/
theorem map_assign (ys : List α) :
    (assign key x ys).map key =
      if key x ∈ ys.map key then ys.map key else ys.map key ++ [key x] := by
  induction ys with
  | nil => simp [assign]
  | cons y ys ih =>
      rw [assign_cons]
      by_cases hy : key y = key x
      · simp [hy]
      · rw [if_neg hy, List.map_cons, ih, List.map_cons]
        by_cases hmem : key x ∈ ys.map key
        · rw [if_pos hmem, if_pos (List.mem_cons_of_mem _ hmem)]
        · have hcons : key x ∉ key y :: ys.map key := by
            simp only [List.mem_cons, not_or]
            exact ⟨fun h => hy h.symm, hmem⟩
          rw [if_neg hmem, if_neg hcons]
          rfl

/-- Assigning keeps the keys distinct. -/
theorem nodup_assign {ys : List α} (h : (ys.map key).Nodup) :
    ((assign key x ys).map key).Nodup := by
  rw [map_assign]
  split
  · exact h
  · rename_i hmem
    simpa [List.nodup_append, h] using hmem

/-- What is found after an assignment: the new value under its key, the old ones elsewhere. -/
theorem find?_assign (ys : List α) (k : κ) :
    (assign key x ys).find? (fun y => key y = k) =
      if key x = k then some x else ys.find? fun y => key y = k := by
  induction ys with
  | nil => by_cases hk : key x = k <;> simp [assign, hk]
  | cons y ys ih =>
      rw [assign_cons]
      by_cases hy : key y = key x
      · -- the old value under the key goes
        by_cases hk : key x = k <;> simp [hy, hk]
      · rw [if_neg hy, List.find?_cons, List.find?_cons, ih]
        by_cases hyk : key y = k
        · have hk : key x ≠ k := fun h => hy (hyk.trans h.symm)
          simp [hyk, hk]
        · simp [hyk]

/-- An assignment of a new key appends. -/
theorem assign_new {ys : List α} (h : ∀ y ∈ ys, key y ≠ key x) : assign key x ys = ys ++ [x] := by
  induction ys with
  | nil => rfl
  | cons y ys ih =>
      rw [assign_cons]
      rw [if_neg (h y List.mem_cons_self), ih fun z hz => h z (List.mem_cons_of_mem _ hz)]
      rfl

/-- The values under the key of `x` are all selected. -/
theorem assign_filter {p : α → Bool} (hp : ∀ y, key y = key x → p y = true) (ys : List α) :
    (assign key x ys).filter p = assign key x (ys.filter p) := by
  induction ys with
  | nil => simp [assign, hp x rfl]
  | cons y ys ih =>
      rw [assign_cons]
      by_cases hy : key y = key x
      · rw [if_pos hy, List.filter_cons_of_pos (hp x rfl), List.filter_cons_of_pos (hp y hy),
          assign_cons, if_pos hy]
      · rw [if_neg hy]
        by_cases hpy : p y = true
        · rw [List.filter_cons_of_pos hpy, List.filter_cons_of_pos hpy, ih, assign_cons,
            if_neg hy]
        · rw [List.filter_cons_of_neg hpy, List.filter_cons_of_neg hpy, ih]

/-- No value under the key of `x` is selected. -/
theorem assign_filter_not {p : α → Bool} (hp : ∀ y, key y = key x → p y = false) (ys : List α) :
    (assign key x ys).filter p = ys.filter p := by
  induction ys with
  | nil => simp [assign, hp x rfl]
  | cons y ys ih =>
      rw [assign_cons]
      by_cases hy : key y = key x
      · rw [if_pos hy, List.filter_cons_of_neg (by simp [hp x rfl]),
          List.filter_cons_of_neg (by simp [hp y hy])]
      · rw [if_neg hy, List.filter_cons, List.filter_cons, ih]

/-- Keys that tell the same values apart lead to the same assignments. -/
theorem assign_congr {κ' : Type} [DecidableEq κ'] (key' : α → κ') {ys : List α}
    (h : ∀ y ∈ ys, key y = key x ↔ key' y = key' x) : assign key x ys = assign key' x ys := by
  induction ys with
  | nil => rfl
  | cons y ys ih =>
      have hy := h y List.mem_cons_self
      have htail := ih fun z hz => h z (List.mem_cons_of_mem _ hz)
      rw [assign_cons, assign_cons]
      by_cases hkey : key y = key x
      · rw [if_pos hkey, if_pos (hy.1 hkey)]
      · rw [if_neg hkey, if_neg (fun h' => hkey (hy.2 h')), htail]

/-- An assignment in a dict of images. -/
theorem assign_map {β : Type} {key' : β → κ} {f : α → β} (h : ∀ y, key' (f y) = key y)
    (ys : List α) : (assign key x ys).map f = assign key' (f x) (ys.map f) := by
  induction ys with
  | nil => rfl
  | cons y ys ih =>
      rw [assign_cons, List.map_cons, assign_cons, h, h]
      by_cases hy : key y = key x
      · rw [if_pos hy, if_pos hy, List.map_cons]
      · rw [if_neg hy, if_neg hy, List.map_cons, ih]

end Assign

/-- A dict whose values are filed under `key`. -/
@[ext] structure Table (key : α → κ) where
  values : List α
  nodup : (values.map key).Nodup

namespace Table

variable {key : α → κ}

/-- The empty dictionary. -/
def empty : Table key := ⟨[], List.nodup_nil⟩

/-- `d.get(k)`. -/
def get? (t : Table key) (k : κ) : Option α := t.values.find? fun y => key y = k

/-- `d[key(x)] = x`. -/
def put (t : Table key) (x : α) : Table key := ⟨assign key x t.values, nodup_assign key x t.nodup⟩

/-- `{key(x): x for x in xs}`. -/
def ofList (xs : List α) : Table key := xs.foldl put empty

theorem put_values (t : Table key) (x : α) : (t.put x).values = assign key x t.values := rfl

@[simp] theorem get?_empty (k : κ) : (empty : Table key).get? k = none := rfl

/-- The same, for a table. -/
theorem get?_put (t : Table key) (x : α) (k : κ) :
    (t.put x).get? k = if key x = k then some x else t.get? k :=
  find?_assign key x t.values k

/-- The value that was put is found. -/
@[simp] theorem get?_put_self (t : Table key) (x : α) : (t.put x).get? (key x) = some x := by
  rw [get?_put, if_pos rfl]

/-- Under every other key nothing changes. -/
theorem get?_put_of_ne (t : Table key) {x : α} {k : κ} (h : key x ≠ k) :
    (t.put x).get? k = t.get? k := by
  rw [get?_put, if_neg h]

/-- A value under a new key takes no other's place. -/
theorem get?_put_of_none {t : Table key} {x y : α} {k : κ} (h : t.get? (key x) = none)
    (hy : t.get? k = some y) : (t.put x).get? k = some y := by
  have hne : key x ≠ k := by
    rintro rfl
    rw [h] at hy
    cases hy
  rw [get?_put_of_ne t hne]
  exact hy

/-- What is found under a key is filed under it. -/
theorem key_of_get? {t : Table key} {k : κ} {x : α} (h : t.get? k = some x) : key x = k := by
  simpa using List.find?_some h

/-- What is found stands in the table. -/
theorem mem_of_get? {t : Table key} {k : κ} {x : α} (h : t.get? k = some x) : x ∈ t.values :=
  List.mem_of_find?_eq_some h

/-- A value is found under its key. -/
theorem get?_of_mem {t : Table key} {x : α} (h : x ∈ t.values) : t.get? (key x) = some x := by
  rcases t with ⟨values, hnodup⟩
  simp only [get?] at h ⊢
  induction values with
  | nil => cases h
  | cons y ys ih =>
      simp only [List.map_cons, List.nodup_cons] at hnodup
      rcases List.mem_cons.1 h with rfl | hx
      · simp
      · have hne : key y ≠ key x := by
          intro hkey
          exact hnodup.1 (hkey ▸ List.mem_map_of_mem hx)
        rw [List.find?_cons]
        simp only [hne, decide_false]
        exact ih hnodup.2 hx

/-- A value is found under its key and under no other. -/
theorem get?_eq_some {t : Table key} {k : κ} {x : α} :
    t.get? k = some x ↔ x ∈ t.values ∧ key x = k := by
  constructor
  · intro h
    exact ⟨mem_of_get? h, key_of_get? h⟩
  · rintro ⟨hmem, rfl⟩
    exact get?_of_mem hmem

/-- Nothing is found exactly when no value has the key. -/
theorem get?_eq_none {t : Table key} {k : κ} : t.get? k = none ↔ ∀ x ∈ t.values, key x ≠ k := by
  simp [get?]

omit [DecidableEq κ] in
/-- A selection of one value. -/
theorem filter_eq_singleton {t : Table key} {x : α} (h : x ∈ t.values) {p : α → Bool}
    (hp : ∀ y ∈ t.values, p y = true ↔ y = x) : t.values.filter p = [x] := by
  classical
  have hfilter : t.values.filter p = t.values.filter (· = x) := by
    apply List.filter_congr
    intro y hy
    rw [Bool.eq_iff_iff, hp y hy, decide_eq_true_eq]
  have hcount : t.values.count x = 1 := List.count_eq_one_of_mem (List.Nodup.of_map key t.nodup) h
  rw [hfilter, List.filter_eq, hcount]
  rfl

/-- The values of an assignment are the new one and those under other keys. -/
theorem mem_put {t : Table key} {x z : α} :
    z ∈ (t.put x).values ↔ z = x ∨ (z ∈ t.values ∧ key z ≠ key x) := by
  rw [← and_iff_left (a := z ∈ (t.put x).values) (rfl : key z = key z), ← get?_eq_some, get?_put]
  by_cases h : key x = key z
  · simp [h, eq_comm]
  · rw [if_neg h, get?_eq_some]
    constructor
    · intro hz
      exact .inr ⟨hz.1, Ne.symm h⟩
    · rintro (rfl | hz)
      · exact absurd rfl h
      · exact ⟨hz.1, rfl⟩

/-- What a table holds after some assignments was there or was assigned. -/
theorem mem_of_foldl_put {t : Table key} {xs : List α} {z : α}
    (h : z ∈ (xs.foldl put t).values) : z ∈ t.values ∨ z ∈ xs := by
  induction xs generalizing t with
  | nil => exact .inl h
  | cons x xs ih =>
      rcases ih h with hz | hz
      · rcases mem_put.1 hz with rfl | ⟨hz, -⟩
        · exact .inr List.mem_cons_self
        · exact .inl hz
      · exact .inr (List.mem_cons_of_mem _ hz)

/-- A dictionary made of a list holds values of the list only. -/
theorem mem_of_ofList {xs : List α} {z : α} (h : z ∈ (ofList xs : Table key).values) : z ∈ xs :=
  (mem_of_foldl_put h).resolve_left List.not_mem_nil

/-- Values with distinct keys are kept in their order. -/
theorem foldl_put_values (t : Table key) (xs : List α) (h : ((t.values ++ xs).map key).Nodup) :
    (xs.foldl put t).values = t.values ++ xs := by
  induction xs generalizing t with
  | nil => simp
  | cons x xs ih =>
      have hput : (t.put x).values = t.values ++ [x] := by
        apply assign_new
        intro y hy hkey
        simp only [List.map_append, List.map_cons, List.nodup_append, List.mem_cons] at h
        exact h.2.2 _ (List.mem_map_of_mem hy) _ (.inl rfl) hkey
      rw [List.foldl_cons, ih _ (by simpa [hput] using h), hput]
      simp

/-- Values with distinct keys are kept as they are. -/
theorem ofList_values {xs : List α} (h : (xs.map key).Nodup) :
    (ofList xs : Table key).values = xs := by
  simpa [ofList, empty] using foldl_put_values (empty : Table key) xs (by simpa [empty] using h)

end Table

/-! ## A part of a dict -/

section Restrict

variable {key : α → κ}

omit [DecidableEq κ] in
/-- The values that meet `p`. -/
def Table.restrict (p : α → Prop) [DecidablePred p] (t : Table key) : Table key :=
  ⟨t.values.filter p, t.nodup.sublist (List.filter_sublist.map key)⟩

variable {p : α → Prop} [DecidablePred p] {t : Table key} {x : α}

omit [DecidableEq κ] in
/-- A selection of such values. -/
theorem Table.filter_restrict {q : α → Bool} (h : ∀ a, q a = true → p a) :
    (t.restrict p).values.filter q = t.values.filter q := by
  rw [restrict, List.filter_filter]
  apply List.filter_congr
  intro a ha
  by_cases hq : q a = true
  · simp [hq, h a hq]
  · simp [hq]

/-- A key of the restricted part is looked up as in the whole. -/
theorem Table.get?_restrict {k : κ} (h : ∀ a, key a = k → p a) :
    (t.restrict p).get? k = t.get? k := by
  apply Option.ext
  intro a
  rw [get?_eq_some, get?_eq_some, restrict, List.mem_filter, decide_eq_true_eq]
  constructor
  · rintro ⟨⟨ha, -⟩, hkey⟩
    exact ⟨ha, hkey⟩
  · rintro ⟨ha, hkey⟩
    exact ⟨⟨ha, h a hkey⟩, hkey⟩

/-- A value of the part is put into it. -/
theorem Table.restrict_put (h : ∀ a, key a = key x → p a) :
    (t.put x).restrict p = (t.restrict p).put x := by
  apply Table.ext
  simp only [restrict, put_values]
  apply assign_filter
  intro a ha
  exact decide_eq_true (h a ha)

/-- A value outside leaves it as it was. -/
theorem Table.restrict_put_of_not (h : ∀ a, key a = key x → ¬ p a) :
    (t.put x).restrict p = t.restrict p := by
  apply Table.ext
  simp only [restrict, put_values]
  apply assign_filter_not
  intro a ha
  exact decide_eq_false (h a ha)

/-- A dict of a list, of which the values of some keys are looked at. -/
theorem Table.restrict_ofList (h : ∀ a b, key a = key b → p a → p b) (xs : List α) :
    (ofList xs : Table key).restrict p = ofList (xs.filter p) := by
  have hfold : ∀ t : Table key,
      (xs.foldl put t).restrict p = (xs.filter p).foldl put (t.restrict p) := by
    induction xs with
    | nil => exact fun t => rfl
    | cons x xs ih =>
        intro t
        rw [List.foldl_cons, ih]
        by_cases hx : p x
        · rw [restrict_put fun a ha => h x a ha.symm hx,
            List.filter_cons_of_pos (by simpa using hx)]
          rfl
        · rw [restrict_put_of_not fun a ha hpa => hx (h a x ha hpa),
            List.filter_cons_of_neg (by simpa using hx)]
  exact hfold .empty

omit [DecidableEq κ] in
/-- A table that lies within the part is the part. -/
theorem Table.restrict_of_forall (h : ∀ a ∈ t.values, p a) : t.restrict p = t := by
  apply Table.ext
  rw [restrict, List.filter_eq_self]
  intro a ha
  exact decide_eq_true (h a ha)

end Restrict

end Py
