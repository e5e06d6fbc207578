import Mathlib.Data.List.Infix
import Alos.Json.Dumps
import Alos.Json.Fields
import Alos.Py
import Alos.Table

/-! # Python's containers of JSON values

Iteration, `==`, `in` and sets, on values of parsed JSON. Numbers are equal
when their values are: `True == 1 == 1.0`.

* `Equal` is `==`; `whole` gives the integer that a float is equal to, if any;
* `SubsetOf` and `inter` are `<=` and `&` of sets, which are lists here;
* `setItem` is `d[key] = value`.
-/

namespace Py

/-- What an access to a value raises: a `KeyError` or a `TypeError`. -/
inductive AccessError where
  | missing (key : String)
  | typeError
deriving DecidableEq, Repr

section Equality

variable (whole : FloatText → Option Int)

mutual
/-- Every number that is equal to an integer is that integer. -/
def norm : Json → Json
  | .null => .null
  | .bool b => .int (if b then 1 else 0)
  | .int n => .int n
  | .float x =>
      match whole x with
      | some n => .int n
      | none => .float x
  | .str s => .str s
  | .arr xs => .arr (normAll xs)
  | .obj fields => .obj (normItems fields)
def normAll : List Json → List Json
  | [] => []
  | x :: xs => norm x :: normAll xs
def normItems : List (String × Json) → List (String × Json)
  | [] => []
  | (k, v) :: fs => (k, norm v) :: normItems fs
end

/-- `a == b`. -/
def Equal (a b : Json) : Prop := (norm whole a).Same (norm whole b)

instance (a b : Json) : Decidable (Equal whole a b) := inferInstanceAs (Decidable (Json.Same _ _))

/-- A value that is equal to a string is that string. -/
theorem equal_str {v : Json} {s : String} : Equal whole v (.str s) ↔ v = .str s := by
  constructor
  · intro h
    cases v with
    | str t => simpa [Equal, norm, Json.Same, Json.sortKeys] using h
    | float x =>
        simp only [Equal, norm] at h
        split at h <;> simp [Json.Same, Json.sortKeys] at h
    | _ => simp [Equal, norm, Json.Same, Json.sortKeys] at h
  · rintro rfl
    rfl

variable {whole} in
theorem Equal.refl (v : Json) : Equal whole v v := rfl

variable {whole} in
theorem Equal.trans {a b c : Json} (h : Equal whole a b) (h' : Equal whole b c) : Equal whole a c :=
  Eq.trans h h'

variable {whole} in
theorem Equal.symm {a b : Json} (h : Equal whole a b) : Equal whole b a := Eq.symm h

theorem normItems_eq_map (fs : Json.Fields) :
    normItems whole fs = fs.map fun item => (item.1, norm whole item.2) := by
  induction fs with
  | nil => rfl
  | cons item rest ih => simp [normItems, ih]

theorem norm_eq_str {v : Json} {s : String} (h : norm whole v = .str s) : v = .str s :=
  (equal_str whole).1 (congrArg Json.sortKeys h)

theorem nodup_normItems {fs : Json.Fields} :
    Json.Fields.Nodup (normItems whole fs) ↔ fs.Nodup := by
  rw [normItems_eq_map]
  simp [Json.Fields.Nodup, Function.comp_def]

variable {whole} in
/-- What is equal to a dict is one. -/
theorem nodup_of_equal {fs gs : Json.Fields} (h : Equal whole (.obj fs) (.obj gs))
    (hgs : gs.Nodup) : fs.Nodup :=
  (nodup_normItems whole).1 (Json.Fields.nodup_of_same h ((nodup_normItems whole).2 hgs))

variable {whole} in
/-- Equal dicts have the same string under every key. -/
theorem get?_str_of_equal {fs gs : Json.Fields} (h : Equal whole (.obj fs) (.obj gs))
    (hgs : gs.Nodup) {key s : String} (hget : fs.get? key = some (.str s)) :
    gs.get? key = some (.str s) := by
  have hfs := nodup_of_equal h hgs
  have hvalue : ∀ es : Json.Fields, Json.Fields.get? (normItems whole es) key =
      (es.get? key).map (norm whole) := by
    intro es
    rw [normItems_eq_map]
    exact Json.lookup_map_value (norm whole) es key
  have hnorm : Json.Fields.get? (normItems whole gs) key = some (.str s) := by
    refine Json.Fields.get?_str_of_same h ((nodup_normItems whole).2 hfs)
      ((nodup_normItems whole).2 hgs) ?_
    rw [hvalue, hget]
    rfl
  rw [hvalue] at hnorm
  obtain ⟨v, hv, hv'⟩ := Option.map_eq_some_iff.1 hnorm
  rw [hv, norm_eq_str whole hv']

/-- `x in container`. -/
def contains (container x : Json) : Except AccessError Bool :=
  match container with
  | .arr xs => .ok (∃ y ∈ xs, Equal whole x y)
  | .str s =>
      match x with
      | .str t => .ok (t.toList <:+: s.toList)
      | _ => .error .typeError
  | .obj fields =>
      match x with
      | .arr _ | .obj _ => .error .typeError
      | x => .ok (decide (∃ item ∈ fields, EqText x item.1))
  | _ => .error .typeError

/-- `a <= b` of sets. -/
def SubsetOf (a b : List Json) : Prop := ∀ x ∈ a, ∃ y ∈ b, Equal whole x y

instance (a b : List Json) : Decidable (SubsetOf whole a b) :=
  inferInstanceAs (Decidable (∀ x ∈ _, ∃ y ∈ _, _))

/-- `a & b` of sets. -/
def inter (a b : List Json) : List Json := a.filter fun x => ∃ y ∈ b, Equal whole x y

variable {whole}

theorem subset_inter {a b c : List Json} (h : SubsetOf whole a (inter whole b c)) :
    SubsetOf whole a b ∧ SubsetOf whole a c := by
  constructor
  · intro x hx
    obtain ⟨y, hy, heq⟩ := h x hx
    exact ⟨y, (List.mem_filter.1 hy).1, heq⟩
  · intro x hx
    obtain ⟨y, hy, heq⟩ := h x hx
    obtain ⟨z, hz, heq'⟩ := of_decide_eq_true (List.mem_filter.1 hy).2
    exact ⟨z, hz, heq.trans heq'⟩

/-- Sets of strings. -/
theorem subset_strings {as bs : List String} :
    SubsetOf whole (as.map .str) (bs.map .str) ↔ ∀ a ∈ as, a ∈ bs := by
  simp [SubsetOf, equal_str]

end Equality

/-- `value[key]`. -/
def getItem (value : Json) (key : String) : Except AccessError Json :=
  match value with
  | .obj fields => (item fields key).mapError .missing
  | _ => .error .typeError

/-- The items of `d.get(key, [])`. -/
def items (fields : Json.Fields) (key : String) : Except AccessError (List Json) :=
  match iter ((fields.get? key).getD (.arr [])) with
  | none => .error .typeError
  | some xs => .ok xs

/-- A list or a dict cannot be hashed. -/
def hashable : Json → Bool
  | .arr _ | .obj _ => false
  | _ => true

/-- `frozenset(values)`, as the list of its elements. -/
def frozenset (values : List Json) : Except AccessError (List Json) :=
  if values.all hashable then .ok values else .error .typeError

/-- `d[key] = value`. -/
def setItem (fields : Json.Fields) (key : String) (value : Json) : Json.Fields :=
  assign Prod.fst (key, value) fields

theorem lookup_cons_ne {other key : String} (h : other ≠ key) (value : Json) (rest : Json.Fields) :
    List.lookup other ((key, value) :: rest) = List.lookup other rest := by
  have hne : (other == key) = false := by simpa using h
  rw [List.lookup_cons, hne]

theorem lookup_cons_same (key : String) (value : Json) (rest : Json.Fields) :
    List.lookup key ((key, value) :: rest) = some value := by
  rw [List.lookup_cons, beq_self_eq_true]

theorem get?_setItem (fields : Json.Fields) (key : String) (value : Json) (other : String) :
    (setItem fields key value).get? other = if other = key then some value else fields.get? other := by
  unfold setItem Json.Fields.get?
  induction fields with
  | nil =>
      rw [assign]
      by_cases hother : other = key
      · rw [hother, lookup_cons_same, if_pos rfl]
      · rw [lookup_cons_ne hother, if_neg hother]
  | cons item rest ih =>
      rcases item with ⟨k, v⟩
      rw [assign_cons]
      -- the first field with the key is the one that is replaced
      by_cases hk : k = key
      · rw [if_pos hk]
        by_cases hother : other = key
        · rw [hother, lookup_cons_same, if_pos rfl]
        · rw [lookup_cons_ne hother, hk, lookup_cons_ne hother, if_neg hother]
      · rw [if_neg hk]
        by_cases hother : other = k
        · rw [hother, lookup_cons_same, lookup_cons_same, if_neg hk]
        · rw [lookup_cons_ne hother, lookup_cons_ne hother, ih]

end Py
