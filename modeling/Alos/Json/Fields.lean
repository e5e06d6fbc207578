import Mathlib.Data.List.Nodup
import Alos.Json.Value

/-! # The items of equal dicts

Two dicts that are the same up to the order of their items have the same value
under every key.

* `Fields.get?_same` is the lemma, and `Fields.nodup_of_same` says that only one of
  the two has to be a dict for it;
* `Fields.get?_erase` and `Fields.Nodup.erase` are about `d.pop`.
-/

namespace Json

/-- Inserting loses nothing and adds the item once. -/
theorem insertByKey_perm {α : Type} (item : String × α) (items : List (String × α)) :
    (insertByKey item items).Perm (item :: items) := by
  induction items with
  | nil => exact .refl _
  | cons other rest ih =>
      simp only [insertByKey]
      split
      · exact .refl _
      · exact (ih.cons other).trans (.swap ..)

/-- Sorting the items loses none and adds none. -/
theorem sortItems_perm {α : Type} (items : List (String × α)) :
    (sortItems items).Perm items := by
  induction items with
  | nil => exact .refl _
  | cons item rest ih => exact (insertByKey_perm item _).trans (ih.cons item)

/-- Sorting below the items is done item by item. -/
theorem sortKeysItems_eq_map (fs : Fields) :
    sortKeysItems fs = fs.map fun item => (item.1, sortKeys item.2) := by
  induction fs with
  | nil => rfl
  | cons item rest ih => simp [sortKeysItems, ih]

theorem sortKeysAll_eq_map (xs : List Json) : sortKeysAll xs = xs.map sortKeys := by
  induction xs with
  | nil => rfl
  | cons x xs ih => simp [sortKeysAll, ih]

/-- In a dict, the value under a key is the one it is paired with. -/
theorem lookup_eq_some_iff_mem {α : Type} {items : List (String × α)}
    (hnodup : (items.map Prod.fst).Nodup) {key : String} {value : α} :
    items.lookup key = some value ↔ (key, value) ∈ items := by
  induction items with
  | nil => simp
  | cons item rest ih =>
      rcases item with ⟨key', value'⟩
      simp only [List.map_cons, List.nodup_cons] at hnodup
      rw [List.lookup_cons]
      by_cases hkey : key = key'
      · subst hkey
        have hrest : (key, value) ∉ rest := by
          intro h
          exact hnodup.1 (List.mem_map_of_mem h)
        simp [hrest, eq_comm]
      · have hne : (key == key') = false := by simpa using hkey
        simp [hne, ih hnodup.2, hkey]

/-- A look-up after a change of the values is the look-up before it, changed. -/
theorem lookup_map_value {α β : Type} (g : α → β) (items : List (String × α)) (key : String) :
    (items.map fun item => (item.1, g item.2)).lookup key = (items.lookup key).map g := by
  induction items with
  | nil => rfl
  | cons item rest ih =>
      rcases item with ⟨key', value⟩
      simp only [List.map_cons, List.lookup_cons, ih]
      split <;> rfl

namespace Fields

variable {fs gs : Fields}

/-- Objects with the same fields have the same items, in some order. -/
theorem perm_of_same (h : fs.Same gs) : (sortKeysItems fs).Perm (sortKeysItems gs) := by
  have hsorted : sortItems (sortKeysItems fs) = sortItems (sortKeysItems gs) := by
    simpa [Same, Json.Same, sortKeys] using h
  exact (sortItems_perm _).symm.trans (hsorted ▸ sortItems_perm _)

/-- What is equal to a dict has no key twice either. -/
theorem nodup_of_same (h : fs.Same gs) (hgs : gs.Nodup) : fs.Nodup := by
  have hperm := perm_of_same h
  rw [sortKeysItems_eq_map, sortKeysItems_eq_map] at hperm
  have hkeys : (fs.map Prod.fst).Perm (gs.map Prod.fst) := by
    simpa [Function.comp_def] using hperm.map Prod.fst
  exact hkeys.nodup_iff.2 hgs

/-- Equal dicts have equal values under every key. -/
theorem get?_same (h : fs.Same gs) (hfs : fs.Nodup) (hgs : gs.Nodup) (key : String) :
    (fs.get? key).map sortKeys = (gs.get? key).map sortKeys := by
  have hperm := perm_of_same h
  rw [sortKeysItems_eq_map, sortKeysItems_eq_map] at hperm
  have hkeys : ∀ es : Fields, (es.map fun item => (item.1, sortKeys item.2)).map Prod.fst =
      es.map Prod.fst := by
    intro es
    simp
  rw [get?, get?, ← lookup_map_value, ← lookup_map_value]
  apply Option.ext
  intro value
  rw [lookup_eq_some_iff_mem (by rwa [hkeys]), lookup_eq_some_iff_mem (by rwa [hkeys])]
  exact hperm.mem_iff

/-- Only a text is sorted to a text. -/
theorem sortKeys_eq_str {v : Json} {s : String} (h : sortKeys v = .str s) : v = .str s := by
  cases v <;> simp_all [sortKeys]

/-- Equal dicts have the same string under every key. -/
theorem get?_str_of_same (h : fs.Same gs) (hfs : fs.Nodup) (hgs : gs.Nodup) {key s : String}
    (hget : fs.get? key = some (.str s)) : gs.get? key = some (.str s) := by
  have hvalue := get?_same h hfs hgs key
  rw [hget] at hvalue
  obtain ⟨v, hv, hsort⟩ := Option.map_eq_some_iff.1 hvalue.symm
  have hstr : v = .str s := sortKeys_eq_str hsort
  rw [hv, hstr]

theorem Nodup.erase (h : fs.Nodup) (key : String) : (fs.erase key).Nodup :=
  List.Sublist.nodup (List.Sublist.map _ List.filter_sublist) h

/-- `d.pop` leaves the other keys alone. -/
theorem get?_erase {key other : String} (h : key ≠ other) :
    (fs.erase other).get? key = fs.get? key := by
  induction fs with
  | nil => rfl
  | cons item rest ih =>
      rcases item with ⟨key', value⟩
      simp only [get?, erase] at ih ⊢
      by_cases hitem : key' = other
      · have hne : (key == key') = false := by simpa [hitem] using h
        rw [List.lookup_cons, hne, List.filter_cons_of_neg (by simpa using hitem)]
        exact ih
      · rw [List.filter_cons_of_pos (by simpa using hitem), List.lookup_cons, List.lookup_cons, ih]

end Fields

end Json
