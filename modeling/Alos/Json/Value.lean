import Mathlib.Data.List.Sort
import Mathlib.Data.String.Basic
import Mathlib.Order.Lattice

/-! # JSON values

The values a Python program gets from parsing JSON text. A dict is the list of
its items in insertion order; two dicts are equal when they hold the same
items, whatever the order, so equality of values is `Same`: equality after
sorting the keys of every dict (`sortKeys`), as `json.dumps(sort_keys=True)`
sorts them.
-/

/-- A character of a number's text. -/
def isNumeric (c : Char) : Bool :=
  c.isDigit || c = '+' || c = '-' || c = '.' || c = 'e'

/-- The text `float.__repr__` writes for a finite float. `repr` is exact (the
text read back gives the float), so a float is represented by it. It has a
point or an exponent, which no integer's text has. -/
structure FloatText where
  text : List Char
  numeric : ∀ c ∈ text, isNumeric c
  fractional : '.' ∈ text ∨ 'e' ∈ text

/-- A JSON value. -/
inductive Json where
  | null
  | bool (b : Bool)
  | int (n : Int)
  | float (x : FloatText)
  | str (s : String)
  | arr (xs : List Json)
  | obj (fields : List (String × Json))

namespace Json

/-- The items of a dict. -/
abbrev Fields := List (String × Json)

/-- `d.get(key)`. -/
def Fields.get? (fs : Fields) (key : String) : Option Json := fs.lookup key

/-- Whether a value that is looked up is the text. -/
instance (v : Option Json) (text : String) : Decidable (v = some (.str text)) :=
  match v with
  | some (.str s) => decidable_of_iff (s = text) (by simp)
  | some .null | some (.bool _) | some (.int _) | some (.float _) | some (.arr _)
  | some (.obj _) => isFalse nofun
  | none => isFalse nofun

/-- `d.pop(key, None)`, as far as the dict is concerned. -/
def Fields.erase (fs : Fields) (key : String) : Fields := fs.filter fun item => item.1 ≠ key

/-- No key twice: what a list of items needs to be a dict. -/
def Fields.Nodup (fs : Fields) : Prop := (fs.map Prod.fst).Nodup

instance (fs : Fields) : Decidable fs.Nodup := inferInstanceAs (Decidable (List.Nodup _))

/-- Insert an item before the first one whose key is not smaller. -/
def insertByKey {α : Type} (item : String × α) : List (String × α) → List (String × α)
  | [] => [item]
  | other :: rest =>
      if item.1 ≤ other.1 then item :: other :: rest else other :: insertByKey item rest

/-- `sorted(d.items())` of a dict: its keys are distinct, so the values are
never compared. -/
def sortItems {α : Type} : List (String × α) → List (String × α)
  | [] => []
  | item :: rest => insertByKey item (sortItems rest)

mutual
/-- Sort the keys of every dict in the value. -/
def sortKeys : Json → Json
  | .null => .null
  | .bool b => .bool b
  | .int n => .int n
  | .float x => .float x
  | .str s => .str s
  | .arr xs => .arr (sortKeysAll xs)
  | .obj fs => .obj (sortItems (sortKeysItems fs))
def sortKeysAll : List Json → List Json
  | [] => []
  | x :: xs => sortKeys x :: sortKeysAll xs
def sortKeysItems : List (String × Json) → List (String × Json)
  | [] => []
  | (k, v) :: fs => (k, sortKeys v) :: sortKeysItems fs
end

/-- Equality of values: the order of a dict's items does not count. -/
def Same (a b : Json) : Prop := sortKeys a = sortKeys b

/-- Equality of dicts. -/
def Fields.Same (fs gs : Fields) : Prop := Json.Same (.obj fs) (.obj gs)

end Json
