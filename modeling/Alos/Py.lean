import Alos.Json.Value

/-! # Python's strings and dates

The built-in operations that the modelled code uses.
-/

namespace Py

/-- An aware `datetime`: the microseconds since the epoch. -/
abbrev Datetime := Int

/-- `str(value)` of a value of parsed JSON. The text of a list or a dict is its
`repr`, a parameter: nothing depends on it. -/
def str (repr : Json → String) : Json → String
  | .null => "None"
  | .bool b => if b then "True" else "False"
  | .int n => toString n
  | .float x => String.ofList x.text
  | .str s => s
  | value => repr value

/-- Texts are sorted by their order. -/
instance isTransText : IsTrans String fun s t => s ≤ t := inferInstance

instance antisymmText : Std.Antisymm fun s t : String => s ≤ t := inferInstance

/-- `c.isspace()`. -/
def isSpace (c : Char) : Bool :=
  let n := c.toNat
  (9 ≤ n && n ≤ 13) || (28 ≤ n && n ≤ 32) || n == 133 || n == 160 || n == 5760 ||
    (8192 ≤ n && n ≤ 8202) || n == 8232 || n == 8233 || n == 8239 || n == 8287 || n == 12288

/-- `s.strip()`. -/
def strip (s : String) : String :=
  String.ofList ((s.toList.dropWhile isSpace).reverse.dropWhile isSpace).reverse

/-- `s.rstrip()`, on the characters. -/
def rstrip (s : List Char) : List Char := (s.reverse.dropWhile isSpace).reverse

/-- A character that ends a line. -/
def isLineBreak (c : Char) : Bool :=
  let n := c.toNat
  (10 ≤ n && n ≤ 13) || (28 ≤ n && n ≤ 30) || n == 133 || n == 8232 || n == 8233

/-- `s.splitlines()`, on the characters: `current` is the line so far, the last
character first, and `open?` says that there is one. -/
def splitLinesFrom (current : List Char) (isOpen : Bool) : List Char → List (List Char)
  | [] => if isOpen then [current.reverse] else []
  | '\r' :: '\n' :: rest => current.reverse :: splitLinesFrom [] false rest
  | c :: rest =>
      if isLineBreak c then current.reverse :: splitLinesFrom [] false rest
      else splitLinesFrom (c :: current) true rest

def splitLines (s : List Char) : List (List Char) := splitLinesFrom [] false s

/-- The decimal digits of `n`, at least `width` of them. -/
def padded (width n : ℕ) : String :=
  let digits := Nat.toDigits 10 n
  String.ofList (List.replicate (width - digits.length) '0' ++ digits)

/-- Year, month and day of a number of days since the epoch, by the eras of 400
years of the Gregorian calendar. -/
def civil (days : Int) : Int × Int × Int :=
  let shifted := days + 719468
  let era := shifted / 146097
  let dayOfEra := shifted % 146097
  let yearOfEra := (dayOfEra - dayOfEra / 1460 + dayOfEra / 36524 - dayOfEra / 146096) / 365
  let dayOfYear := dayOfEra - (365 * yearOfEra + yearOfEra / 4 - yearOfEra / 100)
  let month := (5 * dayOfYear + 2) / 153
  let day := dayOfYear - (153 * month + 2) / 5 + 1
  let month := if month < 10 then month + 3 else month - 9
  (yearOfEra + era * 400 + if month ≤ 2 then 1 else 0, month, day)

/-- `d.isoformat().replace("+00:00", "Z")` of a date in UTC. -/
def isoformat (d : Datetime) : String :=
  let micros := d % 1000000
  let seconds := d / 1000000 % 86400
  let (year, month, day) := civil (d / 86400000000)
  let date := padded 4 year.toNat ++ "-" ++ padded 2 month.toNat ++ "-" ++ padded 2 day.toNat
  let time := padded 2 (seconds / 3600).toNat ++ ":" ++ padded 2 (seconds / 60 % 60).toNat ++ ":" ++
    padded 2 (seconds % 60).toNat
  date ++ "T" ++ time ++ (if micros = 0 then "" else "." ++ padded 6 micros.toNat) ++ "Z"

example : isoformat 1754006400000000 = "2025-08-01T00:00:00Z" := by decide +kernel

/-- `d.isoformat()` of a date in UTC, which ends in the offset. -/
def isoformatOffset (d : Datetime) : String :=
  String.ofList (isoformat d).toList.dropLast ++ "+00:00"

/-- `not s.strip()`. -/
def Blank (s : String) : Prop := strip s = ""

instance (s : String) : Decidable (Blank s) := inferInstanceAs (Decidable (_ = _))

/-- `bool(value)`. -/
def truthy : Json → Bool
  | .null => false
  | .bool b => b
  | .int n => n ≠ 0
  | .float x => x.text ≠ ['0', '.', '0'] ∧ x.text ≠ ['-', '0', '.', '0']
  | .str s => s ≠ ""
  | .arr xs => ¬ xs.isEmpty
  | .obj fields => ¬ fields.isEmpty

/-- `x or y`. -/
def or (x y : Json) : Json := if truthy x then x else y

/-- `[*value]`; a number, a boolean or `None` is no iterable. -/
def iter : Json → Option (List Json)
  | .arr xs => some xs
  | .str s => some (s.toList.map fun c => .str c.toString)
  | .obj fields => some (fields.map fun item => .str item.1)
  | _ => none

/-- `d[key]`; the error is the key of the `KeyError`. -/
def item (fields : Json.Fields) (key : String) : Except String Json :=
  match fields.get? key with
  | none => .error key
  | some value => .ok value

/-- `value == text`. -/
def EqText : Json → String → Prop
  | .str s, text => s = text
  | _, _ => False

instance : (value : Json) → (text : String) → Decidable (EqText value text)
  | .str s, text => inferInstanceAs (Decidable (s = text))
  | .null, _ | .bool _, _ | .int _, _ | .float _, _ | .arr _, _ | .obj _, _ => isFalse id

theorem EqText.eq {value : Json} {text : String} (h : EqText value text) : value = .str text := by
  cases value with
  | str s => exact congrArg Json.str h
  | _ => cases h

theorem eqText_iff {value : Json} {text : String} : EqText value text ↔ value = .str text := by
  constructor
  · exact EqText.eq
  · rintro rfl
    rfl

/-- `x or y`, where `None` and the empty string are falsy. -/
def orElse : Option String → Option String → Option String
  | some s, y => if s = "" then y else some s
  | none, y => y

end Py
