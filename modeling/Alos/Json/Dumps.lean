import Mathlib.Tactic.IntervalCases
import Alos.Json.Value

/-! # The canonical text of a JSON value

`dumps` is `json.dumps(value, sort_keys=True, separators=(",", ":"))`: ASCII
text, the items of every dict in the order of their keys. `encode` is the
same without the sorting. A text followed by a delimiter determines the value
it encodes (`encode_append_inj`), so `dumps` separates values that are not the
`Same` (`dumps_eq_iff`).
-/

namespace Json

/-! ## Text -/

def hexDigit (n : ℕ) : Char := if n < 10 then Char.ofNat (48 + n) else Char.ofNat (87 + n)

/-- `'{0:04x}'.format(n)`. -/
def hex4 (n : ℕ) : List Char :=
  [hexDigit (n / 4096 % 16), hexDigit (n / 256 % 16), hexDigit (n / 16 % 16), hexDigit (n % 16)]

/-- One character of a string, as `json.encoder.py_encode_basestring_ascii`
writes it: outside the basic plane it takes a surrogate pair. -/
def escape (c : Char) : List Char :=
  if c = '"' then ['\\', '"']
  else if c = '\\' then ['\\', '\\']
  else if c = '\n' then ['\\', 'n']
  else if c = '\r' then ['\\', 'r']
  else if c = '\t' then ['\\', 't']
  else if c.toNat = 12 then ['\\', 'f']
  else if c.toNat = 8 then ['\\', 'b']
  else if 32 ≤ c.toNat ∧ c.toNat ≤ 126 then [c]
  else if c.toNat < 65536 then '\\' :: 'u' :: hex4 c.toNat
  else
    '\\' :: 'u' :: hex4 (55296 + (c.toNat - 65536) / 1024) ++
      '\\' :: 'u' :: hex4 (56320 + (c.toNat - 65536) % 1024)

/-- A string in quotes, each character escaped. -/
def quote (s : String) : List Char := '"' :: (s.toList.flatMap escape ++ ['"'])

/-- The decimal text of an integer. -/
def intText (n : Int) : List Char :=
  if n < 0 then '-' :: Nat.toDigits 10 (-n).toNat else Nat.toDigits 10 n.toNat

/-- `",".join(items)`. -/
def join : List (List Char) → List Char
  | [] => []
  | [t] => t
  | t :: u :: ts => t ++ ',' :: join (u :: ts)

mutual
/-- The text of a value, the items of a dict in the order they stand in. -/
def encode : Json → List Char
  | .null => ['n', 'u', 'l', 'l']
  | .bool true => ['t', 'r', 'u', 'e']
  | .bool false => ['f', 'a', 'l', 's', 'e']
  | .int n => intText n
  | .float x => x.text
  | .str s => quote s
  | .arr xs => '[' :: (join (encodeAll xs) ++ [']'])
  | .obj fs => '{' :: (join (encodeItems fs) ++ ['}'])
/-- The texts of the items of an array. -/
def encodeAll : List Json → List (List Char)
  | [] => []
  | x :: xs => encode x :: encodeAll xs
/-- The texts of the fields of an object, the name first. -/
def encodeItems : List (String × Json) → List (List Char)
  | [] => []
  | (k, v) :: fs => (quote k ++ ':' :: encode v) :: encodeItems fs
end

/-- `json.dumps(value, sort_keys=True, separators=(",", ":"))`. -/
def dumps (x : Json) : String := String.ofList (encode (sortKeys x))

/-! ## Strings -/

def hexValue (c : Char) : ℕ := if c.toNat < 58 then c.toNat - 48 else c.toNat - 87

/-- A hexadecimal digit is read as what it was written for. -/
theorem hexValue_hexDigit (n : ℕ) (h : n < 16) : hexValue (hexDigit n) = n := by
  interval_cases n <;> decide

/-- `int(text, 16)` of four hexadecimal digits. -/
def unhex4 (a b c d : Char) : ℕ :=
  hexValue a * 4096 + hexValue b * 256 + hexValue c * 16 + hexValue d

/-- Four of them are read as the code unit they were written for. -/
theorem unhex4_hex4 {n : ℕ} (h : n < 65536) :
    unhex4 (hexDigit (n / 4096 % 16)) (hexDigit (n / 256 % 16)) (hexDigit (n / 16 % 16))
      (hexDigit (n % 16)) = n := by
  have hlt : ∀ m, m % 16 < 16 := fun m => Nat.mod_lt m (by omega)
  simp only [unhex4, hexValue_hexDigit _ (hlt _)]
  omega

/-- The code point of the first character of an escaped text, and the rest. -/
def readChar : List Char → Option (ℕ × List Char)
  | '\\' :: 'u' :: a :: b :: c :: d :: rest =>
      if 55296 ≤ unhex4 a b c d ∧ unhex4 a b c d < 56320 then
        match rest with
        | '\\' :: 'u' :: a' :: b' :: c' :: d' :: rest' =>
            some (65536 + (unhex4 a b c d - 55296) * 1024 + (unhex4 a' b' c' d' - 56320), rest')
        | _ => none
      else some (unhex4 a b c d, rest)
  | '\\' :: 'n' :: rest => some (10, rest)
  | '\\' :: 'r' :: rest => some (13, rest)
  | '\\' :: 't' :: rest => some (9, rest)
  | '\\' :: 'f' :: rest => some (12, rest)
  | '\\' :: 'b' :: rest => some (8, rest)
  | '\\' :: c :: rest => some (c.toNat, rest)
  | c :: rest => some (c.toNat, rest)
  | [] => none

/-- An escape outside the surrogates is read as one character. -/
theorem readChar_hex4 {n : ℕ} (h : n < 65536) (hs : n < 55296 ∨ 56320 ≤ n) (x : List Char) :
    readChar ('\\' :: 'u' :: (hex4 n ++ x)) = some (n, x) := by
  simp only [hex4, List.cons_append, List.nil_append, readChar, unhex4_hex4 h]
  rw [if_neg (by omega)]

/-- A pair of surrogates is read as the one character above the basic plane. -/
theorem readChar_surrogates (hi lo : ℕ) (h₁ : 55296 ≤ hi) (h₂ : hi < 56320) (h₃ : lo < 65536)
    (x : List Char) :
    readChar ('\\' :: 'u' :: (hex4 hi ++ ('\\' :: 'u' :: (hex4 lo ++ x)))) =
      some (65536 + (hi - 55296) * 1024 + (lo - 56320), x) := by
  simp only [hex4, List.cons_append, List.nil_append, readChar,
    unhex4_hex4 (show hi < 65536 by omega), unhex4_hex4 h₃]
  rw [if_pos ⟨h₁, h₂⟩]

/-- Unescaping finds the character and leaves the rest. -/
theorem readChar_escape (c : Char) (x : List Char) :
    readChar (escape c ++ x) = some (c.toNat, x) := by
  -- a character is no surrogate
  have hvalid : c.toNat < 55296 ∨ 57343 < c.toNat ∧ c.toNat < 1114112 := by
    have h := c.valid
    simpa [UInt32.isValidChar, Nat.isValidChar] using h
  unfold escape
  split
  · subst c; rfl
  split
  · subst c; rfl
  split
  · subst c; rfl
  split
  · subst c; rfl
  split
  · subst c; rfl
  split
  · rename_i h; simp [readChar, h]
  split
  · rename_i h; simp [readChar, h]
  split
  · rename_i hne _ _ _ _ _ _
    simp [readChar, hne]
  split
  · rename_i h
    simpa using readChar_hex4 h (by omega) x
  · have h := readChar_surrogates (55296 + (c.toNat - 65536) / 1024)
      (56320 + (c.toNat - 65536) % 1024) (by omega) (by omega) (by omega) x
    have hn : 65536 + (55296 + (c.toNat - 65536) / 1024 - 55296) * 1024 +
        (56320 + (c.toNat - 65536) % 1024 - 56320) = c.toNat := by omega
    rw [hn] at h
    simpa using h

/-- No escaped character starts with the quote that ends a string. -/
theorem escape_ne_quote (c : Char) (x y : List Char) : escape c ++ x ≠ '"' :: y := by
  intro h
  have hread := readChar_escape c x
  rw [h, show readChar ('"' :: y) = some ('"'.toNat, y) from rfl] at hread
  simp only [Option.some.injEq, Prod.mk.injEq] at hread
  have hc : c = '"' := Char.toNat_inj.mp hread.1.symm
  subst hc
  simp [escape] at h

/-- The end of the quoted text is recognized, whatever follows it. -/
theorem escapes_append_inj : ∀ (cs ds x y : List Char),
    cs.flatMap escape ++ '"' :: x = ds.flatMap escape ++ '"' :: y → cs = ds ∧ x = y
  | [], [], x, y, h => by simpa using h
  | [], d :: ds, x, y, h => by
      rw [List.flatMap_cons, List.append_assoc] at h
      exact absurd h.symm (escape_ne_quote d _ _)
  | c :: cs, [], x, y, h => by
      rw [List.flatMap_cons, List.append_assoc] at h
      exact absurd h (escape_ne_quote c _ _)
  | c :: cs, d :: ds, x, y, h => by
      rw [List.flatMap_cons, List.flatMap_cons, List.append_assoc, List.append_assoc] at h
      have hread := congrArg readChar h
      rw [readChar_escape, readChar_escape] at hread
      simp only [Option.some.injEq, Prod.mk.injEq] at hread
      have hcd : c = d := Char.toNat_inj.mp hread.1
      obtain ⟨rfl, rfl⟩ := escapes_append_inj cs ds x y hread.2
      exact ⟨by rw [hcd], rfl⟩

/-- So a quoted string can be told from what follows. -/
theorem quote_append_inj {s t : String} {x y : List Char} (h : quote s ++ x = quote t ++ y) :
    s = t ∧ x = y := by
  simp only [quote, List.cons_append, List.append_assoc, List.nil_append, List.cons.injEq,
    true_and] at h
  obtain ⟨hst, hxy⟩ := escapes_append_inj _ _ _ _ h
  exact ⟨String.toList_inj.mp hst, hxy⟩

/-! ## Numbers -/

/-- The rest of the text does not go on with a character of a number. -/
def Delimited (x : List Char) : Prop := ∀ c, x.head? = some c → isNumeric c = false

/-- The end of the text ends a number. -/
theorem delimited_nil : Delimited [] := by
  intro c h
  simp at h

/-- So does any character that no number has. -/
theorem delimited_cons {c : Char} (h : isNumeric c = false) (x : List Char) :
    Delimited (c :: x) := by
  intro d hd
  simp only [List.head?_cons, Option.some.injEq] at hd
  rwa [← hd]

/-- A number is told from what follows, when that starts with no numeric character. -/
theorem numeric_append_inj : ∀ {t u x y : List Char}, (∀ c ∈ t, isNumeric c) → (∀ c ∈ u, isNumeric c) →
    Delimited x → Delimited y → t ++ x = u ++ y → t = u ∧ x = y
  | [], [], _, _, _, _, _, _, h => ⟨rfl, h⟩
  | [], d :: u, x, y, _, hu, hx, _, h => by
      have hd := hx d (by rw [List.nil_append] at h; rw [h]; rfl)
      simp [hu d (by simp)] at hd
  | c :: t, [], x, y, ht, _, _, hy, h => by
      have hc := hy c (by rw [List.nil_append] at h; rw [← h]; rfl)
      simp [ht c (by simp)] at hc
  | c :: t, d :: u, x, y, ht, hu, hx, hy, h => by
      simp only [List.cons_append, List.cons.injEq] at h
      obtain ⟨rfl, h⟩ := h
      obtain ⟨rfl, rfl⟩ := numeric_append_inj (fun c hc => ht c (by simp [hc]))
        (fun c hc => hu c (by simp [hc])) hx hy h
      exact ⟨rfl, rfl⟩

/-- The characters of an integer are digits and a minus. -/
theorem mem_intText {n : Int} {c : Char} (h : c ∈ intText n) : c = '-' ∨ c.isDigit := by
  unfold intText at h
  split at h
  · rcases List.mem_cons.mp h with rfl | h
    · exact Or.inl rfl
    · exact Or.inr (Nat.isDigit_of_mem_toDigits (by omega) (by omega) h)
  · exact Or.inr (Nat.isDigit_of_mem_toDigits (by omega) (by omega) h)

theorem numeric_intText (n : Int) : ∀ c ∈ intText n, isNumeric c := by
  intro c hc
  rcases mem_intText hc with rfl | hd
  · decide
  · simp [isNumeric, hd]

theorem minus_notMem_toDigits (n : ℕ) : '-' ∉ Nat.toDigits 10 n := by
  intro h
  have hd := Nat.isDigit_of_mem_toDigits (by omega) (by omega) h
  simp at hd

theorem toDigits_injective {m n : ℕ} (h : Nat.toDigits 10 m = Nat.toDigits 10 n) : m = n := by
  have hread := congrArg (fun ds => Nat.ofDigitChars 10 ds 0) h
  simpa using hread

/-- A number can be told from what stands after it, when that starts with no digit. -/
theorem toDigits_append_inj {m n : ℕ} {s t : List Char} (hs : ∀ c ∈ s.head?, c.isDigit = false)
    (ht : ∀ c ∈ t.head?, c.isDigit = false)
    (h : Nat.toDigits 10 m ++ s = Nat.toDigits 10 n ++ t) : m = n ∧ s = t := by
  have hread : ∀ (k : ℕ) {rest : List Char}, (∀ c ∈ rest.head?, c.isDigit = false) →
      (Nat.toDigits 10 k ++ rest).takeWhile Char.isDigit = Nat.toDigits 10 k := by
    intro k rest hrest
    have hdigits : ∀ c ∈ Nat.toDigits 10 k, c.isDigit = true := fun c hc =>
      Nat.isDigit_of_mem_toDigits (by omega) (by omega) hc
    have hnone : rest.takeWhile Char.isDigit = [] := by
      cases rest with
      | nil => rfl
      | cons c rest => rw [List.takeWhile_cons, hrest c rfl]; rfl
    rw [List.takeWhile_append_of_pos hdigits, hnone, List.append_nil]
  have hsame : Nat.toDigits 10 m = Nat.toDigits 10 n := by
    rw [← hread m hs, ← hread n ht, h]
  rw [hsame] at h
  exact ⟨toDigits_injective hsame, List.append_cancel_left h⟩

/-- Integers are written differently when they differ. -/
theorem intText_injective {m n : Int} (h : intText m = intText n) : m = n := by
  unfold intText at h
  split at h <;> split at h
  · simp only [List.cons.injEq, true_and] at h
    have := toDigits_injective h
    omega
  · exact absurd (h ▸ List.mem_cons_self) (minus_notMem_toDigits _)
  · exact absurd (h.symm ▸ List.mem_cons_self) (minus_notMem_toDigits _)
  · have := toDigits_injective h
    omega

/-- A float is never written as an integer. -/
theorem intText_ne_float (n : Int) (x : FloatText) : intText n ≠ x.text := by
  intro h
  rcases x.fractional with hf | hf <;> rw [← h] at hf <;>
    rcases mem_intText hf with hc | hc <;> simp at hc

/-! ## Values -/

theorem intText_ne_nil (n : Int) : intText n ≠ [] := by
  unfold intText
  split <;> simp

theorem floatText_ne_nil (x : FloatText) : x.text ≠ [] := by
  intro hnil
  rcases x.fractional with hf | hf <;> simp [hnil] at hf

/-- What the first character of an encoding tells of the value. -/
inductive Kind where
  | null
  | bool
  | number
  | str
  | arr
  | obj
deriving DecidableEq

/-- The kind of a value. -/
def kind : Json → Kind
  | .null => .null
  | .bool _ => .bool
  | .int _ => .number
  | .float _ => .number
  | .str _ => .str
  | .arr _ => .arr
  | .obj _ => .obj

/-- The kind of the values whose text starts with the character. -/
def startKind (c : Char) : Option Kind :=
  if isNumeric c then some .number
  else if c = 'n' then some .null
  else if c = 't' ∨ c = 'f' then some .bool
  else if c = '"' then some .str
  else if c = '[' then some .arr
  else if c = '{' then some .obj
  else none

/-- A numeric character starts a number. -/
theorem startKind_numeric {t : List Char} (hne : t ≠ []) (ht : ∀ c ∈ t, isNumeric c)
    (x : List Char) : (t ++ x).head?.bind startKind = some .number := by
  cases t with
  | nil => exact absurd rfl hne
  | cons c t =>
      show startKind c = some .number
      rw [startKind, if_pos (ht c List.mem_cons_self)]

/-- A text tells the kind of its value with the first character. -/
theorem startKind_encode (a : Json) (x : List Char) :
    (encode a ++ x).head?.bind startKind = some a.kind := by
  cases a with
  | null => rfl
  | bool b => cases b <;> rfl
  | int n => exact startKind_numeric (intText_ne_nil n) (numeric_intText n) x
  | float z => exact startKind_numeric (floatText_ne_nil z) z.numeric x
  | str s => rfl
  | arr xs => rfl
  | obj fs => rfl

/-- The kinds of two values are the same when their encodings start in the same way. -/
theorem kind_eq {a b : Json} {x y : List Char} (h : encode a ++ x = encode b ++ y) :
    a.kind = b.kind := by
  have hstart := startKind_encode a x
  rw [h, startKind_encode b y] at hstart
  exact (Option.some.inj hstart).symm

/-- The text of a value does not start with a delimiter. -/
theorem encode_ne_delim (a : Json) {c : Char} (hc : c = ']' ∨ c = '}') (x y : List Char) :
    encode a ++ x ≠ c :: y := by
  intro h
  have hstart := startKind_encode a x
  rw [h] at hstart
  rcases hc with rfl | rfl <;> cases hstart

/-- What `join` writes after the first item. -/
def more : List (List Char) → List Char
  | [] => []
  | ts => ',' :: join ts

/-- The items after the first are each led by a comma. -/
theorem join_cons (t : List Char) (ts : List (List Char)) : join (t :: ts) = t ++ more ts := by
  cases ts <;> simp [join, more]

/-- What follows an item ends a number in it. -/
theorem delimited_more (ts : List (List Char)) {c : Char} (h : isNumeric c = false)
    (x : List Char) : Delimited (more ts ++ c :: x) := by
  cases ts with
  | nil => exact delimited_cons h x
  | cons t ts => exact delimited_cons (by decide) _

mutual
/-- A text followed by a delimiter is the text of one value only. -/
theorem encode_append_inj : ∀ (a b : Json) {x y : List Char}, Delimited x → Delimited y →
    encode a ++ x = encode b ++ y → a = b ∧ x = y
  | .null, b, x, y, _, _, h => by
      cases b with
      | null => simpa [encode] using h
      | _ => cases kind_eq h
  | .bool c, b, x, y, _, _, h => by
      cases b with
      | bool b => cases b <;> cases c <;> simp_all [encode]
      | _ => cases kind_eq h
  -- a number may be an integer or a float, whose text an integer never has
  | .int m, b, x, y, hx, hy, h => by
      cases b with
      | int n =>
          obtain ⟨hmn, hxy⟩ := numeric_append_inj (numeric_intText m) (numeric_intText n) hx hy h
          exact ⟨by rw [intText_injective hmn], hxy⟩
      | float z =>
          obtain ⟨hmz, -⟩ := numeric_append_inj (numeric_intText m) z.numeric hx hy h
          exact absurd hmz (intText_ne_float m z)
      | _ => cases kind_eq h
  | .float w, b, x, y, hx, hy, h => by
      cases b with
      | int n =>
          obtain ⟨hwn, -⟩ := numeric_append_inj w.numeric (numeric_intText n) hx hy h
          exact absurd hwn.symm (intText_ne_float n w)
      | float z =>
          obtain ⟨hwz, hxy⟩ := numeric_append_inj w.numeric z.numeric hx hy h
          refine ⟨?_, hxy⟩
          cases w
          cases z
          simp only at hwz
          subst hwz
          rfl
      | _ => cases kind_eq h
  | .str s, b, x, y, _, _, h => by
      cases b with
      | str t =>
          obtain ⟨rfl, rfl⟩ := quote_append_inj h
          exact ⟨rfl, rfl⟩
      | _ => cases kind_eq h
  -- the brackets delimit what is inside, whatever follows
  | .arr xs, b, x, y, _, _, h => by
      cases b with
      | arr ys =>
          simp only [encode, List.cons_append, List.append_assoc, List.nil_append,
            List.cons.injEq, true_and] at h
          obtain ⟨rfl, rfl⟩ := encodeAll_append_inj xs ys h
          exact ⟨rfl, rfl⟩
      | _ => cases kind_eq h
  | .obj fs, b, x, y, _, _, h => by
      cases b with
      | obj gs =>
          simp only [encode, List.cons_append, List.append_assoc, List.nil_append,
            List.cons.injEq, true_and] at h
          obtain ⟨rfl, rfl⟩ := encodeItems_append_inj fs gs h
          exact ⟨rfl, rfl⟩
      | _ => cases kind_eq h
/-- The end of an array is recognized, whatever follows it. -/
theorem encodeAll_append_inj : ∀ (xs ys : List Json) {x y : List Char},
    join (encodeAll xs) ++ ']' :: x = join (encodeAll ys) ++ ']' :: y → xs = ys ∧ x = y
  | [], [], x, y, h => by simpa [encodeAll, join] using h
  | [], b :: ys, x, y, h => by
      rw [encodeAll, encodeAll, join_cons, List.append_assoc] at h
      exact absurd h.symm (encode_ne_delim b (Or.inl rfl) _ _)
  | a :: xs, [], x, y, h => by
      rw [encodeAll, encodeAll, join_cons, List.append_assoc] at h
      exact absurd h (encode_ne_delim a (Or.inl rfl) _ _)
  | a :: xs, b :: ys, x, y, h => by
      rw [encodeAll, encodeAll, join_cons, join_cons, List.append_assoc, List.append_assoc] at h
      obtain ⟨rfl, hrest⟩ := encode_append_inj a b (delimited_more _ (by decide) _)
        (delimited_more _ (by decide) _) h
      -- after the first item: both lists end, or both go on behind a comma
      match xs, ys with
      | [], [] => simpa [encodeAll, more] using hrest
      | [], _ :: _ => simp [encodeAll, more] at hrest
      | _ :: _, [] => simp [encodeAll, more] at hrest
      | a' :: xs, b' :: ys =>
          simp only [encodeAll, more, List.cons_append, List.cons.injEq, true_and] at hrest
          obtain ⟨hxy, rfl⟩ := encodeAll_append_inj (a' :: xs) (b' :: ys) hrest
          exact ⟨by rw [hxy], rfl⟩
/-- The end of an object is recognized, whatever follows it. -/
theorem encodeItems_append_inj : ∀ (fs gs : List (String × Json)) {x y : List Char},
    join (encodeItems fs) ++ '}' :: x = join (encodeItems gs) ++ '}' :: y → fs = gs ∧ x = y
  | [], [], x, y, h => by simpa [encodeItems, join] using h
  | [], (k, v) :: gs, x, y, h => by simp [encodeItems, join_cons, join, quote] at h
  | (k, v) :: fs, [], x, y, h => by simp [encodeItems, join_cons, join, quote] at h
  | (k, v) :: fs, (l, w) :: gs, x, y, h => by
      simp only [encodeItems, join_cons, List.append_assoc, List.cons_append] at h
      obtain ⟨rfl, hvalue⟩ := quote_append_inj h
      simp only [List.cons.injEq, true_and] at hvalue
      obtain ⟨rfl, hrest⟩ := encode_append_inj v w (delimited_more _ (by decide) _)
        (delimited_more _ (by decide) _) hvalue
      -- after a field stands either a comma or the end of the object
      match fs, gs with
      | [], [] => simpa [encodeItems, more] using hrest
      | [], (_, _) :: _ => simp [encodeItems, more] at hrest
      | (_, _) :: _, [] => simp [encodeItems, more] at hrest
      | (k', v') :: fs, (l', w') :: gs =>
          simp only [encodeItems, more, List.cons_append, List.cons.injEq, true_and] at hrest
          obtain ⟨hfg, rfl⟩ := encodeItems_append_inj ((k', v') :: fs) ((l', w') :: gs) hrest
          exact ⟨by rw [hfg], rfl⟩
end

/-- No two values have the same encoding. -/
theorem encode_injective {a b : Json} (h : encode a = encode b) : a = b :=
  (encode_append_inj a b delimited_nil delimited_nil (by rw [h])).1

/-- Two values have one canonical text exactly when they are the same value. -/
theorem dumps_eq_iff {a b : Json} : dumps a = dumps b ↔ Same a b := by
  constructor
  · intro h
    exact encode_injective (String.ofList_inj.mp h)
  · intro h
    unfold dumps
    rw [show sortKeys a = sortKeys b from h]

instance (a b : Json) : Decidable (Same a b) := decidable_of_iff _ dumps_eq_iff

instance (fs gs : Fields) : Decidable (fs.Same gs) := inferInstanceAs (Decidable (Same _ _))

end Json
