import Alos.Json.Dumps

/-! # JSON texts with spaces

`json.dumps` writes a space after every comma and colon, unless it is told other
separators. Where a text is outside of its strings, a space says nothing.

* `spaced` is the text of a value with these spaces;
* `squeeze` takes the spaces outside of strings away;
* `squeeze_spaced`: what is left is the compact text;
* `dumpsSpaced_eq_iff`: so both texts tell the same values apart.
-/

namespace Json

/-- `", ".join(items)`. -/
def joinSpaced : List (List Char) → List Char
  | [] => []
  | [t] => t
  | t :: u :: ts => t ++ ',' :: ' ' :: joinSpaced (u :: ts)

mutual
/-- The text of a value, the items of a dict in the order they stand in. -/
def spaced : Json → List Char
  | .arr xs => '[' :: (joinSpaced (spacedAll xs) ++ [']'])
  | .obj fs => '{' :: (joinSpaced (spacedItems fs) ++ ['}'])
  | .null => encode .null
  | .bool b => encode (.bool b)
  | .int n => encode (.int n)
  | .float x => encode (.float x)
  | .str s => encode (.str s)
/-- The texts of the items of an array. -/
def spacedAll : List Json → List (List Char)
  | [] => []
  | x :: xs => spaced x :: spacedAll xs
/-- The texts of the fields of an object, the name first. -/
def spacedItems : List (String × Json) → List (List Char)
  | [] => []
  | (k, v) :: fs => (quote k ++ ':' :: ' ' :: spaced v) :: spacedItems fs
end

/-- `json.dumps(value, sort_keys=True)`. -/
def dumpsSpaced (x : Json) : String := String.ofList (spaced (sortKeys x))

/-! ## Spaces outside of strings -/

/-- Where a character of a text stands. -/
inductive Place where
  | outside
  | inside
  /-- After a backslash in a string. -/
  | escaped

/-- The text, which begins at the place, without the spaces outside of its
strings. -/
def squeeze : Place → List Char → List Char
  | _, [] => []
  | .outside, c :: cs =>
      if c = ' ' then squeeze .outside cs
      else c :: squeeze (if c = '"' then .inside else .outside) cs
  | .inside, c :: cs =>
      c :: squeeze (if c = '\\' then .escaped else if c = '"' then .outside else .inside) cs
  | .escaped, c :: cs => c :: squeeze .inside cs

/-- The text is one of a number or a word. -/
def Plain (t : List Char) : Prop := ∀ c ∈ t, c ≠ ' ' ∧ c ≠ '"'

instance (t : List Char) : Decidable (Plain t) :=
  List.decidableBAll (fun c => c ≠ ' ' ∧ c ≠ '"') t

/-- Outside strings a text without spaces and quotes stays. -/
theorem squeeze_plain {t : List Char} (h : Plain t) (x : List Char) :
    squeeze .outside (t ++ x) = t ++ squeeze .outside x := by
  induction t with
  | nil => rfl
  | cons c t ih =>
      obtain ⟨hspace, hquote⟩ := h c List.mem_cons_self
      have hrest := ih fun d hd => h d (List.mem_cons_of_mem _ hd)
      rw [List.cons_append, squeeze, if_neg hspace, if_neg hquote, hrest]
      rfl

/-- Inside a string a plain character stays, a space as well. -/
theorem squeeze_char {c : Char} (hslash : c ≠ '\\') (hquote : c ≠ '"') (x : List Char) :
    squeeze .inside (c :: x) = c :: squeeze .inside x := by
  rw [squeeze, if_neg hslash, if_neg hquote]

/-- An escaped character stays, a quote as well. -/
theorem squeeze_slash (d : Char) (x : List Char) :
    squeeze .inside ('\\' :: d :: x) = '\\' :: d :: squeeze .inside x := rfl

/-- Hexadecimal digits are neither quotes nor backslashes. -/
theorem hexDigit_plain {n : ℕ} (h : n < 16) : hexDigit n ≠ '\\' ∧ hexDigit n ≠ '"' := by
  interval_cases n <;> decide

/-- So an escape of four digits stays. -/
theorem squeeze_hex4 (n : ℕ) (x : List Char) :
    squeeze .inside ('\\' :: 'u' :: (hex4 n ++ x)) =
      '\\' :: 'u' :: (hex4 n ++ squeeze .inside x) := by
  have hdigit : ∀ k, hexDigit (k % 16) ≠ '\\' ∧ hexDigit (k % 16) ≠ '"' :=
    fun k => hexDigit_plain (Nat.mod_lt _ (by omega))
  rw [squeeze_slash]
  simp only [hex4, List.cons_append, List.nil_append]
  rw [squeeze_char (hdigit _).1 (hdigit _).2, squeeze_char (hdigit _).1 (hdigit _).2,
    squeeze_char (hdigit _).1 (hdigit _).2, squeeze_char (hdigit _).1 (hdigit _).2]

/-- A string is left as it is. -/
theorem squeeze_escape (c : Char) (x : List Char) :
    squeeze .inside (escape c ++ x) = escape c ++ squeeze .inside x := by
  unfold escape
  split_ifs with hquote hslash _ _ _ _ _ _ _
  · exact squeeze_slash _ x
  · exact squeeze_slash _ x
  · exact squeeze_slash _ x
  · exact squeeze_slash _ x
  · exact squeeze_slash _ x
  · exact squeeze_slash _ x
  · exact squeeze_slash _ x
  · exact squeeze_char hslash hquote x
  · exact squeeze_hex4 _ x
  · simp only [List.cons_append, List.append_assoc]
    rw [squeeze_hex4, squeeze_hex4]

/-- A whole string stays as it is. -/
theorem squeeze_quote (s : String) (x : List Char) :
    squeeze .outside (quote s ++ x) = quote s ++ squeeze .outside x := by
  have hinside : ∀ cs : List Char, squeeze .inside (cs.flatMap escape ++ '"' :: x) =
      cs.flatMap escape ++ '"' :: squeeze .outside x := by
    intro cs
    induction cs with
    | nil => rfl
    | cons c cs ih =>
        rw [List.flatMap_cons, List.append_assoc, List.append_assoc, squeeze_escape, ih]
  have hopen : squeeze .outside ('"' :: (s.toList.flatMap escape ++ '"' :: x)) =
      '"' :: squeeze .inside (s.toList.flatMap escape ++ '"' :: x) := rfl
  simp only [quote, List.cons_append, List.append_assoc, List.nil_append]
  rw [hopen, hinside]

/-! ## The compact text -/

theorem plain_of_numeric {t : List Char} (h : ∀ c ∈ t, isNumeric c) : Plain t := by
  intro c hc
  constructor
  · rintro rfl
    exact absurd (h _ hc) (by decide)
  · rintro rfl
    exact absurd (h _ hc) (by decide)

/-- The space after a comma goes. -/
theorem squeeze_comma (x : List Char) :
    squeeze .outside (',' :: ' ' :: x) = ',' :: squeeze .outside x := rfl

/-- So does the one after a colon. -/
theorem squeeze_colon (x : List Char) :
    squeeze .outside (':' :: ' ' :: x) = ':' :: squeeze .outside x := rfl

/-- Items that lose their spaces one by one lose them when joined. -/
theorem squeeze_join {ts us : List (List Char)}
    (h : List.Forall₂ (fun t u => ∀ x, squeeze .outside (t ++ x) = u ++ squeeze .outside x) ts us)
    (x : List Char) : squeeze .outside (joinSpaced ts ++ x) = join us ++ squeeze .outside x := by
  induction h with
  | nil => rfl
  | @cons t u ts us ht hts ih =>
      cases hts with
      | nil => exact ht x
      | @cons t' u' ts us ht' hts =>
          rw [joinSpaced, List.append_assoc, List.cons_append, List.cons_append, ht, squeeze_comma,
            ih, join, List.append_assoc, List.cons_append]

mutual
/-- Without its spaces, the spaced text of a value is the compact one. -/
theorem squeeze_spaced : ∀ (a : Json) (x : List Char),
    squeeze .outside (spaced a ++ x) = encode a ++ squeeze .outside x
  | .null, x => by
      rw [spaced]
      exact squeeze_plain (by decide) x
  -- the cases are those of the value; only strings are copied from the inside
  | .bool true, x => by
      rw [spaced]
      exact squeeze_plain (by decide) x
  | .bool false, x => by
      rw [spaced]
      exact squeeze_plain (by decide) x
  | .int n, x => by
      rw [spaced, encode]
      exact squeeze_plain (plain_of_numeric (numeric_intText n)) x
  | .float y, x => by
      rw [spaced, encode]
      exact squeeze_plain (plain_of_numeric y.numeric) x
  | .str s, x => by
      rw [spaced, encode]
      exact squeeze_quote s x
  | .arr xs, x => by
      rw [spaced, encode, List.cons_append, List.append_assoc]
      have hopen : ∀ y, squeeze .outside ('[' :: y) = '[' :: squeeze .outside y := fun _ => rfl
      rw [hopen, squeeze_join (squeeze_spacedAll xs)]
      simp only [List.cons_append, List.append_assoc]
      rfl
  | .obj fs, x => by
      rw [spaced, encode, List.cons_append, List.append_assoc]
      have hopen : ∀ y, squeeze .outside ('{' :: y) = '{' :: squeeze .outside y := fun _ => rfl
      rw [hopen, squeeze_join (squeeze_spacedItems fs)]
      simp only [List.cons_append, List.append_assoc]
      rfl
/-- The same of every item of an array. -/
theorem squeeze_spacedAll : ∀ xs : List Json,
    List.Forall₂ (fun t u => ∀ x, squeeze .outside (t ++ x) = u ++ squeeze .outside x) (spacedAll xs)
      (encodeAll xs)
  | [] => .nil
  | a :: xs => .cons (squeeze_spaced a) (squeeze_spacedAll xs)
/-- The same of every field of an object. -/
theorem squeeze_spacedItems : ∀ fs : List (String × Json),
    List.Forall₂ (fun t u => ∀ x, squeeze .outside (t ++ x) = u ++ squeeze .outside x) (spacedItems fs)
      (encodeItems fs)
  | [] => .nil
  | (k, v) :: fs => by
      refine .cons ?_ (squeeze_spacedItems fs)
      intro x
      rw [List.append_assoc, squeeze_quote, List.cons_append, List.cons_append, squeeze_colon,
        squeeze_spaced, List.append_assoc, List.cons_append]
end

/-- So no two values have the same spaced text either. -/
theorem spaced_injective {a b : Json} (h : spaced a = spaced b) : a = b := by
  apply encode_injective
  have ha := squeeze_spaced a []
  have hb := squeeze_spaced b []
  rw [h, hb] at ha
  simpa using ha.symm

/-- Two values are dumped alike, with spaces, exactly when they are the same up to the order of
keys. -/
theorem dumpsSpaced_eq_iff {a b : Json} : dumpsSpaced a = dumpsSpaced b ↔ Same a b := by
  constructor
  · intro h
    exact spaced_injective (String.ofList_inj.mp h)
  · intro h
    rw [dumpsSpaced, dumpsSpaced, show sortKeys a = sortKeys b from h]

end Json
