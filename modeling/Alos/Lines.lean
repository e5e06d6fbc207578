import Mathlib.Data.List.Infix
import Mathlib.Data.List.TakeWhile
import Alos.Py

/-! # The lines of a text

What `splitlines` and `strip` leave of a text.

* `notBreak_of_mem_splitLines`: a line holds no character that ends a line;
* `mem_splitLines`: every other character of the text is in some line;
* `prefix_of_rstrip` and `rstrip_eq_nil_iff`: what is stripped is white space at
  the end.
-/

namespace Py

/-- A character that ends a line is white space. -/
theorem isSpace_of_isLineBreak {c : Char} (h : isLineBreak c = true) : isSpace c = true := by
  simp only [isLineBreak, isSpace, Bool.or_eq_true, Bool.and_eq_true, decide_eq_true_eq,
    beq_iff_eq] at h ⊢
  omega

/-! ## Lines -/

/-- A line holds no character that ends a line. -/
theorem notBreak_of_mem_splitLinesFrom {current : List Char} {isOpen : Bool} {s : List Char}
    (h : ∀ c ∈ current, isLineBreak c = false) :
    ∀ line ∈ splitLinesFrom current isOpen s, ∀ c ∈ line, isLineBreak c = false := by
  -- the line that is open holds no break so far
  have hcurrent : ∀ c ∈ current.reverse, isLineBreak c = false := by
    intro c hc
    exact h c (List.mem_reverse.1 hc)
  fun_induction splitLinesFrom current isOpen s with
  | case1 current => simpa using hcurrent
  | case2 => simp
  | case3 current isOpen rest ih =>
      intro line hline
      rcases List.mem_cons.1 hline with rfl | hline
      · exact hcurrent
      · exact ih (by simp) (by simp) line hline
  | case4 current isOpen c rest _ hbreak ih =>
      intro line hline
      rcases List.mem_cons.1 hline with rfl | hline
      · exact hcurrent
      · exact ih (by simp) (by simp) line hline
  | case5 current isOpen c rest _ hbreak ih =>
      have hc : isLineBreak c = false := by simpa using hbreak
      have hmore : ∀ d ∈ c :: current, isLineBreak d = false := by
        intro d hd
        rcases List.mem_cons.1 hd with rfl | hd
        · exact hc
        · exact h d hd
      exact ih hmore fun d hd => hmore d (List.mem_reverse.1 hd)

theorem notBreak_of_mem_splitLines {s line : List Char} (h : line ∈ splitLines s) :
    ∀ c ∈ line, isLineBreak c = false :=
  notBreak_of_mem_splitLinesFrom (by simp) line h

/-- A character of the text, or of the line so far, ends a line or is in one. -/
theorem mem_splitLinesFrom {current : List Char} {isOpen : Bool} {s : List Char} {c : Char}
    (h : c ∈ s ∨ (c ∈ current ∧ isOpen = true)) :
    isLineBreak c = true ∨ ∃ line ∈ splitLinesFrom current isOpen s, c ∈ line := by
  fun_induction splitLinesFrom current isOpen s with
  -- each character is a break, stands in the open line, or comes later
  | case1 current => simp_all
  | case2 => simp_all
  | case3 current isOpen rest ih =>
      rcases h with h | ⟨h, -⟩
      · rcases List.mem_cons.1 h with rfl | h
        · exact .inl (by decide)
        rcases List.mem_cons.1 h with rfl | h
        · exact .inl (by decide)
        exact (ih (.inl h)).imp_right fun ⟨line, hline, hc⟩ =>
          ⟨line, List.mem_cons_of_mem _ hline, hc⟩
      · exact .inr ⟨_, List.mem_cons_self, List.mem_reverse.2 h⟩
  | case4 current isOpen d rest _ hbreak ih =>
      rcases h with h | ⟨h, -⟩
      · rcases List.mem_cons.1 h with rfl | h
        · exact .inl hbreak
        exact (ih (.inl h)).imp_right fun ⟨line, hline, hc⟩ =>
          ⟨line, List.mem_cons_of_mem _ hline, hc⟩
      · exact .inr ⟨_, List.mem_cons_self, List.mem_reverse.2 h⟩
  | case5 current isOpen d rest _ hbreak ih =>
      apply ih
      rcases h with h | ⟨h, -⟩
      · rcases List.mem_cons.1 h with rfl | h
        · exact .inr ⟨List.mem_cons_self, rfl⟩
        · exact .inl h
      · exact .inr ⟨List.mem_cons_of_mem _ h, rfl⟩

theorem mem_splitLines {s : List Char} {c : Char} (h : c ∈ s) :
    isLineBreak c = true ∨ ∃ line ∈ splitLines s, c ∈ line :=
  mem_splitLinesFrom (.inl h)

/-! ## Stripping -/

/-- What is stripped on the right stood at the end. -/
theorem prefix_of_rstrip (s : List Char) : rstrip s <+: s := by
  have hsuffix := List.dropWhile_suffix (l := s.reverse) isSpace
  have hprefix := List.reverse_prefix.2 hsuffix
  rwa [List.reverse_reverse] at hprefix

/-- A text without white space. -/
theorem strip_eq_self {s : String} (h : ∀ c ∈ s.toList, isSpace c = false) : strip s = s := by
  have hdrop : ∀ cs : List Char, (∀ c ∈ cs, isSpace c = false) → cs.dropWhile isSpace = cs := by
    intro cs hcs
    cases cs with
    | nil => rfl
    | cons c cs => rw [List.dropWhile_cons_of_neg (by simp [hcs c List.mem_cons_self])]
  have hreverse : ∀ c ∈ s.toList.reverse, isSpace c = false :=
    fun c hc => h c (List.mem_reverse.1 hc)
  rw [strip, hdrop _ h, hdrop _ hreverse, List.reverse_reverse, String.ofList_toList]

theorem rstrip_eq_nil_iff {s : List Char} : rstrip s = [] ↔ ∀ c ∈ s, isSpace c = true := by
  unfold rstrip
  rw [List.reverse_eq_nil_iff, List.dropWhile_eq_nil_iff]
  simp

/-- A text that strips to nothing is white space. -/
theorem strip_eq_nil_iff {s : List Char} :
    rstrip (s.dropWhile isSpace) = [] ↔ ∀ c ∈ s, isSpace c = true := by
  rw [rstrip_eq_nil_iff]
  constructor
  · intro h
    -- the first character that is left is no space
    have hnil : s.dropWhile isSpace = [] := by
      cases hrest : s.dropWhile isSpace with
      | nil => rfl
      | cons c rest =>
          have hhead := List.head?_dropWhile_not isSpace s
          rw [hrest] at h hhead
          rw [List.head?_cons] at hhead
          have hspace := h c List.mem_cons_self
          simp [hspace] at hhead
    exact List.dropWhile_eq_nil_iff.1 hnil
  · intro h c hc
    exact h c ((List.dropWhile_suffix isSpace).subset hc)

end Py
