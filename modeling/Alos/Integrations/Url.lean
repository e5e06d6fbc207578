import Mathlib.Data.List.TakeWhile
import Alos.Py

/-! # The parts of a URL

What `urllib.parse.urlsplit` returns, with the properties that it computes from
the network location, and `urlunsplit` without query and fragment. `urlsplit`
itself is a parameter, and so is `str.lower`.

* `netloc_ext`: user information and host make up the network location;
* `urlunsplit_inj`: the network location can be read off what `urlunsplit` makes
  of it.
-/

namespace Alos.Integrations

/-- `urllib.parse.SplitResult`. -/
structure SplitResult where
  scheme : String
  netloc : String
  path : String
  query : String
  fragment : String
deriving DecidableEq, Repr

/-- `s.partition(c)[0]`. -/
def before (c : Char) (s : List Char) : List Char := s.takeWhile (· ≠ c)

/-- `s.partition(c)[2]`. -/
def after (c : Char) (s : List Char) : List Char := (s.dropWhile (· ≠ c)).tail

/-- `s.rpartition(c)[0]`. -/
def beforeLast (c : Char) (s : List Char) : List Char := (after c s.reverse).reverse

/-- `s.rpartition(c)[2]`. -/
def afterLast (c : Char) (s : List Char) : List Char := (before c s.reverse).reverse

theorem before_after {c : Char} {s : List Char} (h : c ∈ s) : before c s ++ c :: after c s = s := by
  induction s with
  | nil => cases h
  | cons d s ih =>
      by_cases hd : d = c
      · subst hd
        simp [before, after]
      · have hmem : c ∈ s := (List.mem_cons.1 h).resolve_left fun heq => hd heq.symm
        have hbefore : before c (d :: s) = d :: before c s := by simp [before, hd]
        have hafter : after c (d :: s) = after c s := by simp [after, hd]
        rw [hbefore, hafter, List.cons_append, ih hmem]

theorem before_of_not_mem {c : Char} {s : List Char} (h : c ∉ s) : before c s = s := by
  rw [before, List.takeWhile_eq_self_iff]
  intro d hd
  simp only [ne_eq, decide_eq_true_eq]
  rintro rfl
  exact h hd

namespace SplitResult

variable (lower : String → String) (parsed : SplitResult)

/-- What precedes the last `@` of the network location, if there is one. -/
def userinfo : Option (List Char) :=
  if '@' ∈ parsed.netloc.toList then some (beforeLast '@' parsed.netloc.toList) else none

def username : Option String := parsed.userinfo.map fun userinfo => String.ofList (before ':' userinfo)

def password : Option String := parsed.userinfo.bind fun userinfo =>
  if ':' ∈ userinfo then some (String.ofList (after ':' userinfo)) else none

/-- What follows the last `@` of the network location: the host and the port. -/
def hostinfo : List Char := afterLast '@' parsed.netloc.toList

/-- The host as it is written, without the brackets of an IPv6 address. -/
def host : List Char :=
  if '[' ∈ parsed.hostinfo then before ']' (after '[' parsed.hostinfo)
  else before ':' parsed.hostinfo

/-- The host in lower case, but for the zone of an IPv6 address. -/
def hostname : Option String :=
  if parsed.host = [] then none
  else some (lower (String.ofList (before '%' parsed.host)) ++
    String.ofList (parsed.host.dropWhile (· ≠ '%')))

/-- The network location is made of its two parts. -/
theorem netloc_toList :
    parsed.netloc.toList = (parsed.userinfo.elim [] fun userinfo => userinfo ++ ['@']) ++
      parsed.hostinfo := by
  unfold userinfo hostinfo
  by_cases h : '@' ∈ parsed.netloc.toList
  · rw [if_pos h, Option.elim_some, beforeLast, afterLast, List.append_assoc, List.singleton_append]
    have hparts := before_after (List.mem_reverse.2 h)
    rw [← List.reverse_inj]
    simpa using hparts.symm
  · rw [if_neg h, Option.elim_none, afterLast, before_of_not_mem (by simpa using h)]
    simp

theorem netloc_ext {parsed other : SplitResult} (huser : parsed.userinfo = other.userinfo)
    (hhost : parsed.hostinfo = other.hostinfo) : parsed.netloc = other.netloc := by
  rw [← String.toList_inj, netloc_toList, netloc_toList, huser, hhost]

end SplitResult

/-- The part of `urlunsplit` before the scheme is added; `usesNetloc` are the schemes
of `uses_netloc`. -/
def hierarchical (usesNetloc : List String) (scheme netloc path : String) : String :=
  if netloc ≠ "" then
    "//" ++ netloc ++ if path ≠ "" ∧ path.toList.take 1 ≠ ['/'] then "/" ++ path else path
  else if path.toList.take 2 = ['/', '/'] then "//" ++ path
  else if scheme ≠ "" ∧ scheme ∈ usesNetloc ∧ (path = "" ∨ path.toList.take 1 = ['/']) then
    "//" ++ path
  else path

/-- `urlunsplit((scheme, netloc, path, "", ""))`. -/
def urlunsplit (usesNetloc : List String) (scheme netloc path : String) : String :=
  let url := hierarchical usesNetloc scheme netloc path
  if scheme ≠ "" then scheme ++ ":" ++ url else url

section Inverse

variable {usesNetloc : List String} {scheme path : String}

/-- A location that is there makes the text longer than one that is not. -/
theorem length_hierarchical_lt (usesNetloc : List String) (scheme path : String) {netloc : String}
    (h : netloc ≠ "") :
    (hierarchical usesNetloc scheme "" path).length <
      (hierarchical usesNetloc scheme netloc path).length := by
  -- the user information is the longer part of the authority
  have hnetloc : 0 < netloc.length := by
    rw [Nat.pos_iff_ne_zero]
    intro hlength
    exact h (String.length_eq_zero_iff.1 hlength)
  have hslashes : "//".length = 2 := rfl
  have hpath : path.length ≤
      (if path ≠ "" ∧ path.toList.take 1 ≠ ['/'] then "/" ++ path else path).length := by
    split
    · rw [String.length_append]
      omega
    · exact Nat.le_refl _
  have hwithout : (hierarchical usesNetloc scheme "" path).length ≤ 2 + path.length := by
    unfold hierarchical
    rw [if_neg (by simp)]
    split
    · rw [String.length_append, hslashes]
    · split
      · rw [String.length_append, hslashes]
      · omega
  have hwith : (hierarchical usesNetloc scheme netloc path).length = 2 + netloc.length +
      (if path ≠ "" ∧ path.toList.take 1 ≠ ['/'] then "/" ++ path else path).length := by
    rw [hierarchical, if_pos h, String.length_append, String.length_append, hslashes]
  omega

theorem hierarchical_inj {netloc other : String}
    (h : hierarchical usesNetloc scheme netloc path = hierarchical usesNetloc scheme other path) :
    netloc = other := by
  by_cases hnetloc : netloc = ""
  · by_contra hne
    have hother : other ≠ "" := fun hother => hne (hnetloc.trans hother.symm)
    have hlength := length_hierarchical_lt usesNetloc scheme path hother
    rw [← h, hnetloc] at hlength
    exact Nat.lt_irrefl _ hlength
  · by_cases hother : other = ""
    · have hlength := length_hierarchical_lt usesNetloc scheme path hnetloc
      rw [h, hother] at hlength
      exact absurd hlength (Nat.lt_irrefl _)
    · simp only [hierarchical, if_pos hnetloc, if_pos hother, String.append_left_inj,
        String.append_right_inj] at h
      exact h

/-- The network location can be read off the URL. -/
theorem urlunsplit_inj {netloc other : String}
    (h : urlunsplit usesNetloc scheme netloc path = urlunsplit usesNetloc scheme other path) :
    netloc = other := by
  unfold urlunsplit at h
  simp only at h
  split at h
  · exact hierarchical_inj ((String.append_right_inj _).1 h)
  · exact hierarchical_inj h

end Inverse

end Alos.Integrations
