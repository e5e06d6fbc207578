import Alos.Coop.Guards
import Alos.Registry.AuthorityView
import Alos.Registry.Service

/-! # Reading a registry

The reads of `VersionedContractRegistry`, on the dict of a registry. Lists are
sorted by subject and semantic version.
-/

namespace Alos.Registry

open Py

/-- A pre-release identifier: numbers come before texts. -/
inductive Identifier where
  | numeric (n : ℕ)
  | text (s : String)
deriving DecidableEq, Ord

/-- What `_semver` returns; `release` is 1 without a pre-release. The numbers are those of
`int`, without the limit that CPython sets to the digits that it converts. -/
structure Semver where
  major : ℕ
  minor : ℕ
  patch : ℕ
  release : ℕ
  identifiers : List Identifier
deriving DecidableEq, Ord

namespace Semver

/-- `int(text)` of decimal digits. -/
def number (digits : List Char) : ℕ :=
  digits.foldl (fun n c => 10 * n + (c.toNat - '0'.toNat)) 0

/-- `0|[1-9][0-9]*`. -/
def numeric? (text : List Char) : Option ℕ :=
  if text ≠ [] ∧ text.all Char.isDigit ∧ (text.length = 1 ∨ text.head? ≠ some '0') then
    some (number text)
  else none

/-- `[0-9A-Za-z-]+(?:\.[0-9A-Za-z-]+)*`, split at its points. -/
def identifiers? (text : List Char) : Option (List (List Char)) :=
  let pieces := text.splitOn '.'
  if ∀ piece ∈ pieces, piece ≠ [] ∧ piece.all fun c => c.isAlphanum ∨ c = '-' then some pieces
  else none

/-- What stands before the first `c`, and what stands behind it if there is one. -/
def partition (c : Char) (text : List Char) : List Char × Option (List Char) :=
  match text.span (· ≠ c) with
  | (before, []) => (before, none)
  | (before, _ :: after) => (before, some after)

/-- The groups of the pattern: three numbers and the pre-release. -/
def groups? (version : String) : Option (ℕ × ℕ × ℕ × Option (List (List Char))) := do
  let (main, build) := partition '+' version.toList
  let (core, prerelease) := partition '-' main
  let [major, minor, patch] := core.splitOn '.' | none
  let _ ← build.mapM identifiers?
  return (← numeric? major, ← numeric? minor, ← numeric? patch, ← prerelease.mapM identifiers?)

def identifier (version : String) (text : List Char) : Except ReadError Identifier :=
  if text.all Char.isDigit then
    if text.length > 1 ∧ text.head? = some '0' then
      .error (.conflict s!"invalid semantic version prerelease: {version}")
    else .ok (.numeric (number text))
  else .ok (.text (String.ofList text))

/-- `_semver`. -/
def ofString (version : String) : Except ReadError Semver :=
  match groups? version with
  | none => .error (.conflict s!"invalid semantic version: {version}")
  | some (major, minor, patch, none) => .ok ⟨major, minor, patch, 1, []⟩
  | some (major, minor, patch, some prerelease) => do
      let identifiers ← prerelease.mapM (identifier version)
      return ⟨major, minor, patch, 0, identifiers⟩

end Semver

/-- The entries in the order of their subjects and versions; entries that are
equal in both keep theirs. -/
def sorted (entries : List RegistryEntry) : Except ReadError (List RegistryEntry) := do
  let keyed ← entries.mapM fun entry => do return (entry, ← Semver.ofString entry.version)
  let before (a b : RegistryEntry × Semver) : Bool :=
    ((compare a.1.subjectId b.1.subjectId).then (compare a.2 b.2)).isLE
  return (keyed.insertionSort (before · ·)).map Prod.fst

section Reads

variable (entries : Table RegistryEntry.key)

def get (key : RegistryKey) : Except ReadError RegistryEntry :=
  match entries.get? key with
  | none => .error (.notFound "registry version was not found in tenant workspace")
  | some entry => .ok entry

/-- The view of an active entry, for a principal that has the authority. -/
def getAuthorized (principal : Option Principal) (subjectId version : String) :
    Except ReadError RegistryAuthorityView :=
  match principal with
  | none => .error (.unauthorized "principal is required")
  | some principal => do
      let entry ← get entries ⟨principal.tenantId, principal.workspaceId, subjectId, version⟩
      .require (entry.organizationId = principal.organizationId)
        (.unauthorized "registry organization is outside principal scope")
      .require (entry.state = .active) (.unauthorized "registry lifecycle is not ACTIVE")
      let view ← RegistryAuthorityView.fromEntry entry
      view.authorize principal
      return view

/-- The view of an entry is authorized; what else it raises is raised. -/
def authorized (principal : Principal) (entry : RegistryEntry) : Except ReadError Bool :=
  match (do (← RegistryAuthorityView.fromEntry entry).authorize principal) with
  | .ok () => .ok true
  | .error (.unauthorized _) => .ok false
  | .error e => .error e

def listAuthorizedEntries (principal : Option Principal) :
    Except ReadError (List RegistryEntry) := do
  match principal with
  | none => throw (.unauthorized "principal is required")
  | some principal =>
      let candidates := entries.values.filter fun entry =>
        entry.tenantId = principal.tenantId ∧ entry.organizationId = principal.organizationId ∧
          entry.workspaceId = principal.workspaceId ∧ entry.state = .active
      sorted (← candidates.filterM (authorized principal))

def listEntries (tenantId organizationId workspaceId : String)
    (subjectId : Option String := none) : Except ReadError (List RegistryEntry) :=
  sorted (entries.values.filter fun entry =>
    entry.tenantId = tenantId ∧ entry.organizationId = organizationId ∧
      entry.workspaceId = workspaceId ∧ (subjectId = none ∨ subjectId = some entry.subjectId))

def latestEntry (tenantId organizationId workspaceId subjectId : String) :
    Except ReadError RegistryEntry := do
  let entries ← listEntries entries tenantId organizationId workspaceId (some subjectId)
  match entries.getLast? with
  | none => throw (.notFound "registry subject was not found")
  | some entry => return entry

end Reads

end Alos.Registry
