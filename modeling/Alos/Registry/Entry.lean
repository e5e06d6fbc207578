import Alos.Py
import Alos.Table

/-! # Registry entries

The records of `alos.registry`. An entry is immutable but for its lifecycle:
`Evolves` relates an entry to what a lifecycle may make of it.
-/

namespace Alos.Registry

open Py

/-- The lifecycle of an entry. -/
inductive RegistryState where
  | draft
  | approved
  | active
  | suspended
  | retired
deriving DecidableEq, Repr

/-- The text of a state, as it is stored and compared. -/
def RegistryState.value : RegistryState → String
  | .draft => "DRAFT"
  | .approved => "APPROVED"
  | .active => "ACTIVE"
  | .suspended => "SUSPENDED"
  | .retired => "RETIRED"

/-- The place of a state in the order DRAFT, APPROVED, ACTIVE, SUSPENDED. -/
def RegistryState.rank : RegistryState → ℕ
  | .draft => 0
  | .approved => 1
  | .active => 2
  | .suspended => 3
  | .retired => 4

/-- The state that a transition leads to. -/
def RegistryState.successor : RegistryState → Option RegistryState
  | .draft => some .approved
  | .approved => some .active
  | .active => some .suspended
  | .suspended | .retired => none

/-- Every transition goes one rank up. -/
theorem RegistryState.rank_of_successor {state target : RegistryState}
    (h : state.successor = some target) : target.rank = state.rank + 1 := by
  cases state <;> cases h <;> rfl

/-- Who a decision was made by. -/
inductive DecisionAuthority where
  | it
  | director
deriving DecidableEq, Repr

/-- The text of an authority. -/
def DecisionAuthority.value : DecisionAuthority → String
  | .it => "IT"
  | .director => "DIRECTOR"

/-- `DecisionAuthority(authority)`; any other text is a `ValueError`. -/
def DecisionAuthority.ofString (authority : String) : Option DecisionAuthority :=
  if authority = "IT" then some .it
  else if authority = "DIRECTOR" then some .director
  else none

/-- A version in its tenant and workspace: the key of a registry's own dict. -/
structure RegistryKey where
  tenantId : String
  workspaceId : String
  subjectId : String
  version : String
deriving DecidableEq, Repr

/-- The key of a store, which the registries of several subject types share. -/
structure StoreKey where
  subjectType : String
  place : RegistryKey
deriving DecidableEq, Repr

/-- A version of a definition, with the place it belongs to, its digest, and where it stands in its
lifecycle. -/
structure RegistryEntry where
  subjectType : String
  subjectId : String
  version : String
  tenantId : String
  organizationId : String
  workspaceId : String
  payload : Json.Fields
  digest : String
  state : RegistryState
  createdBy : String
  correlationId : String
  createdAt : Datetime
  decisionId : Option String := none
  releaseId : Option String := none

namespace RegistryEntry

/-- What the cache keeps the entry under. The organization is no part of it. -/
def key (entry : RegistryEntry) : RegistryKey where
  tenantId := entry.tenantId
  workspaceId := entry.workspaceId
  subjectId := entry.subjectId
  version := entry.version

/-- What the store keeps the row of the entry under. -/
def storeKey (entry : RegistryEntry) : StoreKey where
  subjectType := entry.subjectType
  place := entry.key

/-- Two entries differ in their lifecycle only: state, lineage and the
correlation id of the last transition. -/
structure SameContent (old new : RegistryEntry) : Prop where
  storeKey : new.storeKey = old.storeKey
  organizationId : new.organizationId = old.organizationId
  payload : new.payload = old.payload
  digest : new.digest = old.digest
  createdBy : new.createdBy = old.createdBy
  createdAt : new.createdAt = old.createdAt

theorem SameContent.refl (entry : RegistryEntry) : SameContent entry entry :=
  ⟨rfl, rfl, rfl, rfl, rfl, rfl⟩

theorem SameContent.trans {a b c : RegistryEntry} (h : SameContent a b) (h' : SameContent b c) :
    SameContent a c where
  storeKey := h'.storeKey.trans h.storeKey
  organizationId := h'.organizationId.trans h.organizationId
  payload := h'.payload.trans h.payload
  digest := h'.digest.trans h.digest
  createdBy := h'.createdBy.trans h.createdBy
  createdAt := h'.createdAt.trans h.createdAt

theorem SameContent.key {old new : RegistryEntry} (h : SameContent old new) : new.key = old.key :=
  congrArg StoreKey.place h.storeKey

/-- The same content, and a state that is not behind. -/
structure Evolves (old new : RegistryEntry) : Prop extends SameContent old new where
  forward : old.state.rank ≤ new.state.rank

theorem Evolves.refl (entry : RegistryEntry) : Evolves entry entry :=
  ⟨.refl entry, le_refl _⟩

theorem Evolves.trans {a b c : RegistryEntry} (h : Evolves a b) (h' : Evolves b c) : Evolves a c :=
  ⟨h.toSameContent.trans h'.toSameContent, h.forward.trans h'.forward⟩

end RegistryEntry

end Alos.Registry
