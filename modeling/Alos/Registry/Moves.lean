import Alos.Registry.Stages

/-! # What an operation may store

* `Moves` lists, for each operation, the entry that it stores over what it
  finds under its key;
* `Call.stores`: the decision of a call is one of them;
* `Moves.changes`: what that does to the version, field by field.
-/

namespace Alos.Registry

open Coop Py

/-- A transition changes the lifecycle of an entry and nothing of its content. -/
theorem transitioned_sameContent (current : RegistryEntry) (target : RegistryState)
    (correlationId : String) (decisionId releaseId : Option String) :
    current.SameContent (transitioned current target correlationId decisionId releaseId) :=
  ⟨rfl, rfl, rfl, rfl, rfl, rfl⟩

/-- The entry is in the target state. -/
@[simp] theorem transitioned_state (current : RegistryEntry) (target : RegistryState)
    (correlationId : String) (decisionId releaseId : Option String) :
    (transitioned current target correlationId decisionId releaseId).state = target := rfl

section Stores

variable {ι κ : Type} {x : Registries ι κ}

/-- `Moves x c found entry`: the call `c`, which finds `found` under its key,
stores `entry`. -/
inductive Moves (x : Registries ι κ) : Call ι → Option RegistryEntry → RegistryEntry → Prop where
  | registered {i payload tenantId organizationId workspaceId actorId correlationId now entry}
      (h : prepare x i payload tenantId organizationId workspaceId actorId correlationId now =
        .ok entry) :
      Moves x (.register i payload tenantId organizationId workspaceId actorId correlationId now)
        none entry
  | approved {i key actorId decisionId authority correlationId old resolvedAuthority}
      (hkey : old.key = key)
      (hauthority : DecisionAuthority.ofString authority = some resolvedAuthority)
      (hstate : old.state = .draft) :
      Moves x (.approve i key actorId decisionId authority correlationId) (some old)
        (transitioned old .approved correlationId (some decisionId) none)
  | activated {i key actorId releaseId correlationId old} (hkey : old.key = key)
      (hstate : old.state = .approved) :
      Moves x (.activate i key actorId releaseId correlationId) (some old)
        (transitioned old .active correlationId none (some releaseId))
  | suspended {i key actorId correlationId old} (hkey : old.key = key)
      (hstate : old.state = .active) :
      Moves x (.suspend i key actorId correlationId) (some old)
        (transitioned old .suspended correlationId none none)

/-- A transition is decided on an entry in the expected state. -/
theorem decideTransition_stored {expected target : RegistryState} {correlationId : String}
    {decisionId releaseId : Option String} {found : Option RegistryEntry} {entry : RegistryEntry}
    (h : decideTransition expected target correlationId decisionId releaseId found =
      .ok (.stored entry)) :
    ∃ old, found = some old ∧ old.state = expected ∧
      entry = transitioned old target correlationId decisionId releaseId := by
  unfold decideTransition at h
  cases found with
  | none => cases h
  | some old =>
      by_cases hstate : old.state = expected
      · simp only [hstate, ne_eq, not_true_eq_false, if_false] at h
        cases h
        exact ⟨old, rfl, hstate, rfl⟩
      · simp only [hstate, ne_eq, not_false_eq_true, if_true] at h
        cases h

/-- A transition never gives back an entry that it has found. -/
theorem decideTransition_ne_found {expected target : RegistryState} {correlationId : String}
    {decisionId releaseId : Option String} {found : Option RegistryEntry}
    {existing : RegistryEntry} :
    decideTransition expected target correlationId decisionId releaseId found ≠
      .ok (.found existing) := by
  intro h
  unfold decideTransition at h
  cases found with
  | none => cases h
  | some old =>
      by_cases hstate : old.state = expected <;> simp [hstate] at h

/-- An entry is stored as it was built, and only where none stands under its key. -/
theorem decideRegister_stored {entry stored : RegistryEntry} {found : Option RegistryEntry}
    (h : decideRegister entry found = .ok (.stored stored)) : found = none ∧ stored = entry := by
  unfold decideRegister at h
  cases found with
  | none =>
      cases h
      exact ⟨rfl, rfl⟩
  | some existing =>
      by_cases hdigest : existing.digest = entry.digest <;> simp [hdigest] at h

/-- An entry that is given back has the digest of the one that was offered. -/
theorem decideRegister_found {entry existing : RegistryEntry} {found : Option RegistryEntry}
    (h : decideRegister entry found = .ok (.found existing)) :
    found = some existing ∧ existing.digest = entry.digest := by
  unfold decideRegister at h
  cases found with
  | none => cases h
  | some old =>
      by_cases hdigest : old.digest = entry.digest
      · simp only [hdigest, if_true] at h
        cases h
        exact ⟨rfl, hdigest⟩
      · simp [hdigest] at h

/-- The entry of a registration belongs to the registry. -/
theorem prepare_ok {i : ι} {payload : Json.Fields}
    {tenantId organizationId workspaceId actorId correlationId : String} {now : Datetime}
    {entry : RegistryEntry}
    (h : prepare x i payload tenantId organizationId workspaceId actorId correlationId now =
      .ok entry) :
    ∃ subjectId version, entry = {
      subjectType := (x.registry i).subjectType
      subjectId := subjectId
      version := version
      tenantId := tenantId
      organizationId := organizationId
      workspaceId := workspaceId
      payload := payload
      digest := digest x payload
      state := .draft
      createdBy := actorId
      correlationId := correlationId
      createdAt := now } := by
  unfold prepare at h
  cases hvalid : x.contracts.validate (x.registry i).schemaId payload with
  | error e => simp [hvalid, Except.mapError, bind, Except.bind] at h
  | ok validated =>
      obtain rfl := CanonicalContractCatalog.validate_eq hvalid
      simp only [hvalid, Except.mapError, bind, Except.bind] at h
      -- the three fields of the context must match, and the two ids are texts
      split at h
      · cases h
      split at h
      · cases h
      rename_i subjectId _
      split at h
      · cases h
      rename_i version _
      cases h
      exact ⟨subjectId, version, rfl⟩

/-- `Opens x c u`: the checks of the call `c` have passed, and `u` is its update. -/
inductive Opens (x : Registries ι κ) : Call ι → Update → Prop where
  | register {i payload tenantId organizationId workspaceId actorId correlationId now entry}
      (hprepare : prepare x i payload tenantId organizationId workspaceId actorId correlationId
        now = .ok entry) :
      Opens x (.register i payload tenantId organizationId workspaceId actorId correlationId now)
        ⟨entry.key, decideRegister entry, actorId, "registry.version.created", "DRAFT"⟩
  | approve {i key actorId decisionId authority correlationId resolvedAuthority}
      (hauthority : DecisionAuthority.ofString authority = some resolvedAuthority) :
      Opens x (.approve i key actorId decisionId authority correlationId)
        ⟨key, decideTransition .draft .approved correlationId (some decisionId) none, actorId,
          "registry.version.approved", resolvedAuthority.value⟩
  | activate {i key actorId releaseId correlationId} :
      Opens x (.activate i key actorId releaseId correlationId)
        ⟨key, decideTransition .approved .active correlationId none (some releaseId), actorId,
          "registry.version.activated", "ACTIVE"⟩
  | suspend {i key actorId correlationId} :
      Opens x (.suspend i key actorId correlationId)
        ⟨key, decideTransition .active .suspended correlationId none none, actorId,
          "registry.version.suspended", "SUSPENDED"⟩

/-- An update that a call prepares is one of those that open it. -/
theorem Call.opens {c : Call ι} {u : Update} (h : c.update? x = some (.ok u)) : Opens x c u := by
  -- a registration opens when it is prepared, an approval when its authority is human
  cases c with
  | register i payload tenantId organizationId workspaceId actorId correlationId now =>
      simp only [update?, Option.some.injEq] at h
      cases hprepare : prepare x i payload tenantId organizationId workspaceId actorId
          correlationId now with
      | error e => simp [hprepare, Except.map] at h
      | ok prepared =>
          simp only [hprepare, Except.map, Except.ok.injEq] at h
          subst h
          exact .register hprepare
  | approve i key actorId decisionId authority correlationId =>
      simp only [update?, Option.some.injEq] at h
      cases hauthority : DecisionAuthority.ofString authority with
      | none => simp [hauthority] at h
      | some resolvedAuthority =>
          simp only [hauthority, Except.ok.injEq] at h
          subst h
          exact .approve hauthority
  | activate i key actorId releaseId correlationId =>
      cases h
      exact .activate
  | suspend i key actorId correlationId =>
      cases h
      exact .suspend
  | hydrate i => cases h

/-- Whatever a call stores is one of its moves. -/
theorem Call.stores {c : Call ι} {u : Update} (h : c.update? x = some (.ok u))
    {found : Option RegistryEntry} (hfound : ∀ old, found = some old → old.key = u.key)
    {entry : RegistryEntry} (hdecide : u.decide found = .ok (.stored entry)) :
    Moves x c found entry := by
  -- what a call stores is the new entry, or the found one moved on
  cases Call.opens h with
  | register hprepare =>
      obtain ⟨rfl, rfl⟩ := decideRegister_stored hdecide
      exact .registered hprepare
  | approve hauthority =>
      obtain ⟨old, rfl, hstate, rfl⟩ := decideTransition_stored hdecide
      exact .approved (hfound old rfl) hauthority hstate
  | activate =>
      obtain ⟨old, rfl, hstate, rfl⟩ := decideTransition_stored hdecide
      exact .activated (hfound old rfl) hstate
  | suspend =>
      obtain ⟨old, rfl, hstate, rfl⟩ := decideTransition_stored hdecide
      exact .suspended (hfound old rfl) hstate

/-- What a call stores is filed under the key it looked up. -/
theorem Call.stores_key {c : Call ι} {u : Update} (h : c.update? x = some (.ok u))
    {found : Option RegistryEntry} (hfound : ∀ old, found = some old → old.key = u.key)
    {entry : RegistryEntry} (hdecide : u.decide found = .ok (.stored entry)) :
    entry.key = u.key := by
  cases Call.opens h with
  | register hprepare =>
      obtain ⟨-, rfl⟩ := decideRegister_stored hdecide
      rfl
  | approve hauthority =>
      -- a transition leaves the key of what it finds
      obtain ⟨old, rfl, -, rfl⟩ := decideTransition_stored hdecide
      exact hfound old rfl
  | activate =>
      obtain ⟨old, rfl, -, rfl⟩ := decideTransition_stored hdecide
      exact hfound old rfl
  | suspend =>
      obtain ⟨old, rfl, -, rfl⟩ := decideTransition_stored hdecide
      exact hfound old rfl

/-- What the call `c` may do to the version `key` of the registry `i`. -/
structure Changes (c : Call ι) (i : ι) (key : RegistryKey) (before after : Option RegistryEntry) :
    Prop where
  registry : c.registry = i
  /-- Nothing is removed. -/
  found : ∃ new, after = some new
  registered : ∀ new, before = none → after = some new → new.state = .draft ∧
    ∃ payload tenantId organizationId workspaceId actorId correlationId now,
      c = .register i payload tenantId organizationId workspaceId actorId correlationId now
  evolved : ∀ old new, before = some old → after = some new →
    old.SameContent new ∧ old.state.successor = some new.state
  approved : ∀ old new, before = some old → after = some new → old.state = .draft →
    ∃ actorId decisionId authority correlationId resolvedAuthority,
      c = .approve i key actorId decisionId authority correlationId ∧
        DecisionAuthority.ofString authority = some resolvedAuthority
  activated : ∀ old new, before = some old → after = some new → new.state = .active →
    ∃ actorId releaseId correlationId, c = .activate i key actorId releaseId correlationId

namespace Moves

variable {c : Call ι} {found : Option RegistryEntry} {old entry : RegistryEntry}

/-- An entry that is found only evolves, by one step of its lifecycle. -/
theorem evolves (h : Moves x c (some old) entry) :
    old.SameContent entry ∧ old.state.successor = some entry.state := by
  cases h with
  | approved hkey hauthority hstate =>
      exact ⟨transitioned_sameContent .., by rw [hstate]; rfl⟩
  | activated hkey hstate => exact ⟨transitioned_sameContent .., by rw [hstate]; rfl⟩
  | suspended hkey hstate => exact ⟨transitioned_sameContent .., by rw [hstate]; rfl⟩

/-- What a registry stores is of its subject type if what it finds is. -/
theorem subjectType (h : Moves x c found entry)
    (hfound : ∀ old, found = some old → old.subjectType = (x.registry c.registry).subjectType) :
    entry.subjectType = (x.registry c.registry).subjectType := by
  cases found with
  | none =>
      cases h with
      | registered hprepare =>
          obtain ⟨subjectId, version, rfl⟩ := prepare_ok hprepare
          rfl
  | some old =>
      have hkey := congrArg StoreKey.subjectType h.evolves.1.storeKey
      exact hkey.trans (hfound old rfl)

/-- A move is a change of the version it is about, and of no other. -/
theorem changes (h : Moves x c found entry) (hkey : ∀ old, found = some old → old.key = entry.key) :
    Changes c c.registry entry.key found (some entry) := by
  refine ⟨rfl, ⟨_, rfl⟩, ?_, ?_, ?_, ?_⟩
  · rintro new rfl hnew
    cases hnew
    cases h with
    | registered hprepare =>
        obtain ⟨subjectId, version, rfl⟩ := prepare_ok hprepare
        exact ⟨rfl, _, _, _, _, _, _, _, rfl⟩
  · rintro old new rfl hnew
    cases hnew
    exact h.evolves
  -- a draft is left by an approval and by nothing else
  · rintro old new rfl hnew hdraft
    cases hnew
    cases h with
    | approved hfound hauthority hstate => exact ⟨_, _, _, _, _, by rw [← hfound]; rfl, hauthority⟩
    | activated hfound hstate => simp [hdraft] at hstate
    | suspended hfound hstate => simp [hdraft] at hstate
  · rintro old new rfl hnew hactive
    cases hnew
    cases h with
    | approved hfound hauthority hstate => simp at hactive
    | activated hfound hstate => exact ⟨_, _, _, by rw [← hfound]; rfl⟩
    | suspended hfound hstate => simp at hactive

/-- The digest that is stored is that of the payload. -/
theorem digest (h : Moves x c found entry)
    (hfound : ∀ old, found = some old → old.digest = Registry.digest x old.payload) :
    entry.digest = Registry.digest x entry.payload := by
  cases found with
  | none =>
      cases h with
      | registered hprepare =>
          obtain ⟨subjectId, version, rfl⟩ := prepare_ok hprepare
          rfl
  | some old =>
      have hcontent := h.evolves.1
      rw [hcontent.digest, hcontent.payload]
      exact hfound old rfl

/-- A payload that is stored is that of the registration, or was stored before. -/
theorem origin (h : Moves x c found entry) :
    (∃ old, found = some old ∧ entry.payload = old.payload) ∨
      ∃ tenantId organizationId workspaceId actorId correlationId now,
        c = .register c.registry entry.payload tenantId organizationId workspaceId actorId
          correlationId now := by
  cases found with
  | none =>
      cases h with
      | registered hprepare =>
          obtain ⟨subjectId, version, rfl⟩ := prepare_ok hprepare
          exact .inr ⟨_, _, _, _, _, _, rfl⟩
  | some old => exact .inl ⟨old, rfl, h.evolves.1.payload⟩

end Moves

end Stores

end Alos.Registry
