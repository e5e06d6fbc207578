import Alos.Audit
import Alos.Contracts
import Alos.Coop.Lock
import Alos.Json.Dumps
import Alos.Registry.Entry

/-! # Versioned contract registries

`VersionedContractRegistry` of `alos.registry` over its stores, operation by
operation. The awaits are the lock, which is held while an entry is saved, the
store and `AuditSink.append`.

* `Registries` is a deployment: registries `ι` that share stores `κ`;
* `Memory` is its state: the rows of the stores, and the dict and the lock of
  every registry;
* `Call.prog` is the operation that a call runs.

Copies of entries are the entries themselves, nothing in the modelled code
writes to one. The clock is read once, when an entry is built; a call carries
what it says.
-/

namespace Alos.Registry

open Coop Py

/-- What an operation raises. `missing` is a `KeyError`; `store` and `audit`
are whatever the store and the audit sink raised. -/
inductive RegistryError where
  | contract (e : ContractError)
  | missing (field : String)
  | conflict (message : String)
  | notFound (message : String)
  | store
  | audit
deriving DecidableEq, Repr

/-- The arguments of `__init__`. -/
structure VersionedContractRegistry (κ : Type) where
  subjectType : String
  schemaId : String
  idField : String
  versionField : String
  store : κ

/-- The schema that `AgentRegistry` registers its payloads under. -/
def agentDefinitionSchemaId : String :=
  "https://schemas.alos.dev/v1/agent/agent-definition.schema.json"

/-- `AgentRegistry(contracts, audit, store)`. -/
def agentRegistry {κ : Type} (store : κ) : VersionedContractRegistry κ where
  subjectType := "agent"
  schemaId := agentDefinitionSchemaId
  idField := "agent_id"
  versionField := "agent_version"
  store := store

/-- The schema that `SkillRegistry` registers its payloads under. -/
def skillDefinitionSchemaId : String :=
  "https://schemas.alos.dev/v1/skill/skill-definition.schema.json"

/-- `SkillRegistry(contracts, audit, store)`. -/
def skillRegistry {κ : Type} (store : κ) : VersionedContractRegistry κ where
  subjectType := "skill"
  schemaId := skillDefinitionSchemaId
  idField := "skill_id"
  versionField := "skill_version"
  store := store

/-- The two implementations of `RegistryStore`. -/
inductive StoreKind where
  | inMemory
  | sql
deriving DecidableEq, Repr

/-- What the registries of one deployment share, and the configuration of each of them. -/
structure Registries (ι κ : Type) where
  contracts : CanonicalContractCatalog
  /-- `hashlib.sha256(text.encode()).hexdigest()`. -/
  sha256 : String → String
  /-- `repr` of a list or a dict. -/
  repr : Json → String
  registry : ι → VersionedContractRegistry κ
  store : κ → StoreKind

/-- The rows of the stores, `_entries` and `_lock` of the registries. -/
structure Memory (ι κ : Type) where
  rows : κ → Table RegistryEntry.storeKey
  entries : ι → Table RegistryEntry.key
  locked : ι → Bool

namespace Memory

variable {ι κ : Type}

/-- No entry, no row, and every lock free. -/
def empty : Memory ι κ := ⟨fun _ => .empty, fun _ => .empty, fun _ => false⟩

/-- `load_subject_type`; the order in which a database returns its rows is
taken to be that of their insertion. -/
def load (s : Memory ι κ) (k : κ) (subjectType : String) : List RegistryEntry :=
  (s.rows k).values.filter fun row => row.subjectType = subjectType

section Rows

variable [DecidableEq κ]

/-- Writes a row of the store `k` under the unique key of the table. -/
def putRow (s : Memory ι κ) (k : κ) (entry : RegistryEntry) : Memory ι κ :=
  { s with rows := Function.update s.rows k ((s.rows k).put entry) }

@[simp] theorem putRow_rows (s : Memory ι κ) (k : κ) (entry : RegistryEntry) :
    (s.putRow k entry).rows = Function.update s.rows k ((s.rows k).put entry) := rfl

@[simp] theorem putRow_entries (s : Memory ι κ) (k : κ) (entry : RegistryEntry) :
    (s.putRow k entry).entries = s.entries := rfl

@[simp] theorem putRow_locked (s : Memory ι κ) (k : κ) (entry : RegistryEntry) :
    (s.putRow k entry).locked = s.locked := rfl

end Rows

section Entries

variable [DecidableEq ι]

/-- Replaces the whole cache of registry `i`, as `hydrate` does. -/
def setEntries (s : Memory ι κ) (i : ι) (entries : Table RegistryEntry.key) : Memory ι κ :=
  { s with entries := Function.update s.entries i entries }

/-- `self._entries[key] = entry`. -/
def putEntry (s : Memory ι κ) (i : ι) (entry : RegistryEntry) : Memory ι κ :=
  s.setEntries i ((s.entries i).put entry)

/-- Takes or frees the lock of registry `i`. -/
def setLocked (s : Memory ι κ) (i : ι) (b : Bool) : Memory ι κ :=
  { s with locked := Function.update s.locked i b }

@[simp] theorem setEntries_rows (s : Memory ι κ) (i : ι) (entries : Table RegistryEntry.key) :
    (s.setEntries i entries).rows = s.rows := rfl

@[simp] theorem setEntries_entries (s : Memory ι κ) (i : ι) (entries : Table RegistryEntry.key) :
    (s.setEntries i entries).entries = Function.update s.entries i entries := rfl

@[simp] theorem setEntries_locked (s : Memory ι κ) (i : ι) (entries : Table RegistryEntry.key) :
    (s.setEntries i entries).locked = s.locked := rfl

@[simp] theorem putEntry_rows (s : Memory ι κ) (i : ι) (entry : RegistryEntry) :
    (s.putEntry i entry).rows = s.rows := rfl

@[simp] theorem putEntry_entries (s : Memory ι κ) (i : ι) (entry : RegistryEntry) :
    (s.putEntry i entry).entries = Function.update s.entries i ((s.entries i).put entry) := rfl

/-- An entry of a dict was there before, or a put has brought it. -/
theorem mem_putEntry {s : Memory ι κ} {i k : ι} {entry e : RegistryEntry}
    (h : e ∈ ((s.putEntry k entry).entries i).values) :
    e ∈ (s.entries i).values ∨ i = k ∧ e = entry := by
  rw [putEntry_entries] at h
  by_cases hi : i = k
  · subst hi
    rw [Function.update_self] at h
    rcases Table.mem_put.1 h with rfl | ⟨h, -⟩
    · exact .inr ⟨rfl, rfl⟩
    · exact .inl h
  · rw [Function.update_of_ne hi] at h
    exact .inl h

/-- An entry of a dict was there before, or a load has brought it. -/
theorem mem_setEntries {s : Memory ι κ} {i k : ι} {loaded : List RegistryEntry}
    {e : RegistryEntry} (h : e ∈ ((s.setEntries k (.ofList loaded)).entries i).values) :
    e ∈ (s.entries i).values ∨ i = k ∧ e ∈ loaded := by
  rw [setEntries_entries] at h
  by_cases hi : i = k
  · subst hi
    rw [Function.update_self] at h
    exact .inr ⟨rfl, Table.mem_of_ofList h⟩
  · rw [Function.update_of_ne hi] at h
    exact .inl h

@[simp] theorem putEntry_locked (s : Memory ι κ) (i : ι) (entry : RegistryEntry) :
    (s.putEntry i entry).locked = s.locked := rfl

@[simp] theorem setLocked_rows (s : Memory ι κ) (i : ι) (b : Bool) :
    (s.setLocked i b).rows = s.rows := rfl

@[simp] theorem setLocked_entries (s : Memory ι κ) (i : ι) (b : Bool) :
    (s.setLocked i b).entries = s.entries := rfl

@[simp] theorem setLocked_locked (s : Memory ι κ) (i : ι) (b : Bool) :
    (s.setLocked i b).locked = Function.update s.locked i b := rfl

@[simp] theorem setLocked_setLocked (s : Memory ι κ) (i : ι) (b c : Bool) :
    (s.setLocked i b).setLocked i c = s.setLocked i c := by
  simp [setLocked]

theorem setEntries_setLocked (s : Memory ι κ) (i : ι) (b : Bool)
    (entries : Table RegistryEntry.key) :
    (s.setLocked i b).setEntries i entries = (s.setEntries i entries).setLocked i b := rfl

/-- Writing the value that the lock already has changes nothing. -/
theorem setLocked_eq_self {s : Memory ι κ} {i : ι} {b : Bool} (h : s.locked i = b) :
    s.setLocked i b = s := by
  unfold setLocked
  rw [← h, Function.update_eq_self]

end Entries

end Memory

/-- What an operation awaits: a lock, `InMemoryRegistryStore.save`, the
statement, the commit and the end of a session of `SqlRegistryStore.save`,
`load_subject_type`, and `AuditSink.append`. -/
inductive Question (ι : Type) where
  | acquire (i : ι)
  | save
  | execute
  | commit
  | close
  | load
  | append (event : AuditEvent)

/-- How an access to a store ends. -/
inductive Stored where
  | returned
  | raised
deriving DecidableEq, Repr

/-- A session ends without an error. -/
@[reducible] def Answer {ι : Type} : Question ι → Type
  | .acquire _ => Unit
  | .close => Unit
  | .append _ => Appended
  | _ => Stored

/-- One coroutine of a registry. -/
abbrev Op (ι κ α : Type) := Proc (Memory ι κ) (Question ι) Answer RegistryError α

/-- The locks of the registries. -/
def locks (ι κ : Type) [DecidableEq ι] : Locks (Memory ι κ) (Question ι) ι where
  isLocked := Memory.locked
  set := Memory.setLocked
  acquire := .acquire

/-! ## The stores -/

section Stores

variable {ι κ : Type} [DecidableEq κ]

/-- A store call that raises ends the coroutine, before anything after it runs. -/
def settle : Stored → Op ι κ Unit
  | .returned => pure ()
  | .raised => .raise .store

/-- A store that may fail: then it is left unchanged. -/
def InMemoryRegistryStore.save (k : κ) (entry : RegistryEntry) : Op ι κ Unit := do
  settle (← .ask .save)
  .modify (·.putRow k entry)

/-- The update that a session emits for a changed record: of the four columns
that are assigned it sets those whose value differs from the one selected. -/
def RegistryEntry.updated (row selected entry : RegistryEntry) : RegistryEntry :=
  { row with
    state := if entry.state = selected.state then row.state else entry.state
    correlationId :=
      if entry.correlationId = selected.correlationId then row.correlationId
      else entry.correlationId
    decisionId :=
      if entry.decisionId = selected.decisionId then row.decisionId else entry.decisionId
    releaseId := if entry.releaseId = selected.releaseId then row.releaseId else entry.releaseId }

/-- What a commit writes: the new row, which `uq_registry_definition_version`
refuses when there is one by now, or the update of the selected row. -/
def flush (k : κ) (entry : RegistryEntry) (record : Option RegistryEntry) : Op ι κ Unit := do
  let s ← .get
  match record, (s.rows k).get? entry.storeKey with
  | none, none => .modify (·.putRow k entry)
  | some selected, some row => .modify (·.putRow k (row.updated selected entry))
  | _, _ => .raise .store

/-- Selects the row of the entry's key, then inserts it or updates four columns of it; the commit
is awaited in between. -/
def SqlRegistryStore.save (k : κ) (entry : RegistryEntry) : Op ι κ Unit := do
  settle (← .ask .execute)
  let s ← .get
  -- the row is selected before the commit is awaited
  let record := (s.rows k).get? entry.storeKey
  settle (← .ask .commit)
  flush k entry record
  Proc.ask Question.close

end Stores

/-! ## The operations -/

section Operations

variable {ι κ : Type} [DecidableEq ι] [DecidableEq κ] (x : Registries ι κ) (i : ι)

/-- `self._store.save(entry)`, by the store this registry was built with. -/
def save (entry : RegistryEntry) : Op ι κ Unit :=
  match x.store (x.registry i).store with
  | .inMemory => InMemoryRegistryStore.save (x.registry i).store entry
  | .sql => SqlRegistryStore.save (x.registry i).store entry

/-- `_digest`: the hash of the canonical JSON of the payload. -/
def digest (payload : Json.Fields) : String := x.sha256 (Json.dumps (.obj payload))

/-- One field of `_require_matching_context`. -/
def requireMatchingField (payload : Json.Fields) (field value : String) :
    Except RegistryError Unit :=
  match payload.get? field with
  | none | some .null => .ok ()
  | some supplied =>
      if Py.str x.repr supplied = value then .ok ()
      else .error (.conflict s!"{field} does not match authority context")

/-- `_require_matching_context`: the payload names the context it is registered in, field by field.
-/
def requireMatchingContext (payload : Json.Fields) (tenantId organizationId workspaceId : String) :
    Except RegistryError Unit := do
  requireMatchingField x payload "tenant_id" tenantId
  requireMatchingField x payload "organization_id" organizationId
  requireMatchingField x payload "workspace_id" workspaceId

/-- `str(payload[field])`. -/
def textField (payload : Json.Fields) (field : String) : Except RegistryError String :=
  match payload.get? field with
  | none => .error (.missing field)
  | some value => .ok (Py.str x.repr value)

/-- What `register` computes before it takes the lock: the entry it registers
if there is none yet. -/
def prepare (payload : Json.Fields)
    (tenantId organizationId workspaceId actorId correlationId : String) (now : Datetime) :
    Except RegistryError RegistryEntry := do
  let r := x.registry i
  let validated ← (x.contracts.validate r.schemaId payload).mapError .contract
  requireMatchingContext x validated tenantId organizationId workspaceId
  let subjectId ← textField x validated r.idField
  let version ← textField x validated r.versionField
  return {
    subjectType := r.subjectType
    subjectId := subjectId
    version := version
    tenantId := tenantId
    organizationId := organizationId
    workspaceId := workspaceId
    payload := validated
    digest := digest x validated
    state := .draft
    createdBy := actorId
    correlationId := correlationId
    createdAt := now }

/-- The audit event of one change of an entry. -/
def auditEvent (entry : RegistryEntry) (actorId eventType outcome : String) : AuditEvent where
  eventType := eventType
  entityType := entry.subjectType
  entityId := entry.subjectId
  tenantId := entry.tenantId
  organizationId := entry.organizationId
  workspaceId := entry.workspaceId
  actorId := actorId
  correlationId := entry.correlationId
  outcome := outcome
  metadata := [("version", .str entry.version), ("digest", .str entry.digest)]

/-- An append that raises ends the call; what was stored before it stays. -/
def settleAppend : Appended → Op ι κ Unit
  | .returned => pure ()
  | .raised => .raise .audit

/-- `_record`. -/
def record (entry : RegistryEntry) (actorId eventType outcome : String) : Op ι κ Unit := do
  settleAppend (← .ask (.append (auditEvent entry actorId eventType outcome)))

/-- A `return` inside the lock ends the call at once. -/
inductive Locked where
  | found (existing : RegistryEntry)
  | stored (entry : RegistryEntry)

/-- `register`: a version is either new, registered again with the same digest, or refused. -/
def register (payload : Json.Fields)
    (tenantId organizationId workspaceId actorId correlationId : String) (now : Datetime) :
    Op ι κ RegistryEntry := do
  let entry ← .ofExcept
    (prepare x i payload tenantId organizationId workspaceId actorId correlationId now)
  let locked ← (locks ι κ).withLock i do
    let s ← .get
    match (s.entries i).get? entry.key with
    | some existing =>
        -- the same definition again is no conflict
        if existing.digest = entry.digest then pure (.found existing)
        else .raise (.conflict "immutable registry version already exists")
    | none =>
        save x i entry
        .modify (·.putEntry i entry)
        pure (Locked.stored entry)
  match locked with
  | .found existing => pure existing
  | .stored entry =>
      record entry actorId "registry.version.created" "DRAFT"
      pure entry

/-- The entry that `_transition` saves: an id that is not given keeps its old value. -/
def transitioned (current : RegistryEntry) (target : RegistryState) (correlationId : String)
    (decisionId releaseId : Option String) : RegistryEntry :=
  { current with
    state := target
    correlationId := correlationId
    decisionId := Py.orElse decisionId current.decisionId
    releaseId := Py.orElse releaseId current.releaseId }

/-- `_transition`; every caller expects one state. -/
def transition (key : RegistryKey) (expected target : RegistryState) (correlationId : String)
    (decisionId releaseId : Option String := none) : Op ι κ RegistryEntry :=
  (locks ι κ).withLock i do
    let s ← .get
    match (s.entries i).get? key with
    | none => .raise (.notFound "registry version was not found in tenant workspace")
    | some current =>
        if current.state ≠ expected then
          .raise (.conflict s!"cannot transition {current.state.value} to {target.value}")
        else do
          let updated := transitioned current target correlationId decisionId releaseId
          save x i updated
          .modify (·.putEntry i updated)
          pure updated

/-- `approve`: from DRAFT, on a decision of a human authority only. -/
def approve (key : RegistryKey) (actorId decisionId authority correlationId : String) :
    Op ι κ RegistryEntry :=
  match DecisionAuthority.ofString authority with
  | none => .raise (.conflict "AI recommendation cannot approve a registry version")
  | some resolvedAuthority => do
      let entry ← transition x i key .draft .approved correlationId (some decisionId)
      record entry actorId "registry.version.approved" resolvedAuthority.value
      pure entry

/-- `activate`: from APPROVED to ACTIVE, with the id of the release. -/
def activate (key : RegistryKey) (actorId releaseId correlationId : String) :
    Op ι κ RegistryEntry := do
  let entry ← transition x i key .approved .active correlationId none (some releaseId)
  record entry actorId "registry.version.activated" "ACTIVE"
  pure entry

/-- `suspend`: from ACTIVE only. -/
def suspend (key : RegistryKey) (actorId correlationId : String) : Op ι κ RegistryEntry := do
  let entry ← transition x i key .active .suspended correlationId
  record entry actorId "registry.version.suspended" "SUSPENDED"
  pure entry

/-- `hydrate`: replaces the cache by the rows of the store, which are read before the lock is
taken. -/
def hydrate : Op ι κ Unit := do
  let r := x.registry i
  settle (← .ask .load)
  let s ← .get
  -- the rows are read before the lock is awaited
  let loaded := s.load r.store r.subjectType
  (locks ι κ).withLock i (.modify (·.setEntries i (.ofList loaded)))

end Operations

/-- A call of an operation of the registry `i`. -/
inductive Call (ι : Type) where
  | register (i : ι) (payload : Json.Fields)
      (tenantId organizationId workspaceId actorId correlationId : String) (now : Datetime)
  | approve (i : ι) (key : RegistryKey) (actorId decisionId authority correlationId : String)
  | activate (i : ι) (key : RegistryKey) (actorId releaseId correlationId : String)
  | suspend (i : ι) (key : RegistryKey) (actorId correlationId : String)
  | hydrate (i : ι)

namespace Call

variable {ι κ : Type} [DecidableEq ι] [DecidableEq κ]

/-- The registry a call is made on. -/
def registry : Call ι → ι
  | .register i .. => i
  | .approve i .. => i
  | .activate i .. => i
  | .suspend i .. => i
  | .hydrate i => i

/-- The operation of a call; `hydrate` returns no entry. -/
def prog (x : Registries ι κ) : Call ι → Op ι κ (Option RegistryEntry)
  | .register i payload tenantId organizationId workspaceId actorId correlationId now =>
      some <$> Registry.register x i payload tenantId organizationId workspaceId actorId
        correlationId now
  | .approve i key actorId decisionId authority correlationId =>
      some <$> Registry.approve x i key actorId decisionId authority correlationId
  | .activate i key actorId releaseId correlationId =>
      some <$> Registry.activate x i key actorId releaseId correlationId
  | .suspend i key actorId correlationId =>
      some <$> Registry.suspend x i key actorId correlationId
  | .hydrate i => (fun _ => none) <$> Registry.hydrate x i

end Call

end Alos.Registry
