import Alos.Agents.Runs

/-! # The stores of agent runs

`InMemoryAgentRunStore` of `alos.agents.lifecycle.runs`, whose lock is never
held across an await, and `SqlAgentRunStore` of `alos.agents.lifecycle.repository`,
whose accesses are steps of the database. A row has no column for the skills of
a run: `fromRow` takes them from the request.
-/

namespace Alos.Agents

open Coop Py

/-- `_runs`. -/
abbrev Runs := Table AuthoritativeRunRecord.runId

/-- The error for a run id that is taken. -/
def alreadyExists : RunError := denied "run_id already exists"

/-- The error for a run that is not stored. -/
def notFound : RunError := denied "authoritative run was not found"

/-- The store in memory: records under their ids. -/
def inMemoryAgentRunStore : AgentRunStore Runs where
  create record := do
    let runs ← .get
    if (runs.get? record.runId).isSome then .raise alreadyExists
    else .modify fun runs => runs.put record
  update record := do
    let runs ← .get
    if (runs.get? record.runId).isNone then .raise notFound
    else .modify fun runs => runs.put record
  get runId := do
    let runs ← .get
    match runs.get? runId with
    | none => .raise notFound
    | some record => pure record

/-- A row of `agent_runs`; `payload` columns hold JSON. -/
structure AgentRunRow where
  runId : String
  rootRunId : String
  parentRunId : Option String
  tenantId : String
  organizationId : String
  workspaceId : String
  actorId : String
  correlationId : String
  agentId : String
  agentVersion : String
  capabilityId : String
  status : String
  registryDigest : String
  lifecycleAuthorization : String
  authorizedToolIds : List Json
  requestPayload : Json.Fields
  resultPayload : Option Json.Fields
  createdAt : Datetime
  completedAt : Option Datetime

/-- The table of rows of the other store. -/
abbrev Rows := Table AgentRunRow.runId

/-- `_to_row`. -/
def toRow (repr : Json → String) (record : AuthoritativeRunRecord) : AgentRunRow where
  runId := record.runId
  rootRunId := record.rootRunId
  parentRunId :=
    match record.request.get? "parent_run_id" with
    | none | some .null => none
    | some parentRunId => some (str repr parentRunId)
  tenantId := record.tenantId
  organizationId := record.organizationId
  workspaceId := record.workspaceId
  actorId := record.actorId
  correlationId := record.correlationId
  agentId := record.agentId
  agentVersion := record.agentVersion
  capabilityId := record.capabilityId
  status := record.status.value
  registryDigest := record.registryDigest
  lifecycleAuthorization := record.lifecycleAuthorization
  authorizedToolIds := record.authorizedToolIds
  requestPayload := record.request
  resultPayload := record.result
  createdAt := record.createdAt
  completedAt := record.completedAt

/-- `_from_row`. A status that is none is a `ValueError`, which is the
database's fault. -/
def fromRow (repr : Json → String) (row : AgentRunRow) :
    Except RunError AuthoritativeRunRecord := do
  let refs ← ((← (items row.requestPayload "authorized_skill_refs").mapError .access).mapM
    (SkillRef.ofJson repr)).mapError .access
  match AuthoritativeRunStatus.ofString row.status with
  | none => throw .store
  | some status =>
      return {
        runId := row.runId
        rootRunId := row.rootRunId
        tenantId := row.tenantId
        organizationId := row.organizationId
        workspaceId := row.workspaceId
        actorId := row.actorId
        correlationId := row.correlationId
        agentId := row.agentId
        agentVersion := row.agentVersion
        capabilityId := row.capabilityId
        status := status
        registryDigest := row.registryDigest
        lifecycleAuthorization := row.lifecycleAuthorization
        authorizedToolIds := row.authorizedToolIds
        authorizedSkillRefs := refs
        request := row.requestPayload
        createdAt := row.createdAt
        completedAt := row.completedAt
        result := row.resultPayload }

/-- What a record that is read says of its row. -/
theorem fromRow_ok {repr : Json → String} {row : AgentRunRow} {record : AuthoritativeRunRecord}
    (h : fromRow repr row = .ok record) :
    record.runId = row.runId ∧ row.status = record.status.value := by
  simp only [fromRow, Except.bind_eq_ok] at h
  obtain ⟨values, -, refs, -, h⟩ := h
  split at h
  · cases h
  · rename_i status hstatus
    cases h
    exact ⟨rfl, AuthoritativeRunStatus.value_of_ofString hstatus⟩

/-- The three columns that an update writes. -/
def AgentRunRow.updated (row : AgentRunRow) (record : AuthoritativeRunRecord) : AgentRunRow :=
  { row with
    status := record.status.value
    resultPayload := record.result
    completedAt := record.completedAt }

/-- An insert is refused by the primary key when there is a row by then; an
update is one step. -/
def sqlAgentRunStore (repr : Json → String) : AgentRunStore Rows where
  create record := do
    settle (← .ask (.select record.runId))
    let rows ← .get
    if (rows.get? record.runId).isSome then .raise alreadyExists
    else do
      settle (← .ask (.insert record.runId))
      let rows ← .get
      if (rows.get? record.runId).isSome then .raise .store
      else .modify fun rows => rows.put (toRow repr record)
  update record := do
    settle (← .ask (.update record.runId))
    let rows ← .get
    match rows.get? record.runId with
    | none => .raise notFound
    | some row => .modify fun rows => rows.put (row.updated record)
  get runId := do
    settle (← .ask (.select runId))
    let rows ← .get
    match rows.get? runId with
    | none => .raise notFound
    | some row => .ofExcept (fromRow repr row)

/-! ## Either store -/

inductive Backend where
  | inMemory
  | sql
deriving DecidableEq, Repr

namespace Backend

/-- What each of the stores has. -/
abbrev State : Backend → Type
  | .inMemory => Runs
  | .sql => Rows

/-- The two stores behind one interface. -/
def store (repr : Json → String) : (b : Backend) → AgentRunStore b.State
  | .inMemory => inMemoryAgentRunStore
  | .sql => sqlAgentRunStore repr

/-- No run is stored. -/
def empty : (b : Backend) → b.State
  | .inMemory => Table.empty
  | .sql => Table.empty

/-- The record is stored under its run. -/
def Holds (repr : Json → String) (record : AuthoritativeRunRecord) : (b : Backend) → b.State → Prop
  | .inMemory, runs => runs.get? record.runId = some record
  | .sql, rows => rows.get? record.runId = some (toRow repr record)

/-- No record is stored under the run. -/
def Lacks (runId : String) : (b : Backend) → b.State → Prop
  | .inMemory, runs => runs.get? runId = none
  | .sql, rows => rows.get? runId = none

end Backend

/-- The call appends to the audit log. -/
def Question.IsAppend : Question → Prop
  | .append _ => True
  | _ => False

/-- How the creation of a record ends: it has appended nothing, and it has stored
the record, or nothing. -/
structure Creates (repr : Json → String) (record : AuthoritativeRunRecord) (b : Backend)
    (s : b.State) (f : Proc.Finished b.State Question Answer RunError Unit) : Prop where
  quiet : ∀ y ∈ f.log, ¬ y.1.IsAppend
  refused : ∀ e, f.result = .error e → f.state = s
  stored : ∀ u, f.result = .ok u → b.Holds repr record f.state

theorem Creates.of_error {repr : Json → String} {record : AuthoritativeRunRecord} {b : Backend}
    {s : b.State} (e : RunError) (log : List (Exchange Question Answer))
    (hquiet : ∀ y ∈ log, ¬ y.1.IsAppend) : Creates repr record b s ⟨s, .error e, log⟩ where
  quiet := hquiet
  refused := by
    intro e' he
    rfl
  stored := by
    intro u hu
    cases hu

theorem Creates.of_stored {repr : Json → String} {record : AuthoritativeRunRecord} {b : Backend}
    {s s' : b.State} (log : List (Exchange Question Answer))
    (hquiet : ∀ y ∈ log, ¬ y.1.IsAppend) (h : b.Holds repr record s') :
    Creates repr record b s ⟨s', .ok (), log⟩ where
  quiet := hquiet
  refused := by
    intro e he
    cases he
  stored := by
    intro u hu
    exact h

/-- On both stores a creation stores the record and appends nothing, or raises and leaves
everything as it is. -/
theorem create_creates (repr : Json → String) (record : AuthoritativeRunRecord) (b : Backend)
    (env : Env Question Answer) (s : b.State) :
    Creates repr record b s (((b.store repr).create record).alone env s) := by
  cases b with
  | inMemory =>
      change Runs at s
      change Creates repr record .inMemory s ((Proc.alone (.read fun runs : Runs =>
        if (runs.get? record.runId).isSome then Proc.raise alreadyExists
        else Proc.modify fun runs => runs.put record) env s))
      rw [Proc.alone]
      split
      · exact .of_error _ [] (by simp)
      · exact .of_stored [] (by simp) (Table.get?_put_self ..)
  | sql =>
      -- the row is looked for, and then inserted
      change Rows at s
      change Creates repr record .sql s ((Proc.alone (.await (.select record.runId) _) env s))
      rw [Proc.alone]
      cases hselect : env 0 (.select record.runId) with
      | raised => exact .of_error _ [_] (by simp [Question.IsAppend])
      | returned =>
          simp only [settle, Proc.pure_def, Proc.bind_def, Proc.ret_bind, Proc.get_bind, Proc.alone]
          split
          · exact .of_error _ [_] (by simp [Question.IsAppend])
          · cases hinsert : env 1 (.insert record.runId) with
            | raised =>
                simp only [Proc.ask, Proc.bind, Proc.alone, hinsert]
                exact .of_error _ [_, _] (by simp [Question.IsAppend])
            | returned =>
                simp only [Proc.ask, Proc.bind, Proc.ret_bind, Proc.alone, hinsert]
                split
                · exact .of_error _ [_, _] (by simp [Question.IsAppend])
                · exact .of_stored [_, _] (by simp [Question.IsAppend]) (Table.get?_put_self ..)

end Alos.Agents
