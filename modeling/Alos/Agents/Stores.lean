import Alos.Agents.Authority
import Alos.Coop.Alike

/-! # Sequential runs over either store

The calls of an authority, one after the other, over the store in memory and
over the database.

* `Mirrors` relates the two: the rows are those of the records, and every record
  is the one that its row is read as;
* `call_alike`: one call keeps the relation and has one result;
* `same_runs`: so has every run of calls.

The database does what it is asked, only the audit sink may fail.
-/

namespace Alos.Agents

open Coop Py Registry

/-- A call of the authority, with the skills of its registry. -/
inductive Call where
  | beginRun (skills : Option (Table RegistryEntry.key)) (payload : Json.Fields)
      (agent : RegistryEntry) (now : Datetime)
  | complete (payload : Json.Fields) (now : Datetime)
  | get (runId : String)
  | runtimeAuthorization (runId : String)

inductive Reply where
  | record (record : AuthoritativeRunRecord)
  | authorization (fields : Json.Fields)

def Call.prog {σ : Type} (x : AgentRunAuthority) (store : AgentRunStore σ) : Call → Op σ Reply
  | .beginRun skills payload agent now =>
      (Agents.beginRun x store skills payload agent now).bind fun record => .ret (.record record)
  | .complete payload now =>
      (Agents.complete x store payload now).bind fun record => .ret (.record record)
  | .get runId => (Agents.get store runId).bind fun record => .ret (.record record)
  | .runtimeAuthorization runId =>
      (Agents.runtimeAuthorization store runId).bind fun fields => .ret (.authorization fields)

/-- The answers to a call: the steps of the database return. -/
def served (appended : Appended) : (q : Question) → Answer q
  | .append _ => appended
  | .select _ | .insert _ | .update _ => .returned

section Runs

variable (x : AgentRunAuthority) (b : Backend)

/-- One call, run to its end. -/
def perform (s : b.State) (y : Call × Appended) :
    Proc.Finished b.State Question Answer RunError Reply :=
  (y.1.prog x (b.store x.repr)).alone (fun _ => served y.2) s

/-- The store after calls that are made one after the other, and their results;
it starts empty. -/
def performAll (ys : List (Call × Appended)) : b.State × List (Except RunError Reply) :=
  ys.foldl (fun done y => ((perform x b done.1 y).state, done.2 ++ [(perform x b done.1 y).result]))
    (b.empty, [])

theorem performAll_snoc (ys : List (Call × Appended)) (y : Call × Appended) :
    performAll x b (ys ++ [y]) = ((perform x b (performAll x b ys).1 y).state,
      (performAll x b ys).2 ++ [(perform x b (performAll x b ys).1 y).result]) := by
  simp [performAll]

end Runs

/-! ## Records and rows -/

/-- The request of the record names its skills. -/
def NamesSkills (record : AuthoritativeRunRecord) : Prop :=
  record.request.get? "authorized_skill_refs" =
    some (.arr (record.authorizedSkillRefs.map SkillRef.toJson))

theorem readRefs_toJson (repr : Json → String) (refs : List SkillRef) :
    (refs.map SkillRef.toJson).mapM (SkillRef.ofJson repr) = .ok refs := by
  rw [Except.mapM_eq_ok, List.forall₂_map_left_iff, List.forall₂_same]
  intro ref href
  exact SkillRef.ofJson_toJson repr ref

/-- A row is read as the record that it was written from. -/
theorem fromRow_toRow (repr : Json → String) {record : AuthoritativeRunRecord}
    (h : NamesSkills record) : fromRow repr (toRow repr record) = .ok record := by
  have hitems : items (toRow repr record).requestPayload "authorized_skill_refs" =
      .ok (record.authorizedSkillRefs.map SkillRef.toJson) := by
    unfold items toRow
    rw [h]
    rfl
  have hstatus : AuthoritativeRunStatus.ofString (toRow repr record).status = some record.status :=
    AuthoritativeRunStatus.ofString_value _
  unfold fromRow
  rw [hitems]
  simp only [Except.mapError, bind, Except.bind, readRefs_toJson, hstatus]
  rfl

/-- The rows are those of the records. -/
structure Mirrors (repr : Json → String) (runs : Runs) (rows : Rows) : Prop where
  values : rows.values = runs.values.map (toRow repr)
  named : ∀ record ∈ runs.values, NamesSkills record

section Mirrors

variable {repr : Json → String} {runs : Runs} {rows : Rows}

theorem Mirrors.get? (h : Mirrors repr runs rows) (runId : String) :
    rows.get? runId = (runs.get? runId).map (toRow repr) := by
  unfold Table.get?
  rw [h.values, List.find?_map]
  rfl

theorem Mirrors.put (h : Mirrors repr runs rows) {record : AuthoritativeRunRecord}
    (hrecord : NamesSkills record) : Mirrors repr (runs.put record) (rows.put (toRow repr record)) where
  values := by
    rw [Table.put_values, Table.put_values, h.values]
    have hmap := @assign_map _ _ _ AuthoritativeRunRecord.runId record _ AgentRunRow.runId
      (toRow repr) (fun _ => rfl) runs.values
    exact hmap.symm
  named := by
    intro record' hmem
    rcases Table.mem_put.1 hmem with rfl | ⟨hmem, -⟩
    · exact hrecord
    · exact h.named record' hmem

/-! ## The operations of the stores -/

theorem Mirrors.create (h : Mirrors repr runs rows) {record : AuthoritativeRunRecord}
    (hrecord : NamesSkills record) (a : Appended) :
    Alike (Mirrors repr) (served a) (inMemoryAgentRunStore.create record) runs
      ((sqlAgentRunStore repr).create record) rows := by
  have hsome : (rows.get? record.runId).isSome = (runs.get? record.runId).isSome := by
    rw [h.get?, Option.isSome_map]
  refine .await_right (.read ?_)
  change Alike _ _ (if (runs.get? record.runId).isSome then _ else _) _
    (if (rows.get? record.runId).isSome then _ else _) _
  rw [hsome]
  by_cases hexists : (runs.get? record.runId).isSome = true
  · rw [if_pos hexists, if_pos hexists]
    exact .raise h _
  · rw [if_neg hexists, if_neg hexists]
    -- the row is still missing when it is inserted
    refine .await_right (.read_right ?_)
    change Alike _ _ _ _ (if (rows.get? record.runId).isSome then _ else Proc.modify _) _
    rw [hsome, if_neg hexists]
    exact .read (.write (.ret (h.put hrecord) ()))

theorem Mirrors.read (h : Mirrors repr runs rows) (runId : String) (a : Appended) :
    Alike (Mirrors repr) (served a) (inMemoryAgentRunStore.get runId) runs
      ((sqlAgentRunStore repr).get runId) rows := by
  refine .await_right (.read ?_)
  simp only [Proc.ret_bind]
  rw [h.get?]
  cases hget : runs.get? runId with
  | none => exact .raise h _
  | some record =>
      change Alike _ _ _ _ (Proc.ofExcept (fromRow repr (toRow repr record))) _
      rw [fromRow_toRow repr (h.named record (Table.mem_of_get? hget))]
      exact .ret h record

/-- A read leaves both stores as they are, and returns the record. -/
theorem inMemory_get (runs : Runs) (runId : String) (env : Env Question Answer) :
    (inMemoryAgentRunStore.get runId).alone env runs =
      ⟨runs, match runs.get? runId with | none => .error notFound | some record => .ok record, []⟩ := by
  simp only [inMemoryAgentRunStore, Proc.bind_def, Proc.pure_def, Proc.get_bind, Proc.alone]
  cases runs.get? runId <;> rfl

theorem sql_get (repr : Json → String) (rows : Rows) (runId : String) (a : Appended) :
    (((sqlAgentRunStore repr).get runId).alone (fun _ => served a) rows).state = rows := by
  simp only [sqlAgentRunStore, Proc.bind_def, Proc.pure_def, Proc.ask_bind, Proc.get_bind,
    Proc.ret_bind, Proc.alone, served, settle]
  cases rows.get? runId with
  | none => rfl
  | some row => exact Proc.alone_ofExcept_state ..

theorem Mirrors.update (h : Mirrors repr runs rows) {current updated : AuthoritativeRunRecord}
    (hget : runs.get? updated.runId = some current) (hrecord : NamesSkills updated)
    (hupdated : (toRow repr current).updated updated = toRow repr updated) (a : Appended) :
    Alike (Mirrors repr) (served a) (inMemoryAgentRunStore.update updated) runs
      ((sqlAgentRunStore repr).update updated) rows := by
  refine .await_right (.read ?_)
  simp only [Proc.ret_bind]
  rw [h.get?, hget]
  refine .read (.write ?_)
  rw [hupdated]
  exact .ret (h.put hrecord) ()

end Mirrors

/-! ## The calls -/

section Calls

variable {x : AgentRunAuthority} {runs : Runs} {rows : Rows}

theorem recordEvent_alike (h : Mirrors x.repr runs rows) (record : AuthoritativeRunRecord)
    (eventType : String) (a : Appended) :
    Alike (Mirrors x.repr) (served a) (recordEvent record eventType) runs
      (recordEvent record eventType) rows := by
  refine .await ?_
  cases a with
  | returned => exact .ret h ()
  | raised => exact .raise h _

/-- An event is recorded, and the record is returned. -/
theorem recorded_alike (h : Mirrors x.repr runs rows) (record : AuthoritativeRunRecord)
    (eventType : String) (a : Appended) :
    Alike (Mirrors x.repr) (served a)
      ((recordEvent record eventType).bind fun _ => .ret record) runs
      ((recordEvent record eventType).bind fun _ => .ret record) rows := by
  have hrecorded := recordEvent_alike h record eventType a
  exact hrecorded.bind fun _ _ => .ret hrecorded.state record

theorem begin_alike (h : Mirrors x.repr runs rows) (skills : Option (Table RegistryEntry.key))
    (payload : Json.Fields) (agent : RegistryEntry) (now : Datetime) (a : Appended) :
    Alike (Mirrors x.repr) (served a)
      (beginRun x inMemoryAgentRunStore skills payload agent now) runs
      (beginRun x (sqlAgentRunStore x.repr) skills payload agent now) rows := by
  unfold beginRun
  cases hprepare : prepare x skills payload agent now with
  | error e => exact .raise h e
  | ok record =>
      obtain ⟨request, context, -, -, hauthorized⟩ := authorized_of_prepare hprepare
      have hcreated := h.create hauthorized.stored a
      exact hcreated.bind fun _ _ => recorded_alike hcreated.state record _ a

/-- What a result makes of a record keeps its request and its skills, and differs
from it in the columns that an update writes. -/
theorem update_keeps {current updated : AuthoritativeRunRecord} {result : Json.Fields}
    {now : Datetime} (h : Completes x current result now updated) (hnamed : NamesSkills current) :
    NamesSkills updated ∧ updated.runId = current.runId ∧
      (toRow x.repr current).updated updated = toRow x.repr updated := by
  rw [h.updated]
  exact ⟨hnamed, rfl, rfl⟩

theorem complete_alike (h : Mirrors x.repr runs rows) (payload : Json.Fields) (now : Datetime)
    (a : Appended) :
    Alike (Mirrors x.repr) (served a) (complete x inMemoryAgentRunStore payload now) runs
      (complete x (sqlAgentRunStore x.repr) payload now) rows := by
  unfold complete
  cases hreported : reported x payload with
  | error e => exact .raise h e
  | ok found =>
      rcases found with ⟨result, runId⟩
      refine (h.read runId a).bind ?_
      intro current hcurrent
      rw [inMemory_get] at hcurrent
      rw [inMemory_get, sql_get]
      have hget : runs.get? runId = some current := by
        cases hfound : runs.get? runId with
        | none => simp [hfound] at hcurrent
        | some record => simpa [hfound] using hcurrent
      cases hcompleted : completed x current result now with
      | error e => exact .raise h e
      | ok updated =>
          obtain ⟨hnamed, hrunId, hcolumns⟩ := update_keeps (completed_ok x hcompleted)
            (h.named current (Table.mem_of_get? hget))
          -- a result does not change the id of its run
          have hrow : runs.get? updated.runId = some current := by
            rw [hrunId, Table.key_of_get? hget]
            exact hget
          have hupdated := h.update hrow hnamed hcolumns a
          exact hupdated.bind fun _ _ => recorded_alike hupdated.state updated _ a

theorem runtimeAuthorization_alike (h : Mirrors x.repr runs rows) (runId : String)
    (a : Appended) :
    Alike (Mirrors x.repr) (served a) (runtimeAuthorization inMemoryAgentRunStore runId) runs
      (runtimeAuthorization (sqlAgentRunStore x.repr) runId) rows := by
  refine (h.read runId a).bind ?_
  intro record hrecord
  rw [inMemory_get, sql_get]
  have hraise : Alike (Mirrors x.repr) (served a) (.raiseIf (record.status ≠ .running)
      (denied "only a running record can be authorized")) runs (.raiseIf (record.status ≠ .running)
      (denied "only a running record can be authorized")) rows := .raiseIf h _ _
  exact hraise.bind fun _ _ => .ret hraise.state _

/-- One call, over both stores. -/
theorem call_alike (h : Mirrors x.repr runs rows) (c : Call) (a : Appended) :
    Alike (Mirrors x.repr) (served a) (c.prog x inMemoryAgentRunStore) runs
      (c.prog x (sqlAgentRunStore x.repr)) rows := by
  -- each call is answered alike over both stores
  cases c with
  | beginRun skills payload agent now =>
      have hbegin := begin_alike h skills payload agent now a
      exact hbegin.bind fun record _ => .ret hbegin.state _
  | complete payload now =>
      have hcomplete := complete_alike h payload now a
      exact hcomplete.bind fun record _ => .ret hcomplete.state _
  | get runId =>
      have hget := h.read runId a
      exact hget.bind fun record _ => .ret hget.state _
  | runtimeAuthorization runId =>
      have hauthorization := runtimeAuthorization_alike h runId a
      exact hauthorization.bind fun fields _ => .ret hauthorization.state _

end Calls

/-! ## Every run -/

/-- The calls have the same results over both stores, the rows are those of the
records, and every record is what its row is read as. -/
structure SameRuns (x : AgentRunAuthority) (ys : List (Call × Appended)) : Prop where
  results : (performAll x .sql ys).2 = (performAll x .inMemory ys).2
  rows : (performAll x .sql ys).1.values =
    (performAll x .inMemory ys).1.values.map (toRow x.repr)
  readBack : ∀ record ∈ (performAll x .inMemory ys).1.values,
    fromRow x.repr (toRow x.repr record) = .ok record

theorem performAll_mirrors (x : AgentRunAuthority) (ys : List (Call × Appended)) :
    (performAll x .sql ys).2 = (performAll x .inMemory ys).2 ∧
      Mirrors x.repr (performAll x .inMemory ys).1 (performAll x .sql ys).1 := by
  induction ys using List.reverseRecOn with
  | nil =>
      refine ⟨rfl, rfl, ?_⟩
      intro record hmem
      cases hmem
  | append_singleton ys y ih =>
      obtain ⟨hresults, hmirrors⟩ := ih
      have halike := call_alike hmirrors y.1 y.2
      rw [performAll_snoc, performAll_snoc]
      refine ⟨?_, halike.state⟩
      rw [hresults]
      exact congrArg (fun result => (performAll x .inMemory ys).2 ++ [result]) halike.result

theorem same_runs (x : AgentRunAuthority) (ys : List (Call × Appended)) : SameRuns x ys := by
  obtain ⟨hresults, hmirrors⟩ := performAll_mirrors x ys
  constructor
  · exact hresults
  · exact hmirrors.values
  · intro record hmem
    exact fromRow_toRow x.repr (hmirrors.named record hmem)

end Alos.Agents
