import Alos.Agents.Authority
import Alos.Coop.Since

/-! # Results that race for one run

`complete` reads the record of a run and stores the completed one in two steps of
the database, and the second does not look at the status again.

* `Fresh` forbids that a call stores when another call has stored a result of
  the same run since it started;
* `settled_once`: then at most one call on a run returns, and the outcome of a
  run that is over stays;
* `both_completed`: two calls that overlap both return, with two outcomes.
-/

namespace Alos.Agents

open Coop Staging Py

/-- The arguments of a call of `complete`, and what the clock says. -/
structure Completion where
  payload : Json.Fields
  now : Datetime

/-- The state of a run of completions. -/
abbrev Completions := Sys Completion Rows Question Answer RunError AuthoritativeRunRecord

/-- What is recorded of one step of it. -/
abbrev CompletionLabel := Label Completion Question Answer RunError AuthoritativeRunRecord

/-- The store and the record of the steps. -/
abbrev CompletionWorld := World Completion Rows Question Answer RunError AuthoritativeRunRecord

section Stages

variable (x : AgentRunAuthority)

/-- `complete` over the SQL store. -/
def Completion.prog (c : Completion) : Op Rows AuthoritativeRunRecord :=
  complete x (sqlAgentRunStore x.repr) c.payload c.now

/-! ## Stages -/

/-- Where a call stands. -/
inductive Stage where
  | failed (e : RunError)
  | selecting (result : Json.Fields) (runId : String)
  | updating (updated : AuthoritativeRunRecord)
  | recording (updated : AuthoritativeRunRecord)
  | returned (updated : AuthoritativeRunRecord)

/-- Where the first segment of a call leads to. -/
def Completion.begun (c : Completion) : Stage :=
  match reported x c.payload with
  | .error e => .failed e
  | .ok (result, runId) => .selecting result runId

/-- The row of a run. -/
def found (rows : Rows) (runId : String) : Except RunError AgentRunRow :=
  match rows.get? runId with
  | none => .error notFound
  | some row => .ok row

/-- The record that a call stores, from the rows that it reads. -/
def Completion.prepared (c : Completion) (rows : Rows) (result : Json.Fields) (runId : String) :
    Except RunError AuthoritativeRunRecord := do
  let row ← found rows runId
  let current ← fromRow x.repr row
  completed x current result c.now

/-- The stage after the read. -/
def Completion.loaded (c : Completion) (rows : Rows) (result : Json.Fields) (runId : String) :
    Stored → Stage
  | .raised => .failed .store
  | .returned =>
      match c.prepared x rows result runId with
      | .error e => .failed e
      | .ok updated => .updating updated

/-- The rows and the stage after the update. -/
def landed (rows : Rows) (updated : AuthoritativeRunRecord) : Stored → Rows × Stage
  | .raised => (rows, .failed .store)
  | .returned =>
      match rows.get? updated.runId with
      | none => (rows, .failed notFound)
      | some row => (rows.put (row.updated updated), .recording updated)

/-- Where a completion stands when the sink has answered. -/
def recorded (updated : AuthoritativeRunRecord) : Appended → Stage
  | .returned => .returned updated
  | .raised => .failed .audit

/-- The rest of a call, once its append has been answered. -/
def afterAppend (updated : AuthoritativeRunRecord) (a : Appended) : Op Rows AuthoritativeRunRecord :=
  (settleAppend a).bind fun _ => .ret updated

/-- The update and what follows. -/
def store (updated : AuthoritativeRunRecord) (rows : Rows) : Op Rows AuthoritativeRunRecord :=
  match rows.get? updated.runId with
  | none => .raise notFound
  | some row => .read fun rows => .write (rows.put (row.updated updated))
      (.await (.append (auditEvent updated (completionEvent updated))) (afterAppend updated))

/-- The rest of a call, once its update has been answered. -/
def afterUpdate (updated : AuthoritativeRunRecord) (a : Stored) : Op Rows AuthoritativeRunRecord :=
  (settle a).bind fun _ => .read (store updated)

/-- The checks of what has been read, and what follows. -/
def Completion.check (c : Completion) (result : Json.Fields) (runId : String) (rows : Rows) :
    Op Rows AuthoritativeRunRecord :=
  match c.prepared x rows result runId with
  | .error e => .raise e
  | .ok updated => .await (.update updated.runId) (afterUpdate updated)

/-- The rest of a call, once its read has been answered. -/
def Completion.afterSelect (c : Completion) (result : Json.Fields) (runId : String) (a : Stored) :
    Op Rows AuthoritativeRunRecord :=
  (settle a).bind fun _ => .read (c.check x result runId)

/-- Completions go through the stages of `Stage`. -/
def completing :
    Staging Completion Rows Question Answer RunError AuthoritativeRunRecord Stage where
  now c
    | .failed e => .raised e
    | .selecting result runId => .awaiting (.select runId) (c.afterSelect x result runId)
    | .updating updated => .awaiting (.update updated.runId) (afterUpdate updated)
    | .recording updated =>
        .awaiting (.append (auditEvent updated (completionEvent updated))) (afterAppend updated)
    | .returned updated => .returned updated
  Begins c rows rows' st := rows' = rows ∧ st = c.begun x
  Turn c rows st y rows' st' :=
    match st, y with
    | .selecting result runId, ⟨.select _, a⟩ => rows' = rows ∧ st' = c.loaded x rows result runId a
    | .updating updated, ⟨.update _, a⟩ => (rows', st') = landed rows updated a
    | .recording updated, ⟨.append _, a⟩ => rows' = rows ∧ st' = recorded updated a
    | _, _ => False

/-- What a call does once its result has been checked. -/
theorem update_eq (updated : AuthoritativeRunRecord) :
    (((sqlAgentRunStore x.repr).update updated).bind fun _ =>
        (recordEvent updated (completionEvent updated)).bind fun _ => .ret updated) =
      .await (.update updated.runId) (afterUpdate updated) := by
  refine congrArg (Proc.await _) (funext fun a => ?_)
  cases a with
  | raised => rfl
  | returned =>
      refine congrArg Proc.read (funext fun rows => ?_)
      simp only [store, Proc.ret_bind]
      cases rows.get? updated.runId with
      | none => rfl
      | some row => rfl

/-- A completion up to its first wait. -/
theorem Completion.prog_eq (c : Completion) : c.prog x =
    match reported x c.payload with
    | .error e => .raise e
    | .ok (result, runId) => .await (.select runId) (c.afterSelect x result runId) := by
  unfold Completion.prog complete
  cases reported x c.payload with
  | error e => rfl
  | ok found =>
      rcases found with ⟨result, runId⟩
      refine congrArg (Proc.await _) (funext fun a => ?_)
      cases a with
      | raised => rfl
      | returned =>
          -- from here on what is read is what is checked
          refine congrArg Proc.read (funext fun rows => ?_)
          simp only [Completion.check, Completion.prepared, found, Proc.ret_bind]
          cases rows.get? runId with
          | none => rfl
          | some row =>
              simp only [bind, Except.bind]
              cases fromRow x.repr row with
              | error e => rfl
              | ok current =>
                  simp only [Proc.ofExcept, Proc.bind]
                  cases completed x current result c.now with
                  | error e => rfl
                  | ok updated => exact update_eq x updated

/-- The code takes the steps that the stages describe. -/
theorem completing_follows : (completing x).Follows (Completion.prog x) where
  begins := by
    intro c rows
    refine ⟨rows, c.begun x, ⟨rfl, rfl⟩, ?_⟩
    rw [Completion.prog_eq, Completion.begun]
    cases reported x c.payload <;> rfl
  turns := by
    intro c st q k hnow a rows
    cases st with
    | selecting result runId =>
        cases hnow
        refine ⟨rows, c.loaded x rows result runId a, ⟨rfl, rfl⟩, ?_⟩
        cases a with
        | raised => rfl
        | returned =>
            change (c.check x result runId rows).advance rows = _
            rw [Completion.check, Completion.loaded]
            cases c.prepared x rows result runId <;> rfl
    | updating updated =>
        cases hnow
        -- the update reads the rows again
        refine ⟨(landed rows updated a).1, (landed rows updated a).2, rfl, ?_⟩
        cases a with
        | raised => rfl
        | returned =>
            change (store updated rows).advance rows = _
            cases hget : rows.get? updated.runId <;> simp only [store, landed, hget] <;> rfl
    | recording updated =>
        cases hnow
        refine ⟨rows, recorded updated a, ⟨rfl, rfl⟩, ?_⟩
        cases a <;> rfl
    | failed e => cases hnow
    | returned updated => cases hnow

/-- What a call that stores has read: a run that is not over. -/
structure Prepared (rows : Rows) (runId : String) (updated : AuthoritativeRunRecord) : Prop where
  sameRun : updated.runId = runId
  terminal : updated.status.value ≠ "RUNNING"
  running : ∃ row, rows.get? runId = some row ∧ row.status = "RUNNING"

/-- A completion that is prepared has found the run and made the record it will store. -/
theorem prepared_ok {c : Completion} {rows : Rows} {result : Json.Fields} {runId : String}
    {updated : AuthoritativeRunRecord} (h : c.prepared x rows result runId = .ok updated) :
    Prepared rows runId updated := by
  simp only [Completion.prepared, Except.bind_eq_ok] at h
  obtain ⟨row, hfound, current, hread, hcompleted⟩ := h
  -- the run was selected
  have hget : rows.get? runId = some row := by
    unfold found at hfound
    split at hfound
    · cases hfound
    · cases hfound
      assumption
  obtain ⟨hrunId, hstatus⟩ := fromRow_ok hread
  have hcompletes := completed_ok x hcompleted
  have hrecord : updated.runId = current.runId := by
    rw [hcompletes.updated]
  constructor
  · rw [hrecord, hrunId]
    exact Table.key_of_get? hget
  -- no result leads back to RUNNING
  · have hterminal := target_ne_running x hcompletes.reported
    cases hstatus' : updated.status <;> simp [AuthoritativeRunStatus.value, hstatus'] at hterminal ⊢
  · refine ⟨row, hget, ?_⟩
    rw [hstatus, hcompletes.running]
    rfl

/-! ## Overlapping calls -/

/-- The segment has stored a result of the run. -/
def Lands (runId : String) (l : CompletionLabel) : Prop :=
  match l.input, l.stop with
  | .answer ⟨.update updatedId, _⟩, .awaiting _ => updatedId = runId
  | _, _ => False

instance (runId : String) (l : CompletionLabel) : Decidable (Lands runId l) := by
  unfold Lands
  split <;> infer_instance

/-- A result of the run has been stored since thread `i` started. -/
def Overtaken (i : ℕ) (runId : String) (tr : List CompletionLabel) : Prop :=
  ∃ l ∈ since i tr, Lands runId l

instance (i : ℕ) (runId : String) (tr : List CompletionLabel) : Decidable (Overtaken i runId tr) :=
  inferInstanceAs (Decidable (∃ l ∈ _, _))

/-- The step does not let a call store that has been overtaken. -/
def Fresh (t : Completions) : Step Completion Question Answer → Prop
  | .call _ _ => True
  | .resume i reply =>
      match t.threads i with
      | some ⟨_, .awaiting (.update runId) _⟩ =>
          reply (.update runId) = .returned → ¬ Overtaken i runId t.trace
      | _ => True

instance (t : Completions) (y : Step Completion Question Answer) : Decidable (Fresh t y) := by
  unfold Fresh
  split
  · infer_instance
  · split <;> infer_instance

/-- The call reports a result of the run. -/
def OnRun (runId : String) (c : Completion) : Prop :=
  ∃ result, reported x c.payload = .ok (result, runId)

/-! ## The invariant -/

/-- What the stage of a call has to do with its arguments. -/
def Consistent (c : Completion) : Stage → Prop
  | .failed _ => True
  | .selecting result runId => reported x c.payload = .ok (result, runId)
  | .updating updated => OnRun x updated.runId c ∧ updated.status.value ≠ "RUNNING"
  | .recording updated => OnRun x updated.runId c
  | .returned updated => OnRun x updated.runId c

/-- The call has stored a result of the run. -/
def HasStored (runId : String) : Stage → Prop
  | .recording updated => updated.runId = runId
  | .returned updated => updated.runId = runId
  | _ => False

/-- The run is not over. -/
def StillRunning (rows : Rows) (runId : String) : Prop :=
  ∃ row, rows.get? runId = some row ∧ row.status = "RUNNING"

/-- What holds of a run of completions whose updates are not overtaken. -/
structure Current (w : CompletionWorld) (pool : Pool Completion Stage) : Prop where
  consistent : ∀ i c st, pool i = some (c, st) → Consistent x c st
  started : ∀ i c st, pool i = some (c, st) → ∃ l ∈ w.trace, l.thread = i
  /-- The run is as the call has read it, unless the call has been overtaken. -/
  running : ∀ i c updated, pool i = some (c, .updating updated) →
    ¬ Overtaken i updated.runId w.trace → StillRunning w.shared updated.runId
  stored : ∀ i c st runId, pool i = some (c, st) → HasStored runId st →
    ∃ l ∈ w.trace, l.thread = i ∧ Lands runId l

variable {x}

/-- It holds before the first call. -/
theorem current_init (rows : Rows) : (completing x).Staged (Current x) (init rows) := by
  refine ⟨fun _ => none, describes_init rows, ?_, ?_, ?_, ?_⟩ <;> simp

/-- A segment of the thread `i` has led to the stage `st`. -/
theorem Current.put {t : Completions} {pool : Pool Completion Stage}
    (h : Current x t.toWorld pool) {i : ℕ} {c : Completion} {st : Stage} {l : CompletionLabel}
    {rows : Rows} (hthread : l.thread = i)
    (hkept : ∀ runId, rows.get? runId = t.shared.get? runId ∨ Lands runId l)
    (hconsistent : Consistent x c st)
    (hrunning : ∀ updated, st = .updating updated → StillRunning rows updated.runId)
    (hstored : ∀ runId, HasStored runId st → ∃ l' ∈ t.trace ++ [l], l'.thread = i ∧ Lands runId l') :
    Current x (t.toWorld.push rows l) (pool.put i c st) where
  consistent := by
    intro j d u hj
    rcases Pool.put_eq_some.1 hj with ⟨rfl, rfl, rfl⟩ | ⟨-, hj⟩
    · exact hconsistent
    · exact h.consistent j d u hj
  started := by
    intro j d u hj
    rcases Pool.put_eq_some.1 hj with ⟨rfl, rfl, rfl⟩ | ⟨-, hj⟩
    · exact ⟨l, by simp, hthread⟩
    · obtain ⟨l', hl', hthread'⟩ := h.started j d u hj
      exact ⟨l', List.mem_append_left _ hl', hthread'⟩
  running := by
    intro j d updated hj hfree
    rcases Pool.put_eq_some.1 hj with ⟨rfl, rfl, hst⟩ | ⟨-, hj⟩
    · exact hrunning updated hst.symm
    · -- another call is overtaken by this segment, or finds the row as it was
      unfold Overtaken at hfree
      rw [World.push_trace, since_append (h.started j d _ hj)] at hfree
      rcases hkept updated.runId with hsame | hlands
      · unfold StillRunning
        rw [World.push_shared, hsame]
        apply h.running j d updated hj
        rintro ⟨l', hl', hlands⟩
        exact hfree ⟨l', List.mem_append_left _ hl', hlands⟩
      · exact absurd ⟨l, by simp, hlands⟩ hfree
  stored := by
    intro j d u runId hj hu
    rcases Pool.put_eq_some.1 hj with ⟨rfl, rfl, rfl⟩ | ⟨-, hj⟩
    · exact hstored runId hu
    · obtain ⟨l', hl', hown⟩ := h.stored j d u runId hj hu
      exact ⟨l', List.mem_append_left _ hl', hown⟩

/-- A call that fails leaves the rows as they are. -/
theorem Current.fails {t : Completions} {pool : Pool Completion Stage}
    (h : Current x t.toWorld pool) {i : ℕ} {c : Completion} {e : RunError}
    {l : CompletionLabel} (hthread : l.thread = i) :
    Current x (t.toWorld.push t.shared l) (pool.put i c (.failed e)) :=
  h.put hthread (fun _ => .inl rfl) trivial (fun _ h => by cases h) fun _ h => h.elim

/-- A call that stores a result overtakes the others of its run. -/
theorem Current.stores {t : Completions} {pool : Pool Completion Stage}
    (h : Current x t.toWorld pool) {i : ℕ} {c : Completion} {l : CompletionLabel}
    {updated : AuthoritativeRunRecord} {row : AgentRunRow} (hthread : l.thread = i)
    (hlands : Lands updated.runId l) (hget : t.shared.get? updated.runId = some row)
    (hrun : OnRun x updated.runId c) :
    Current x (t.toWorld.push (t.shared.put (row.updated updated)) l)
      (pool.put i c (.recording updated)) := by
  refine h.put hthread ?_ hrun (fun _ h => by cases h) ?_
  · intro runId
    by_cases hsame : updated.runId = runId
    · exact .inr (hsame ▸ hlands)
    · -- the rows of other runs are as they were
      left
      apply Table.get?_put_of_ne
      rw [AgentRunRow.updated, Table.key_of_get? hget]
      exact hsame
  · intro runId hst
    exact ⟨l, List.mem_append_right _ List.mem_cons_self, hthread, hst ▸ hlands⟩

/-- The stage after a read, in a state that is kept. -/
theorem loaded_consistent {c : Completion} {rows : Rows} {result : Json.Fields} {runId : String}
    (hreported : reported x c.payload = .ok (result, runId)) (a : Stored) :
    Consistent x c (c.loaded x rows result runId a) ∧
      ∀ updated, c.loaded x rows result runId a = .updating updated →
        StillRunning rows updated.runId := by
  unfold Completion.loaded
  cases a with
  | raised => exact ⟨trivial, fun updated h => by cases h⟩
  | returned =>
      -- what the select returned is checked against the result, or refused
      cases hprepared : c.prepared x rows result runId with
      | error e => exact ⟨trivial, fun updated h => by cases h⟩
      | ok updated =>
          have hok := prepared_ok x hprepared
          constructor
          · refine ⟨⟨result, ?_⟩, hok.terminal⟩
            rw [hok.sameRun]
            exact hreported
          · intro updated' h
            cases h
            rw [hok.sameRun]
            exact hok.running

/-- It is kept by every step that is `Fresh`. -/
theorem current_keeps : (completing x).Keeps (fun _ _ => True) (Current x) where
  start := by
    rintro t pool i c rows st hpool h - hi ⟨rfl, rfl⟩
    -- a call that starts has read nothing yet
    apply h.put rfl fun _ => .inl rfl
    · unfold Completion.begun
      split
      · trivial
      · assumption
    · intro updated hst
      unfold Completion.begun at hst
      split at hst <;> cases hst
    · intro runId hst
      unfold Completion.begun at hst
      split at hst <;> exact hst.elim
  turn := by
    rintro t pool i reply c st q k a rows st' hpool h - hi hnow - hturn
    -- an answer: what it does depends on where the call stands
    have hconsistent := h.consistent i c st hi
    cases st with
    | failed e => cases hnow
    | returned updated => cases hnow
    | selecting result runId =>
        cases hnow
        obtain ⟨rfl, rfl⟩ := hturn
        have hloaded := @loaded_consistent x c t.shared result runId hconsistent a
        apply h.put rfl (fun _ => .inl rfl) hloaded.1 hloaded.2
        intro runId' hst
        unfold Completion.loaded at hst
        cases a with
        | raised => exact hst.elim
        | returned =>
            simp only at hst
            split at hst <;> exact hst.elim
    | updating updated =>
        cases hnow
        simp only [completing, landed] at hturn
        cases a with
        | raised =>
            cases hturn
            exact h.fails rfl
        | returned =>
            simp only at hturn
            split at hturn
            · cases hturn
              exact h.fails rfl
            · rename_i row hget
              cases hturn
              exact h.stores rfl rfl hget hconsistent.1
    | recording updated =>
        cases hnow
        obtain ⟨rfl, rfl⟩ := hturn
        cases a with
        | raised => exact h.fails rfl
        | returned =>
            have hreturned : Consistent x c (.returned updated) := hconsistent
            refine h.put rfl (fun _ => .inl rfl) hreturned (fun _ h => by cases h) ?_
            intro runId hst
            obtain ⟨l, hl, hown⟩ := h.stored i c _ runId hi hst
            exact ⟨l, List.mem_append_left _ hl, hown⟩

/-! ## One step -/

/-- What a step that meets `Fresh` does to the world: nothing, or a segment that
stores nothing, or a result is stored of a run that is not over. -/
inductive Advance (t : Completions) : CompletionWorld → Prop where
  | idle : Advance t t.toWorld
  | silent {l} (h : ∀ runId, ¬ Lands runId l) : Advance t (t.toWorld.push t.shared l)
  | stored {l row} {updated : AuthoritativeRunRecord}
      (hlands : ∀ runId, Lands runId l ↔ updated.runId = runId)
      (hget : t.shared.get? updated.runId = some row) (hrunning : row.status = "RUNNING")
      (hterminal : updated.status.value ≠ "RUNNING") :
      Advance t (t.toWorld.push (t.shared.put (row.updated updated)) l)

/-- A step that is `Fresh` leaves a row alone or ends a run that is still going. -/
theorem advance {t : Completions} (h : (completing x).Staged (Current x) t)
    {y : Step Completion Question Answer} (hfresh : Fresh t y) :
    Advance t (next (Completion.prog x) t y).toWorld := by
  obtain ⟨pool, hpool, hcurrent⟩ := h
  obtain ⟨pool', -, hmoved⟩ := hpool.next (completing_follows x) y
  generalize (next (Completion.prog x) t y).toWorld = w at hmoved
  cases hmoved with
  | idle => exact .idle
  | start hi hbegins =>
      obtain ⟨rfl, rfl⟩ := hbegins
      exact .silent fun _ h => h
  | @turn i reply c st q k rows st' hi hnow hturn =>
      cases st with
      | failed e => cases hnow
      | returned updated => cases hnow
      | selecting result runId =>
          cases hnow
          obtain ⟨rfl, rfl⟩ := hturn
          exact .silent fun _ h => h
      | recording updated =>
          cases hnow
          obtain ⟨rfl, rfl⟩ := hturn
          exact .silent fun _ h => h
      | updating updated =>
          have hthread : t.threads i = some ⟨c, .awaiting q k⟩ := by
            rw [hpool.thread_some hi, hnow]
          cases hnow
          simp only [completing, landed] at hturn
          cases hreply : reply (.update updated.runId) with
          | raised =>
              rw [hreply] at hturn
              cases hturn
              exact .silent fun _ h => h
          | returned =>
              rw [hreply] at hturn
              -- the update has returned, so nothing has overtaken the call
              have hfree : ¬ Overtaken i updated.runId t.trace := by
                simp only [Fresh, hthread] at hfresh
                exact hfresh hreply
              obtain ⟨row, hget, hrunning⟩ := hcurrent.running i c updated hi hfree
              simp only [hget] at hturn
              cases hturn
              have hterminal := (hcurrent.consistent i c _ hi).2
              exact .stored (fun _ => Iff.rfl) hget hrunning hterminal

/-- What every step keeps that meets `Fresh`. -/
theorem advances {P : CompletionWorld → Prop} {t : Completions}
    (ht : (completing x).Staged (Current x) t) (hinit : P t.toWorld)
    (hP : ∀ (u : Completions) w, P u.toWorld → Advance u w → P w)
    {ys : List (Step Completion Question Answer)} (h : Along (Completion.prog x) Fresh t ys) :
    P (run (Completion.prog x) t ys).toWorld := by
  induction ys using List.reverseRecOn with
  | nil => exact hinit
  | append_singleton ys y ih =>
      have hcurrent : (completing x).Staged (Current x) (run (Completion.prog x) t ys) :=
        current_keeps.run_inv (completing_follows x) ht ys fun _ _ _ _ => trivial
      rw [run_snoc]
      exact hP _ _ (ih h.of_append) (advance hcurrent h.last)

/-! ## What a step keeps -/

/-- A run of which a result has been stored is over, and there is one such
result. -/
def Completed (w : CompletionWorld) : Prop :=
  ∀ runId, ∀ l ∈ w.trace, Lands runId l →
    (∃ row, w.shared.get? runId = some row ∧ row.status ≠ "RUNNING") ∧
      ∀ l' ∈ w.trace, Lands runId l' → l'.thread = l.thread

/-- A run that was told to be completed stays as it was told. -/
theorem Completed.advance {t : Completions} {w : CompletionWorld} (h : Completed t.toWorld)
    (hw : Advance t w) : Completed w := by
  cases hw with
  | idle => exact h
  | @silent l hsilent =>
      have hold : ∀ runId l', l' ∈ t.trace ++ [l] → Lands runId l' → l' ∈ t.trace := by
        intro runId l' hl' hlands
        rcases List.mem_append.1 hl' with hl' | hl'
        · exact hl'
        · rw [List.mem_singleton.1 hl'] at hlands
          exact absurd hlands (hsilent runId)
      intro runId l' hl' hlands
      obtain ⟨hover, honly⟩ := h runId l' (hold runId l' hl' hlands) hlands
      exact ⟨hover, fun l'' hl'' hlands'' => honly l'' (hold runId l'' hl'' hlands'') hlands''⟩
  | @stored l row updated hlands hget hrunning hterminal =>
      have hkey : row.runId = updated.runId := Table.key_of_get? hget
      have hsaved : (row.updated updated).runId = updated.runId := hkey
      -- no result of this run has been stored before
      have hfirst : ∀ l' ∈ t.trace, ¬ Lands updated.runId l' := by
        intro l' hl' hlands'
        obtain ⟨⟨row', hget', hover⟩, -⟩ := h updated.runId l' hl' hlands'
        rw [hget] at hget'
        cases hget'
        exact hover hrunning
      have hcases : ∀ runId l', l' ∈ t.trace ++ [l] → Lands runId l' →
          (updated.runId = runId ∧ l' = l) ∨ (updated.runId ≠ runId ∧ l' ∈ t.trace) := by
        intro runId l' hl' hlands'
        by_cases hrun : updated.runId = runId
        · subst hrun
          rcases List.mem_append.1 hl' with hl' | hl'
          · exact absurd hlands' (hfirst l' hl')
          · exact .inl ⟨rfl, List.mem_singleton.1 hl'⟩
        · rcases List.mem_append.1 hl' with hl' | hl'
          · exact .inr ⟨hrun, hl'⟩
          · rw [List.mem_singleton.1 hl'] at hlands'
            exact absurd ((hlands runId).1 hlands') hrun
      intro runId l' hl' hlands'
      rcases hcases runId l' hl' hlands' with ⟨rfl, rfl⟩ | ⟨hrun, hl'⟩
      · constructor
        · refine ⟨row.updated updated, ?_, hterminal⟩
          rw [World.push_shared, ← hsaved, Table.get?_put_self]
        · intro l'' hl'' hlands''
          rcases hcases _ l'' hl'' hlands'' with ⟨-, rfl⟩ | ⟨hrun, -⟩
          · rfl
          · exact absurd rfl hrun
      · obtain ⟨hover, honly⟩ := h runId l' hl' hlands'
        constructor
        · rw [World.push_shared, Table.get?_put_of_ne _ (by rwa [hsaved])]
          exact hover
        · intro l'' hl'' hlands''
          rcases hcases runId l'' hl'' hlands'' with ⟨hsame, -⟩ | ⟨-, hl''⟩
          · exact absurd hsame hrun
          · exact honly l'' hl'' hlands''

/-- What a result decides of a run. -/
def AgentRunRow.outcome (row : AgentRunRow) :
    String × Option Json.Fields × Option Datetime :=
  (row.status, row.resultPayload, row.completedAt)

/-- The run is over, with the outcome of the row. -/
def KeepsOutcome (runId : String) (row : AgentRunRow) (w : CompletionWorld) : Prop :=
  ∃ row', w.shared.get? runId = some row' ∧ row'.outcome = row.outcome

/-- A row with an outcome keeps it. -/
theorem KeepsOutcome.advance {runId : String} {row : AgentRunRow} (hover : row.status ≠ "RUNNING")
    {t : Completions} {w : CompletionWorld} (h : KeepsOutcome runId row t.toWorld)
    (hw : Advance t w) : KeepsOutcome runId row w := by
  obtain ⟨row', hget', houtcome⟩ := h
  cases hw with
  | idle => exact ⟨row', hget', houtcome⟩
  | silent hsilent => exact ⟨row', hget', houtcome⟩
  | @stored l stored updated hlands hget hrunning hterminal =>
      have hne : (stored.updated updated).runId ≠ runId := by
        rintro hrun
        rw [AgentRunRow.updated, Table.key_of_get? hget] at hrun
        rw [hrun, hget'] at hget
        cases hget
        exact hover ((congrArg Prod.fst houtcome).symm.trans hrunning)
      exact ⟨row', (Table.get?_put_of_ne _ hne).trans hget', houtcome⟩

/-! ## Every run -/

/-- The system after the steps `ys`, from the rows. -/
def completions (x : AgentRunAuthority) (rows : Rows) (ys : List (Step Completion Question Answer)) :
    Completions :=
  run (Completion.prog x) (init rows) ys

/-- At most one call on the run has returned, and once the run is over its status,
result and completion time stay. -/
structure SettledOnce (x : AgentRunAuthority) (rows : Rows)
    (ys : List (Step Completion Question Answer)) (runId : String) : Prop where
  once : ∀ i j c d updated updated',
    (completions x rows ys).threads i = some ⟨c, .returned updated⟩ →
      (completions x rows ys).threads j = some ⟨d, .returned updated'⟩ →
        OnRun x runId c → OnRun x runId d → i = j
  stays : ∀ pre post, ys = pre ++ post → ∀ row,
    (completions x rows pre).shared.get? runId = some row → row.status ≠ "RUNNING" →
      ∃ row', (completions x rows ys).shared.get? runId = some row' ∧ row'.outcome = row.outcome

/-- It holds after every run of completions that are `Fresh`. -/
theorem completions_current (rows : Rows) (ys : List (Step Completion Question Answer)) :
    (completing x).Staged (Current x) (completions x rows ys) :=
  current_keeps.run_inv (completing_follows x) (current_init rows) ys fun _ _ _ _ => trivial

/-- A call that has returned has stored a result of its run. -/
theorem lands_of_returned {rows : Rows} {ys : List (Step Completion Question Answer)} {i : ℕ}
    {c : Completion} {updated : AuthoritativeRunRecord} {runId : String}
    (hi : (completions x rows ys).threads i = some ⟨c, .returned updated⟩) (hrun : OnRun x runId c) :
    ∃ l ∈ (completions x rows ys).trace, l.thread = i ∧ Lands runId l := by
  obtain ⟨pool, hpool, hcurrent⟩ := completions_current (x := x) rows ys
  obtain ⟨st, hst, hnow⟩ := hpool.stage hi
  cases st with
  | returned stored =>
      cases hnow
      obtain ⟨result, hreported⟩ := hrun
      obtain ⟨result', hreported'⟩ := hcurrent.consistent i c _ hst
      rw [hreported] at hreported'
      cases hreported'
      exact hcurrent.stored i c _ _ hst rfl
  | _ => cases hnow

/-- As long as no call stores that has been overtaken, every run is settled once. -/
theorem settled_once (x : AgentRunAuthority) (rows : Rows)
    (ys : List (Step Completion Question Answer))
    (h : Along (Completion.prog x) Fresh (init rows) ys) (runId : String) :
    SettledOnce x rows ys runId where
  once := by
    intro i j c d updated updated' hi hj hc hd
    -- both returned, so both have written; the second would have had to read RUNNING
    have hcompleted : Completed (completions x rows ys).toWorld :=
      advances (current_init rows) (by intro _ l hl; cases hl) (fun _ _ => Completed.advance) h
    obtain ⟨l, hl, rfl, hlands⟩ := lands_of_returned hi hc
    obtain ⟨l', hl', rfl, hlands'⟩ := lands_of_returned hj hd
    exact ((hcompleted runId l hl hlands).2 l' hl' hlands').symm
  stays := by
    rintro pre post rfl row hget hover
    -- from the moment the outcome stands, the row is kept
    have hkept : KeepsOutcome runId row
        (run (Completion.prog x) (completions x rows pre) post).toWorld :=
      advances (completions_current rows pre) ⟨row, hget, rfl⟩
        (fun _ _ => KeepsOutcome.advance hover) h.after
    rw [completions, run_append]
    exact hkept

end Stages

/-! ## Two results at once -/

/-- A result of the run of `reportRun`. -/
def reportResult (status : AuthoritativeRunStatus) : Json.Fields :=
  [("run_id", .str "run"), ("root_run_id", .str "run"), ("correlation_id", .str "corr"),
    ("agent_id", .str "agent.report"), ("agent_version", .str "1.0.0"),
    ("capability_id", .str "capability.report"), ("status", .str status.value)]

/-- A store with one run that is going on. -/
def reportRows : Rows :=
  Table.empty.put (toRow openAuthority.repr (reportRun "capability.report" "tool.read"))

/-- The record of that run when it is over. -/
def completedReport (status : AuthoritativeRunStatus) (now : Datetime) : AuthoritativeRunRecord :=
  { reportRun "capability.report" "tool.read" with
    status := status
    completedAt := some now
    result := some (reportResult status) }

/-- A sink and a store that take everything. -/
def granted : (q : Question) → Answer q
  | .append _ => .returned
  | .select _ | .insert _ | .update _ => .returned

/-- A completion of that run. -/
def completion (status : AuthoritativeRunStatus) (now : Datetime) : Completion :=
  ⟨reportResult status, now⟩

/-- Both calls read the run before either of them stores its result. -/
def racing : List (Step Completion Question Answer) :=
  [.call 0 (completion .completed 1), .call 1 (completion .failed 2), .resume 0 granted,
    .resume 1 granted, .resume 0 granted, .resume 0 granted, .resume 1 granted, .resume 1 granted]

/-- Both calls return, and the second one turns the run from completed to failed. -/
theorem both_completed :
    (completions openAuthority reportRows racing).threads 0 =
        some ⟨completion .completed 1, .returned (completedReport .completed 1)⟩ ∧
      (completions openAuthority reportRows racing).threads 1 =
        some ⟨completion .failed 2, .returned (completedReport .failed 2)⟩ ∧
      ((completions openAuthority reportRows (racing.take 6)).shared.get? "run").map
          AgentRunRow.status = some "COMPLETED" ∧
      ((completions openAuthority reportRows racing).shared.get? "run").map
          AgentRunRow.status = some "FAILED" ∧
      ¬ SettledOnce openAuthority reportRows racing "run" := by
  -- both calls return, one with COMPLETED and one with FAILED
  have hfirst : (completions openAuthority reportRows racing).threads 0 =
      some ⟨completion .completed 1, .returned (completedReport .completed 1)⟩ := rfl
  have hsecond : (completions openAuthority reportRows racing).threads 1 =
      some ⟨completion .failed 2, .returned (completedReport .failed 2)⟩ := rfl
  refine ⟨hfirst, hsecond, rfl, rfl, ?_⟩
  intro h
  have hsame := h.once 0 1 _ _ _ _ hfirst hsecond ⟨_, rfl⟩ ⟨_, rfl⟩
  cases hsame

/-- The second call starts before the first one stores its result, and reads the run
after that, so that it is refused. -/
def queued : List (Step Completion Question Answer) :=
  [.call 0 (completion .completed 1), .resume 0 granted, .call 1 (completion .failed 2),
    .resume 0 granted, .resume 1 granted, .resume 0 granted]

/-- Two completions of one run, of which the second reads after the first has written. -/
theorem settled_once_queued : SettledOnce openAuthority reportRows queued "run" :=
  settled_once openAuthority reportRows queued (by decide +kernel) "run"

end Alos.Agents
