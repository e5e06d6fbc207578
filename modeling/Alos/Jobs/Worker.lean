import Alos.Coop.Staged
import Alos.Jobs.Repository

/-! # Job workers

`JobWorker.run_once` and `recover_stale_jobs`. Only the handler of a job is
awaited; what comes before it and what comes after it are one segment each.

* `staging` is the stage machine of the calls, `handling` its one stage that
  waits;
* `staging_follows`: every segment of a call is one of its turns.

The clock is read by every call in its own order; a call carries what it says.
-/

namespace Alos.Jobs

open Coop Py

/-- A worker has a handler for some of the job types. -/
structure JobWorker where
  workerId : String
  /-- There is a handler for the job type. -/
  handlers : String → Bool

/-- `await handler(job)`. -/
inductive Question where
  | handler (job : Job)

/-- How a handler ends. -/
inductive Handled where
  | returned (result : Json.Fields)
  | raised

/-- What is answered to a question of a worker. -/
@[reducible] def Answer : Question → Type
  | .handler _ => Handled

/-- An operation on the queue, which waits while a handler runs. -/
abbrev Op (α : Type) := Proc Repository Question Answer JobError α

/-- An operation of the repository, in one step. -/
def perform {α : Type} (operation : Repository → Except JobError (α × Repository)) : Op α := do
  let s ← .get
  match operation s with
  | .error e => .raise e
  | .ok (a, s') =>
      .modify fun _ => s'
      pure a

/-- What follows the handler. -/
def conclude (clock : ℕ → Datetime) (job : Job) : Handled → Op Reply
  | .raised => do
      let updated ← perform (·.fail job.jobId "SAFE_HANDLER_FAILURE" clock)
      pure (.job updated)
  | .returned result => do
      let updated ← perform (·.succeed job.jobId result (clock 0))
      pure (.job updated)

/-- A worker claims a job, runs its handler, and records how it ended. -/
def runOnce (worker : JobWorker) (clock : ℕ → Datetime) : Op Reply := do
  let claimed ← perform fun s => .ok (s.claim worker.workerId (clock 0))
  let clock := fun n => clock (n + 1)
  match claimed with
  | none => pure (.claimed none)
  | some job =>
      if worker.handlers job.jobType.value then do
        let handled ← .ask (.handler job)
        conclude clock job handled
      else do
        let updated ← perform (·.fail job.jobId "HANDLER_NOT_CONFIGURED" clock)
        pure (.job updated)

/-- Jobs whose lease has run out are put back into the queue. -/
def recoverStaleJobs (leaseTimeout : Int) (now : Datetime) (clock : ℕ → Datetime) : Op Reply := do
  let recovered ← perform fun s => .ok (s.recoverStale (now - leaseTimeout) clock)
  pure (.recovered recovered)

/-- The operations that overlap on one queue. -/
inductive Call where
  | runOnce (worker : JobWorker) (clock : ℕ → Datetime)
  | recoverStaleJobs (leaseTimeout : Int) (now : Datetime) (clock : ℕ → Datetime)
  | claim (workerId : String) (now : Datetime) (jobTypes : Option (Finset JobType))

/-- What each operation does. -/
def Call.prog : Call → Op Reply
  | .runOnce worker clock => Jobs.runOnce worker clock
  | .recoverStaleJobs leaseTimeout now clock => Jobs.recoverStaleJobs leaseTimeout now clock
  | .claim workerId now jobTypes => do
      let claimed ← perform fun s => .ok (s.claim workerId now jobTypes)
      pure (.claimed claimed)

/-- The job that a call claims when it starts. -/
def Call.takes (s : Repository) : Call → Option Job
  | .runOnce _ clock => s.next? (clock 0) none
  | .recoverStaleJobs .. => none
  | .claim _ now jobTypes => s.next? now jobTypes

/-! ## Stages -/

inductive Stage where
  | handling (clock : ℕ → Datetime) (held : Job)
  | returned (reply : Reply)
  | raised (e : JobError)

/-- Where an operation stands at each of its stages. -/
def Stage.now : Stage → Yield Repository Question Answer JobError Reply
  | .handling clock held => .awaiting (.handler held) fun handled => conclude clock held handled
  | .returned reply => .returned reply
  | .raised e => .raised e

/-- What the first segment can do: hand the job that it claims to its handler,
be over without changing another job, or recover leases. -/
inductive Begins (s : Repository) : Call → Repository → Stage → Prop where
  | handed {worker clock job} (hnext : s.next? (clock 0) none = some job) :
      Begins s (.runOnce worker clock) (s.putJob (job.claimed worker.workerId (clock 0)))
        (.handling (fun n => clock (n + 1)) (job.claimed worker.workerId (clock 0)))
  | settled {c s' st} (hst : ∀ clock held, st ≠ .handling clock held)
      (hjobs : ∀ id, (∀ job, c.takes s = some job → job.jobId ≠ id) →
        s'.jobs.get? id = s.jobs.get? id) : Begins s c s' st
  | recovered {leaseTimeout now clock s' jobs}
      (hjobs : ∀ id, JobStep 0 (s.jobs.get? id) (s'.jobs.get? id)) :
      Begins s (.recoverStaleJobs leaseTimeout now clock) s' (.returned (.recovered jobs))

/-- What the segment after the handler can do. -/
inductive Turn (s : Repository) : Stage → Exchange Question Answer → Repository → Stage → Prop where
  | ended {clock held answer job job' st} (hst : ∀ clock held, st ≠ .handling clock held)
      (hjob : s.jobs.get? job.jobId = some job) (hid : job.jobId = held.jobId)
      (hends : job.Ends job') :
      Turn s (.handling clock held) ⟨.handler held, answer⟩ (s.putJob job') st
  | refused {clock held answer e} :
      Turn s (.handling clock held) ⟨.handler held, answer⟩ s (.raised e)

/-- The stages of the operations, with what each segment does. -/
def staging : Staging Call Repository Question Answer JobError Reply Stage where
  now := fun _ => Stage.now
  Begins := fun c s => Begins s c
  Turn := fun _ => Turn

/-! ## Every segment is a turn -/

theorem perform_advance {α β : Type} (operation : Repository → Except JobError (α × Repository))
    (f : α → Op β) (s : Repository) : ((perform operation).bind f).advance s =
      match operation s with
      | .error e => (s, .raised e)
      | .ok (a, s') => (f a).advance s' := by
  simp only [perform, Proc.bind_def, Proc.get_bind, Proc.bind, Proc.advance_read]
  cases operation s <;> rfl

/-- However the handler ends, the job is concluded in one segment. -/
theorem conclude_turns (clock : ℕ → Datetime) (held : Job) (handled : Handled) (s : Repository) :
    ∃ s' st, Turn s (.handling clock held) ⟨.handler held, handled⟩ s' st ∧
      (conclude clock held handled).advance s = (s', st.now) := by
  -- the handler has raised, which fails the job, or returned, which ends it
  cases handled with
  | raised =>
      simp only [conclude, Proc.bind_def, perform_advance]
      cases h : s.fail held.jobId "SAFE_HANDLER_FAILURE" clock with
      | error e => exact ⟨_, .raised e, .refused, rfl⟩
      | ok p =>
          obtain ⟨job, hjob, hid, hends, hs'⟩ := Repository.fail_ok h
          refine ⟨_, .returned (.job p.1), .ended (by simp) hjob hid hends, ?_⟩
          rw [← hs']
          rfl
  | returned result =>
      simp only [conclude, Proc.bind_def, perform_advance]
      cases h : s.succeed held.jobId result (clock 0) with
      | error e => exact ⟨_, .raised e, .refused, rfl⟩
      | ok p =>
          obtain ⟨job, hjob, hid, hends, hs'⟩ := Repository.succeed_ok h
          refine ⟨_, .returned (.job p.1), .ended (by simp) hjob hid hends, ?_⟩
          rw [← hs']
          rfl

/-- A job that is put back changes nothing else. -/
theorem get?_putJob_of_ne {s : Repository} {job : Job} {id : String} (h : job.jobId ≠ id) :
    (s.putJob job).jobs.get? id = s.jobs.get? id :=
  Table.get?_put_of_ne _ h

/-- A job that is failed changes nothing else. -/
theorem get?_fail_of_ne {s s' : Repository} {jobId safeErrorCode id : String}
    {clock : ℕ → Datetime} {job' : Job} (h : s.fail jobId safeErrorCode clock = .ok (job', s'))
    (hid : jobId ≠ id) : s'.jobs.get? id = s.jobs.get? id := by
  obtain ⟨job, hjob, rfl, hends, rfl⟩ := Repository.fail_ok h
  apply get?_putJob_of_ne
  rwa [(JobStep.ended hends).jobId]

/-- The start of an operation is one of the cases of `Begins`. -/
theorem prog_begins (c : Call) (s : Repository) :
    ∃ s' st, Begins s c s' st ∧ (c.prog).advance s = (s', st.now) := by
  cases c with
  | runOnce worker clock =>
      simp only [Call.prog, runOnce, Proc.bind_def, perform_advance]
      cases hnext : s.next? (clock 0) none with
      | none =>
          refine ⟨s, .returned (.claimed none), .settled (by simp) fun _ _ => rfl, ?_⟩
          simp [Repository.claim, hnext, Stage.now]
      | some job =>
          simp only [Repository.claim, hnext]
          by_cases hhandler : worker.handlers job.jobType.value
          · refine ⟨_, _, .handed hnext, ?_⟩
            rw [if_pos (by exact hhandler)]
            rfl
          · -- the job is claimed, and failed at once
            rw [if_neg (by exact hhandler), perform_advance]
            cases hfail : (s.putJob (job.claimed worker.workerId (clock 0))).fail job.jobId
                "HANDLER_NOT_CONFIGURED" (fun n => clock (n + 1)) with
            | error e =>
                refine ⟨s.putJob (job.claimed worker.workerId (clock 0)), .raised e,
                  .settled (by simp) fun id hid => ?_, ?_⟩
                · exact get?_putJob_of_ne (hid job hnext)
                · rw [Job.claimed_jobId, hfail]
                  rfl
            | ok p =>
                refine ⟨p.2, .returned (.job p.1), .settled (by simp) fun id hid => ?_, ?_⟩
                · rw [get?_fail_of_ne hfail (hid job hnext)]
                  exact get?_putJob_of_ne (hid job hnext)
                · rw [Job.claimed_jobId, hfail]
                  rfl
  | recoverStaleJobs leaseTimeout now clock =>
      simp only [Call.prog, recoverStaleJobs, Proc.bind_def, perform_advance]
      refine ⟨_, .returned (.recovered _), .recovered fun id => ?_, rfl⟩
      exact Repository.recoverAll_jobStep s.jobs.nodup (fun job hjob => Table.get?_of_mem hjob) id
  | claim workerId now jobTypes =>
      simp only [Call.prog, Proc.bind_def, perform_advance]
      cases hnext : s.next? now jobTypes with
      | none =>
          refine ⟨s, .returned (.claimed none), .settled (by simp) fun _ _ => rfl, ?_⟩
          simp [Repository.claim, hnext, Stage.now]
      | some job =>
          refine ⟨s.putJob (job.claimed workerId now),
            .returned (.claimed (some (job.claimed workerId now))), .settled (by simp) fun id hid => ?_, ?_⟩
          · exact get?_putJob_of_ne (hid job hnext)
          · simp [Repository.claim, hnext, Stage.now]

/-- The stages describe the operations. -/
theorem staging_follows : staging.Follows Call.prog where
  begins := prog_begins
  turns := by
    intro c st q k h a s
    cases st with
    | handling clock held =>
        cases h
        exact conclude_turns clock held a s
    | returned reply => cases h
    | raised e => cases h

end Alos.Jobs
