import Mathlib.Data.List.Sort
import Alos.Jobs.Models

/-! # The job repository

`InMemoryJobRepository`. No operation awaits anything while it holds the lock
of the repository, so each is one atomic step: a function of the dicts. What
`datetime.now` and `uuid4` give is passed in.
-/

namespace Alos.Jobs

open Py

/-- What a call of the repository can raise. -/
inductive JobError where
  | conflict (message : String)
  | lookup (message : String)
  | missing (key : String)
deriving DecidableEq, Repr

/-- `_jobs` and `_idempotency`. -/
structure Repository where
  jobs : Table Job.jobId
  idempotency : Table (Prod.fst : IdempotencyKey × String → IdempotencyKey)

namespace Repository

/-- No job and no key. -/
def empty : Repository := ⟨.empty, .empty⟩

/-- `self._jobs[job.job_id] = job`. -/
def putJob (s : Repository) (job : Job) : Repository := { s with jobs := s.jobs.put job }

@[simp] theorem putJob_jobs (s : Repository) (job : Job) : (s.putJob job).jobs = s.jobs.put job :=
  rfl

@[simp] theorem putJob_idempotency (s : Repository) (job : Job) :
    (s.putJob job).idempotency = s.idempotency := rfl

variable (s : Repository)

/-- `enqueue`: a new job, or the one that was made under the key. -/
def enqueue (command : EnqueueJob) (jobId : String) (createdAt : Datetime) :
    Except JobError (Job × Repository) :=
  match s.idempotency.get? command.key with
  | some (_, existingId) =>
      match s.jobs.get? existingId with
      | some job => .ok (job, s)
      | none => .error (.missing existingId)
  | none =>
      let job := Job.ofCommand command jobId createdAt
      .ok (job, ⟨s.jobs.put job, s.idempotency.put (command.key, jobId)⟩)

/-- The job that `claim` takes: the first in the order of creation that it may
take. -/
def next? (now : Datetime) (jobTypes : Option (Finset JobType)) : Option Job :=
  (s.jobs.values.insertionSort fun a b => a.createdAt ≤ b.createdAt).find? fun job =>
    job.Eligible now jobTypes

/-- `claim`: the first eligible job becomes the worker's. -/
def claim (workerId : String) (now : Datetime) (jobTypes : Option (Finset JobType) := none) :
    Option Job × Repository :=
  match s.next? now jobTypes with
  | none => (none, s)
  | some job =>
      let claimed := job.claimed workerId now
      (some claimed, s.putJob claimed)

/-- `get`. -/
def get (jobId : String) : Except JobError Job :=
  match s.jobs.get? jobId with
  | none => .error (.lookup "job was not found")
  | some job => .ok job

/-- `_require_running`. -/
def requireRunning (jobId : String) : Except JobError Job := do
  let job ← s.get jobId
  if job.status ≠ .running then
    throw (.conflict "job must be RUNNING")
  return job

/-- `_finish`: a running job is over. -/
def finish (jobId : String) (status : JobStatus) (result : Json.Fields) (now : Datetime) :
    Except JobError (Job × Repository) := do
  let job ← s.requireRunning jobId
  let updated := job.finished status result now
  return (updated, s.putJob updated)

/-- `succeed`. -/
def succeed (jobId : String) (result : Json.Fields) (now : Datetime) :
    Except JobError (Job × Repository) :=
  s.finish jobId .succeeded result now

/-- `timedelta(seconds=30)`. -/
def defaultRetryDelay : Int := 30 * 1000000

/-- `clock n` is what the `n`-th reading of the clock gives. -/
def fail (jobId : String) (safeErrorCode : String) (clock : ℕ → Datetime)
    (retryDelay : Int := defaultRetryDelay) : Except JobError (Job × Repository) := do
  let job ← s.requireRunning jobId
  let updated := job.released (clock 0 + retryDelay) safeErrorCode (clock 1)
  return (updated, s.putJob updated)

/-- The loop of `recover_stale` over the jobs. -/
def recoverAll (staleBefore : Datetime) (safeErrorCode : String) :
    List Job → (ℕ → Datetime) → Repository → List Job × Repository
  | [], _, s => ([], s)
  | job :: rest, clock, s =>
      if job.Stale staleBefore then
        let updated := job.released job.nextRetryAt safeErrorCode (clock 0)
        -- the clock is read for a job that is over
        let clock' := if job.Terminal then fun n => clock (n + 1) else clock
        let (recovered, s') := recoverAll staleBefore safeErrorCode rest clock' (s.putJob updated)
        (updated :: recovered, s')
      else recoverAll staleBefore safeErrorCode rest clock s

/-- `recover_stale`: jobs whose lease is stale are queued again, or have failed for good. -/
def recoverStale (staleBefore : Datetime) (clock : ℕ → Datetime)
    (safeErrorCode : String := "STALE_LEASE_RECOVERED") : List Job × Repository :=
  recoverAll staleBefore safeErrorCode s.jobs.values clock s

end Repository

/-! ## The operations of a run -/

inductive Command where
  | enqueue (command : EnqueueJob) (jobId : String) (createdAt : Datetime)
  | claim (workerId : String) (now : Datetime) (jobTypes : Option (Finset JobType))
  | succeed (jobId : String) (result : Json.Fields) (now : Datetime)
  | fail (jobId safeErrorCode : String) (clock : ℕ → Datetime) (retryDelay : Int)
  | recoverStale (staleBefore : Datetime) (clock : ℕ → Datetime) (safeErrorCode : String)

/-- What a call returns. -/
inductive Reply where
  | job (job : Job)
  | claimed (job : Option Job)
  | recovered (jobs : List Job)

/-- An operation that raises leaves the repository as it is. -/
def settle (s : Repository) : Except JobError (Job × Repository) → Except JobError Reply × Repository
  | .ok (job, s') => (.ok (.job job), s')
  | .error e => (.error e, s)

/-- One call, which is one atomic step. -/
def exec (s : Repository) : Command → Except JobError Reply × Repository
  | .enqueue command jobId createdAt => settle s (s.enqueue command jobId createdAt)
  | .claim workerId now jobTypes =>
      let (job, s') := s.claim workerId now jobTypes
      (.ok (.claimed job), s')
  | .succeed jobId result now => settle s (s.succeed jobId result now)
  | .fail jobId safeErrorCode clock retryDelay =>
      settle s (s.fail jobId safeErrorCode clock retryDelay)
  | .recoverStale staleBefore clock safeErrorCode =>
      let (jobs, s') := s.recoverStale staleBefore clock safeErrorCode
      (.ok (.recovered jobs), s')

/-- How often the reply hands out the job under the id. -/
def claims (jobId : String) : Except JobError Reply → ℕ
  | .ok (.claimed (some job)) => if job.jobId = jobId then 1 else 0
  | _ => 0

/-! ## What an operation does to a job -/

namespace Repository

variable {s s' : Repository}

/-- An eligible job is taken. -/
theorem next?_eq_some {now : Datetime} {jobTypes : Option (Finset JobType)} {job : Job}
    (h : s.next? now jobTypes = some job) :
    s.jobs.get? job.jobId = some job ∧ job.Eligible now jobTypes := by
  constructor
  · apply Table.get?_of_mem
    have hmem := List.mem_of_find?_eq_some h
    simpa using hmem
  · simpa using List.find?_some h

/-- None is taken when there is none. -/
theorem next?_eq_none {now : Datetime} {jobTypes : Option (Finset JobType)} :
    s.next? now jobTypes = none ↔ ∀ job ∈ s.jobs.values, ¬ job.Eligible now jobTypes := by
  simp [next?]

/-- The job that is required to run is found and running. -/
theorem requireRunning_ok {jobId : String} {job : Job} (h : s.requireRunning jobId = .ok job) :
    s.jobs.get? jobId = some job ∧ job.status = .running := by
  unfold requireRunning get at h
  cases hget : s.jobs.get? jobId with
  | none => simp [hget, bind, Except.bind] at h
  | some found =>
      by_cases hstatus : found.status = .running
      · simp [hget, hstatus, bind, Except.bind, pure, Except.pure] at h
        subst h
        exact ⟨rfl, hstatus⟩
      · simp [hget, hstatus, bind, Except.bind, throw, throwThe, MonadExceptOf.throw] at h

/-- An operation on one job leaves the others. -/
theorem jobStep_putJob {n : ℕ} {job job' : Job} (hjob : s.jobs.get? job.jobId = some job)
    (h : JobStep n (some job) (some job')) (jobId : String) :
    JobStep (if job.jobId = jobId then n else 0) (s.jobs.get? jobId)
      ((s.putJob job').jobs.get? jobId) := by
  rw [putJob_jobs, Table.get?_put, h.jobId]
  by_cases hjobId : job.jobId = jobId
  · rw [if_pos hjobId, if_pos hjobId, ← hjobId, hjob]
    exact h
  · rw [if_neg hjobId, if_neg hjobId]
    exact .same

/-- Ending a job is a step of it and of no other. -/
theorem jobStep_end {job job' : Job} (hjob : s.jobs.get? job.jobId = some job) (h : job.Ends job')
    (jobId : String) : JobStep 0 (s.jobs.get? jobId) ((s.putJob job').jobs.get? jobId) := by
  simpa using jobStep_putJob hjob (.ended h) jobId

/-- Claiming is a step of the job that is claimed. -/
theorem claim_jobStep (workerId : String) (now : Datetime) (jobTypes : Option (Finset JobType))
    (jobId : String) :
    JobStep (claims jobId (exec s (.claim workerId now jobTypes)).1) (s.jobs.get? jobId)
      ((exec s (.claim workerId now jobTypes)).2.jobs.get? jobId) := by
  simp only [exec, claim]
  cases hnext : s.next? now jobTypes with
  | none => exact .same
  | some job =>
      obtain ⟨hjob, hstatus, -, hattempts, -⟩ := next?_eq_some hnext
      exact jobStep_putJob hjob (.claimed hstatus hattempts) jobId

/-- A job that is running succeeds. -/
theorem succeed_ok {jobId : String} {result : Json.Fields} {now : Datetime} {job' : Job}
    (h : s.succeed jobId result now = .ok (job', s')) :
    ∃ job, s.jobs.get? job.jobId = some job ∧ job.jobId = jobId ∧ job.Ends job' ∧
      s' = s.putJob job' := by
  unfold succeed finish at h
  cases hrunning : s.requireRunning jobId with
  | error e => simp [hrunning, bind, Except.bind] at h
  | ok job =>
      obtain ⟨hjob, hstatus⟩ := requireRunning_ok hrunning
      simp only [hrunning, bind, Except.bind, pure, Except.pure, Except.ok.injEq,
        Prod.mk.injEq] at h
      obtain ⟨rfl, rfl⟩ := h
      have hid := Table.key_of_get? hjob
      exact ⟨job, hid ▸ hjob, hid, .succeeded hstatus, rfl⟩

/-- A job that is running fails. -/
theorem fail_ok {jobId safeErrorCode : String} {clock : ℕ → Datetime} {retryDelay : Int}
    {job' : Job} (h : s.fail jobId safeErrorCode clock retryDelay = .ok (job', s')) :
    ∃ job, s.jobs.get? job.jobId = some job ∧ job.jobId = jobId ∧ job.Ends job' ∧
      s' = s.putJob job' := by
  unfold fail at h
  cases hrunning : s.requireRunning jobId with
  | error e => simp [hrunning, bind, Except.bind] at h
  | ok job =>
      obtain ⟨hjob, hstatus⟩ := requireRunning_ok hrunning
      simp only [hrunning, bind, Except.bind, pure, Except.pure, Except.ok.injEq,
        Prod.mk.injEq] at h
      obtain ⟨rfl, rfl⟩ := h
      have hid := Table.key_of_get? hjob
      exact ⟨job, hid ▸ hjob, hid, .released hstatus, rfl⟩

/-- The loop leaves the jobs that it does not come to. -/
theorem recoverAll_other {staleBefore : Datetime} {safeErrorCode : String} {jobs : List Job}
    {clock : ℕ → Datetime} {s : Repository} {id : String} (h : ∀ job ∈ jobs, job.jobId ≠ id) :
    (recoverAll staleBefore safeErrorCode jobs clock s).2.jobs.get? id = s.jobs.get? id := by
  induction jobs generalizing clock s with
  | nil => rfl
  | cons job rest ih =>
      have hrest := fun job' hjob' => h job' (List.mem_cons_of_mem _ hjob')
      unfold recoverAll
      by_cases hstale : job.Stale staleBefore
      · rw [if_pos hstale]
        refine (ih hrest).trans ?_
        rw [putJob_jobs]
        exact Table.get?_put_of_ne _ (h job List.mem_cons_self)
      · rw [if_neg hstale]
        exact ih hrest

/-- The loop releases stale jobs, each at most once. -/
theorem recoverAll_jobStep {staleBefore : Datetime} {safeErrorCode : String} {jobs : List Job}
    {clock : ℕ → Datetime} {s : Repository} (hnodup : (jobs.map Job.jobId).Nodup)
    (hjobs : ∀ job ∈ jobs, s.jobs.get? job.jobId = some job) (id : String) :
    JobStep 0 (s.jobs.get? id)
      ((recoverAll staleBefore safeErrorCode jobs clock s).2.jobs.get? id) := by
  induction jobs generalizing clock s with
  | nil => exact .same
  | cons job rest ih =>
      simp only [List.map_cons, List.nodup_cons] at hnodup
      have hjob := hjobs job List.mem_cons_self
      have hrest := fun job' hjob' => hjobs job' (List.mem_cons_of_mem _ hjob')
      have hother : ∀ job' ∈ rest, job'.jobId ≠ job.jobId := by
        intro job' hjob' hid
        exact hnodup.1 (hid ▸ List.mem_map_of_mem hjob')
      unfold recoverAll
      by_cases hstale : job.Stale staleBefore
      · rw [if_pos hstale]
        by_cases hid : job.jobId = id
        · -- the job is released, and not come to again
          subst hid
          change JobStep 0 _ ((recoverAll _ _ _ _ _).2.jobs.get? _)
          rw [recoverAll_other hother]
          exact jobStep_end hjob (.released hstale.1) job.jobId
        · have hput : ∀ job' ∈ rest, (s.putJob (job.released job.nextRetryAt safeErrorCode
              (clock 0))).jobs.get? job'.jobId = some job' := by
            intro job' hjob'
            rw [putJob_jobs]
            rw [Table.get?_put_of_ne]
            · exact hrest job' hjob'
            · exact Ne.symm (hother job' hjob')
          have hstep := @ih (if job.Terminal then fun n => clock (n + 1) else clock) _ hnodup.2 hput
          rw [putJob_jobs, Table.get?_put_of_ne _ (by simpa using hid)] at hstep
          exact hstep
      · rw [if_neg hstale]
        exact ih hnodup.2 hrest

/-- Recovery makes no key and drops none. -/
theorem recoverAll_idempotency (staleBefore : Datetime) (safeErrorCode : String) (jobs : List Job)
    (clock : ℕ → Datetime) (s : Repository) :
    (recoverAll staleBefore safeErrorCode jobs clock s).2.idempotency = s.idempotency := by
  induction jobs generalizing clock s with
  | nil => rfl
  | cons job rest ih =>
      unfold recoverAll
      by_cases hstale : job.Stale staleBefore
      · rw [if_pos hstale]
        exact (ih _ _).trans rfl
      · rw [if_neg hstale]
        exact ih clock s

end Repository

/-- The key of an enqueue. -/
def key? : Command → Option IdempotencyKey
  | .enqueue command _ _ => some command.key
  | _ => none

/-- What an operation does to the repository. -/
inductive Effect (s : Repository) : Command → Except JobError Reply → Repository → Prop where
  | found {command jobId createdAt reply item}
      (hitem : s.idempotency.get? command.key = some item)
      (hreply : ∀ id, claims id reply = 0) : Effect s (.enqueue command jobId createdAt) reply s
  | added {command jobId createdAt} (hnone : s.idempotency.get? command.key = none) :
      Effect s (.enqueue command jobId createdAt)
        (.ok (.job (Job.ofCommand command jobId createdAt)))
        ⟨s.jobs.put (Job.ofCommand command jobId createdAt), s.idempotency.put (command.key, jobId)⟩
  | moved {c reply s'} (hc : key? c = none) (hkeys : s'.idempotency = s.idempotency)
      (hjobs : ∀ id, JobStep (claims id reply) (s.jobs.get? id) (s'.jobs.get? id)) :
      Effect s c reply s'

open Repository in
/-- What each call may do to the repository. -/
theorem exec_effect (s : Repository) (c : Command) : Effect s c (exec s c).1 (exec s c).2 := by
  -- only an enqueue adds a job; every other command moves jobs that are there
  cases c with
  | enqueue command jobId createdAt =>
      simp only [exec, enqueue]
      cases hkey : s.idempotency.get? command.key with
      | some item =>
          cases hjob : s.jobs.get? item.2 <;> simp only [hjob] <;> exact .found hkey fun _ => rfl
      | none => exact .added hkey
  | claim workerId now jobTypes =>
      refine .moved rfl ?_ fun id => claim_jobStep ..
      simp only [exec, claim]
      cases s.next? now jobTypes <;> rfl
  | succeed jobId result now =>
      simp only [exec]
      cases h : s.succeed jobId result now with
      | error e => exact .moved rfl rfl fun id => .same
      | ok p =>
          obtain ⟨job, hjob, -, hends, hs'⟩ := succeed_ok h
          exact .moved rfl (by rw [settle, hs']; rfl) fun id => hs' ▸ jobStep_end hjob hends id
  | fail jobId safeErrorCode clock retryDelay =>
      simp only [exec]
      cases h : s.fail jobId safeErrorCode clock retryDelay with
      | error e => exact .moved rfl rfl fun id => .same
      | ok p =>
          obtain ⟨job, hjob, -, hends, hs'⟩ := fail_ok h
          exact .moved rfl (by rw [settle, hs']; rfl) fun id => hs' ▸ jobStep_end hjob hends id
  | recoverStale staleBefore clock safeErrorCode =>
      refine .moved rfl (recoverAll_idempotency ..) fun id => ?_
      exact recoverAll_jobStep s.jobs.nodup (fun job hjob => Table.get?_of_mem hjob) id

end Alos.Jobs
