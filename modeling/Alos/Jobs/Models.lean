import Mathlib.Data.Finset.Basic
import Alos.Py
import Alos.Table

/-! # Jobs

The records of `alos.jobs.models`.

* A job is `Consistent` when its status, its lease, its attempts and its
  completion fit together;
* `JobStep` lists what one operation may do to the job under one id, and
  `JobStep.consistent` is the step lemma.
-/

namespace Alos.Jobs

open Py

/-- The kinds of jobs. -/
inductive JobType where
  | documentExtraction
  | documentIndexing
  | genesisRequest
  | scheduledReport
  | recurringMonitor
  | notification
  | connectorSync
deriving DecidableEq, Repr

/-- The text of a kind. -/
def JobType.value : JobType → String
  | .documentExtraction => "DOCUMENT_EXTRACTION"
  | .documentIndexing => "DOCUMENT_INDEXING"
  | .genesisRequest => "GENESIS_REQUEST"
  | .scheduledReport => "SCHEDULED_REPORT"
  | .recurringMonitor => "RECURRING_MONITOR"
  | .notification => "NOTIFICATION"
  | .connectorSync => "CONNECTOR_SYNC"

/-- The states of a job. -/
inductive JobStatus where
  | queued
  | running
  | succeeded
  | failed
  | cancelled
deriving DecidableEq, Repr

/-- The fields of a command before `__post_init__` has checked them. -/
structure EnqueueFields where
  tenantId : String
  organizationId : String
  workspaceId : String
  jobType : JobType
  payload : Json.Fields
  correlationId : String
  idempotencyKey : String
  ownerActorId : Option String := none
  maxAttempts : Int := 3
  nextRetryAt : Datetime

/-- A command that has passed its `__post_init__`. -/
structure EnqueueJob extends EnqueueFields where
  key_length : 8 ≤ idempotencyKey.length
  attempts_range : 1 ≤ maxAttempts ∧ maxAttempts ≤ 20

/-- `EnqueueJob(...)`, or the message of its `ValueError`. -/
def EnqueueJob.ofFields (fields : EnqueueFields) : Except String EnqueueJob :=
  if hkey : 8 ≤ fields.idempotencyKey.length then
    if hattempts : 1 ≤ fields.maxAttempts ∧ fields.maxAttempts ≤ 20 then
      .ok { fields with key_length := hkey, attempts_range := hattempts }
    else .error "max_attempts must be between 1 and 20"
  else .error "idempotency_key must contain at least 8 characters"

/-- The key of `_idempotency`. -/
structure IdempotencyKey where
  organizationId : String
  jobType : JobType
  idempotencyKey : String
deriving DecidableEq, Repr

/-- The key that a command is known again by. -/
def EnqueueJob.key (command : EnqueueJob) : IdempotencyKey :=
  ⟨command.organizationId, command.jobType, command.idempotencyKey⟩

/-- A job as the repository holds it. -/
structure Job where
  jobId : String
  tenantId : String
  organizationId : String
  workspaceId : String
  jobType : JobType
  payload : Json.Fields
  status : JobStatus
  attempts : Int
  maxAttempts : Int
  nextRetryAt : Datetime
  correlationId : String
  idempotencyKey : String
  ownerActorId : Option String
  createdAt : Datetime
  lockedBy : Option String := none
  lockedAt : Option Datetime := none
  completedAt : Option Datetime := none
  safeErrorCode : Option String := none
  result : Option Json.Fields := none

namespace Job

/-- The key of the command the job was made of. -/
def key (job : Job) : IdempotencyKey := ⟨job.organizationId, job.jobType, job.idempotencyKey⟩

/-- The job that `enqueue` builds. -/
def ofCommand (command : EnqueueJob) (jobId : String) (createdAt : Datetime) : Job where
  jobId := jobId
  tenantId := command.tenantId
  organizationId := command.organizationId
  workspaceId := command.workspaceId
  jobType := command.jobType
  payload := command.payload
  status := .queued
  attempts := 0
  maxAttempts := command.maxAttempts
  nextRetryAt := command.nextRetryAt
  correlationId := command.correlationId
  idempotencyKey := command.idempotencyKey
  ownerActorId := command.ownerActorId
  createdAt := createdAt

/-- The job when a worker has taken it. -/
def claimed (job : Job) (workerId : String) (now : Datetime) : Job :=
  { job with
    status := .running
    attempts := job.attempts + 1
    lockedBy := some workerId
    lockedAt := some now }

/-- All attempts are used up. -/
def Terminal (job : Job) : Prop := job.maxAttempts ≤ job.attempts

instance (job : Job) : Decidable job.Terminal := inferInstanceAs (Decidable (_ ≤ _))

/-- The lease ends without a result. -/
def released (job : Job) (nextRetryAt : Datetime) (safeErrorCode : String) (now : Datetime) : Job :=
  { job with
    status := if job.Terminal then .failed else .queued
    nextRetryAt := nextRetryAt
    lockedBy := none
    lockedAt := none
    completedAt := if job.Terminal then some now else none
    safeErrorCode := some safeErrorCode }

/-- The job when it is over. -/
def finished (job : Job) (status : JobStatus) (result : Json.Fields) (now : Datetime) : Job :=
  { job with
    status := status
    result := some result
    completedAt := some now
    lockedBy := none
    lockedAt := none }

@[simp] theorem ofCommand_jobId (command : EnqueueJob) (jobId : String) (createdAt : Datetime) :
    (ofCommand command jobId createdAt).jobId = jobId := rfl

@[simp] theorem claimed_jobId (job : Job) (workerId : String) (now : Datetime) :
    (job.claimed workerId now).jobId = job.jobId := rfl

@[simp] theorem released_jobId (job : Job) (nextRetryAt : Datetime) (safeErrorCode : String)
    (now : Datetime) : (job.released nextRetryAt safeErrorCode now).jobId = job.jobId := rfl

@[simp] theorem finished_jobId (job : Job) (status : JobStatus) (result : Json.Fields)
    (now : Datetime) : (job.finished status result now).jobId = job.jobId := rfl

/-- `claim` may take the job. -/
def Eligible (job : Job) (now : Datetime) (jobTypes : Option (Finset JobType)) : Prop :=
  job.status = .queued ∧ job.nextRetryAt ≤ now ∧ job.attempts < job.maxAttempts ∧
    ∀ types ∈ jobTypes, job.jobType ∈ types

instance (job : Job) (now : Datetime) (jobTypes : Option (Finset JobType)) :
    Decidable (job.Eligible now jobTypes) :=
  inferInstanceAs (Decidable (_ ∧ _ ∧ _ ∧ _))

/-- The lease of the job began before `staleBefore`. -/
def Stale (job : Job) (staleBefore : Datetime) : Prop :=
  job.status = .running ∧ ∃ lockedAt ∈ job.lockedAt, lockedAt < staleBefore

instance (job : Job) (staleBefore : Datetime) : Decidable (job.Stale staleBefore) := by
  unfold Stale
  infer_instance

/-! ## Consistent jobs -/

structure Consistent (job : Job) : Prop where
  attempts : 0 ≤ job.attempts ∧ job.attempts ≤ job.maxAttempts
  lease : job.status = .running ↔ job.lockedBy.isSome ∧ job.lockedAt.isSome
  unlocked : job.status ≠ .running → job.lockedBy = none ∧ job.lockedAt = none
  queued : job.status = .queued → job.attempts < job.maxAttempts
  completed : job.completedAt.isSome ↔ job.status = .succeeded ∨ job.status = .failed

/-- A new job is consistent. -/
theorem consistent_ofCommand (command : EnqueueJob) (jobId : String) (createdAt : Datetime) :
    (ofCommand command jobId createdAt).Consistent where
  attempts := by
    have hrange := command.attempts_range
    simp only [ofCommand]
    omega
  lease := by simp [ofCommand]
  unlocked := fun _ => ⟨rfl, rfl⟩
  queued := by
    have hrange := command.attempts_range
    simp only [ofCommand]
    omega
  completed := by simp [ofCommand]

variable {job job' : Job}

/-- A job that is not over has no time of completion. -/
theorem Consistent.not_completed (h : job.Consistent)
    (hlive : job.status = .queued ∨ job.status = .running) : job.completedAt = none := by
  have hiff := h.completed
  rcases hlive with hstatus | hstatus <;> simpa [hstatus] using hiff

/-- A job that is claimed within its attempts stays consistent. -/
theorem Consistent.claimed (h : job.Consistent) (hstatus : job.status = .queued)
    (hlt : job.attempts < job.maxAttempts) (workerId : String) (now : Datetime) :
    (job.claimed workerId now).Consistent where
  attempts := by
    have hattempts := h.attempts
    simp only [Job.claimed]
    omega
  lease := by simp [Job.claimed]
  unlocked := fun hne => absurd rfl hne
  queued := by simp [Job.claimed]
  completed := by simp [Job.claimed, h.not_completed (.inl hstatus)]

/-- So does a job that succeeds. -/
theorem Consistent.finished (h : job.Consistent) (result : Json.Fields) (now : Datetime) :
    (job.finished .succeeded result now).Consistent where
  attempts := h.attempts
  lease := by simp [Job.finished]
  unlocked := fun _ => ⟨rfl, rfl⟩
  queued := by simp [Job.finished]
  completed := by simp [Job.finished]

/-- A job that goes back to the queue has an attempt left. -/
theorem Consistent.released (h : job.Consistent) (nextRetryAt : Datetime) (safeErrorCode : String)
    (now : Datetime) : (job.released nextRetryAt safeErrorCode now).Consistent := by
  by_cases hterminal : job.Terminal
  · constructor
    · exact h.attempts
    · simp [Job.released, hterminal]
    · exact fun _ => ⟨rfl, rfl⟩
    · simp [Job.released, hterminal]
    · simp [Job.released, hterminal]
  · constructor
    · exact h.attempts
    · simp [Job.released, hterminal]
    · exact fun _ => ⟨rfl, rfl⟩
    · intro _
      exact not_le.1 hterminal
    · simp [Job.released, hterminal]

end Job

/-- The end of a lease. -/
inductive Job.Ends (job : Job) : Job → Prop where
  | succeeded {result now} (hstatus : job.status = .running) :
      Ends job (job.finished .succeeded result now)
  | released {nextRetryAt safeErrorCode now} (hstatus : job.status = .running) :
      Ends job (job.released nextRetryAt safeErrorCode now)

/-- What an operation other than `enqueue` does to the job under one id, and how
often it claims it. -/
inductive JobStep : ℕ → Option Job → Option Job → Prop where
  | same {found} : JobStep 0 found found
  | claimed {job workerId now} (hstatus : job.status = .queued)
      (hattempts : job.attempts < job.maxAttempts) :
      JobStep 1 (some job) (some (job.claimed workerId now))
  | ended {job job'} (h : job.Ends job') : JobStep 0 (some job) (some job')

namespace JobStep

variable {n : ℕ} {job job' : Job} {found found' : Option Job}

/-- Each change of a job keeps it consistent. -/
theorem consistent (h : JobStep n found found') (hfound : ∀ job ∈ found, job.Consistent) :
    ∀ job ∈ found', job.Consistent := by
  rintro _ ⟨⟩
  cases h with
  | same => exact hfound _ rfl
  | claimed hstatus hlt => exact (hfound _ rfl).claimed hstatus hlt _ _
  | ended hends =>
      cases hends with
      | succeeded hstatus => exact (hfound _ rfl).finished _ _
      | released hstatus => exact (hfound _ rfl).released _ _ _

/-- Each change of a job keeps its id. -/
theorem jobId (h : JobStep n (some job) (some job')) : job'.jobId = job.jobId := by
  cases h with
  | same => rfl
  | claimed hstatus hlt => rfl
  | ended hends => cases hends <;> rfl

/-- Nothing is removed, and the number of attempts is that of the claims. -/
theorem attempts (h : JobStep n (some job) found') :
    ∃ job', found' = some job' ∧ job'.key = job.key ∧ job'.attempts = job.attempts + n := by
  cases h with
  | same => exact ⟨job, rfl, rfl, by omega⟩
  | claimed hstatus hlt => exact ⟨_, rfl, rfl, rfl⟩
  | ended hends => cases hends <;> exact ⟨_, rfl, rfl, by simp [Job.finished, Job.released]⟩

/-- Nothing is added. -/
theorem none_left (h : JobStep n none found') : found' = none ∧ n = 0 := by
  cases h
  exact ⟨rfl, rfl⟩

/-- A job that is over stays as it is. -/
theorem finished (h : JobStep n (some job) found')
    (hover : job.status = .succeeded ∨ job.status = .failed) : found' = some job := by
  cases h with
  | same => rfl
  | claimed hstatus hlt => simp [hstatus] at hover
  | ended hends => cases hends <;> simp_all

end JobStep

end Alos.Jobs
