import Alos.Containers
import Alos.Jobs.Queue

/-! # The job that answers a command

The key of `_idempotency` is the organization, the type and the idempotency key of a
command. A job has a tenant, a workspace and a payload besides.

* `Honest` is what a caller of `enqueue` counts on;
* `honest_iff`: he may, exactly when the key leads to no other work;
* `Sound.same_key`: in a run the key vouches for the organization and the type.
-/

namespace Alos.Jobs

open Py

section Idempotency

variable (whole : FloatText → Option Int)

/-- The job is the work that the command asks for. -/
structure Carries (command : EnqueueJob) (job : Job) : Prop where
  tenantId : job.tenantId = command.tenantId
  organizationId : job.organizationId = command.organizationId
  workspaceId : job.workspaceId = command.workspaceId
  jobType : job.jobType = command.jobType
  payload : Equal whole (.obj job.payload) (.obj command.payload)

/-- The job under the key of the command. -/
def Repository.underKey (s : Repository) (command : EnqueueJob) (job : Job) : Prop :=
  ∃ jobId, s.idempotency.get? command.key = some (command.key, jobId) ∧
    s.jobs.get? jobId = some job

/-- A command is answered with its own work, which is held, and a key that is used
for other work is rejected. -/
structure Honest (s : Repository) (command : EnqueueJob) (jobId : String) (createdAt : Datetime) :
    Prop where
  holds : ∀ job s', s.enqueue command jobId createdAt = .ok (job, s') →
    s'.jobs.get? job.jobId = some job ∧ Carries whole command job
  rejects : ∀ job, s.underKey command job → ¬ Carries whole command job →
    ∃ e, s.enqueue command jobId createdAt = .error e

/-- The job that the key leads to, if any, is of the tenant and the workspace and has
the payload; and it is of the organization and the type. -/
def SameWork (s : Repository) (command : EnqueueJob) : Prop :=
  ∀ job, s.underKey command job →
    job.tenantId = command.tenantId ∧ job.workspaceId = command.workspaceId ∧
      Equal whole (.obj job.payload) (.obj command.payload) ∧
      job.organizationId = command.organizationId ∧ job.jobType = command.jobType

variable {whole} {s : Repository} {command : EnqueueJob} {jobId : String} {createdAt : Datetime}

theorem carries_ofCommand (command : EnqueueJob) (jobId : String) (createdAt : Datetime) :
    Carries whole command (Job.ofCommand command jobId createdAt) :=
  ⟨rfl, rfl, rfl, rfl, Equal.refl _⟩

/-- The job under the key is returned, whatever the command asks for. -/
theorem enqueue_underKey {job : Job} (h : s.underKey command job) :
    s.enqueue command jobId createdAt = .ok (job, s) := by
  rcases h with ⟨existingId, hkey, hjob⟩
  unfold Repository.enqueue
  rw [hkey]
  simp only [hjob]

/-- What is returned is the job under the key, or a new one. -/
theorem enqueue_returns {job : Job} {s' : Repository}
    (h : s.enqueue command jobId createdAt = .ok (job, s')) :
    (s.underKey command job ∧ s' = s) ∨
      s.idempotency.get? command.key = none ∧ job = Job.ofCommand command jobId createdAt ∧
        s'.jobs = s.jobs.put job := by
  unfold Repository.enqueue at h
  -- the key is free, or leads to a job
  cases hkey : s.idempotency.get? command.key with
  | none =>
      rw [hkey] at h
      cases h
      exact .inr ⟨rfl, rfl, rfl⟩
  | some item =>
      rcases item with ⟨key, existingId⟩
      have hfst : key = command.key := Table.key_of_get? hkey
      subst hfst
      rw [hkey] at h
      simp only at h
      cases hjob : s.jobs.get? existingId with
      | none =>
          rw [hjob] at h
          cases h
      | some existing =>
          rw [hjob] at h
          cases h
          exact .inl ⟨⟨existingId, hkey, hjob⟩, rfl⟩

theorem honest_iff (whole : FloatText → Option Int) (s : Repository) (command : EnqueueJob)
    (jobId : String) (createdAt : Datetime) :
    Honest whole s command jobId createdAt ↔ SameWork whole s command := by
  constructor
  · intro h job hunder
    -- the job under the key carries the command, so both ways of returning are honest
    have hcarries := (h.holds job s (enqueue_underKey hunder)).2
    exact ⟨hcarries.tenantId, hcarries.workspaceId, hcarries.payload, hcarries.organizationId,
      hcarries.jobType⟩
  · intro h
    have hcarries : ∀ job, s.underKey command job → Carries whole command job := by
      intro job hunder
      rcases h job hunder with ⟨htenant, hworkspace, hpayload, horganization, htype⟩
      exact ⟨htenant, horganization, hworkspace, htype, hpayload⟩
    constructor
    · intro job s' hjob
      rcases enqueue_returns hjob with ⟨hunder, rfl⟩ | ⟨-, rfl, hjobs⟩
      · refine ⟨?_, hcarries job hunder⟩
        rcases hunder with ⟨existingId, -, hget⟩
        have hid := Table.key_of_get? hget
        rw [hid]
        exact hget
      · rw [hjobs]
        exact ⟨Table.get?_put_self _ _, carries_ofCommand command jobId createdAt⟩
    · intro job hunder hdiffers
      exact absurd (hcarries job hunder) hdiffers

/-- After any operations the job under a key is of its organization and type. -/
theorem Sound.same_key {h : History} (hsound : Sound h) {job : Job}
    (hunder : h.repository.underKey command job) :
    job.organizationId = command.organizationId ∧ job.jobType = command.jobType := by
  rcases hunder with ⟨existingId, hkey, hget⟩
  rcases hsound.keyed.job _ _ (Table.mem_of_get? hkey) with ⟨job', hjob', hsame⟩
  rw [hget] at hjob'
  cases hjob'
  simp only [Job.key, EnqueueJob.key, IdempotencyKey.mk.injEq] at hsame
  exact ⟨hsame.1, hsame.2.1⟩

end Idempotency

/-- Another tenant asks for other work under the same key. -/
def foreignCommand : EnqueueJob :=
  { command with
    tenantId := "tenant_002"
    workspaceId := "workspace_002"
    payload := [("request_id", .str "request_002")] }

/-- It is answered with the job of the first one. -/
theorem answered_with_the_work_of_others :
    ¬ Honest (fun _ => none) (history [.enqueue command "job-1" 0]).repository foreignCommand
      "job-2" 1 := by
  intro h
  have hholds := h.holds (Job.ofCommand command "job-1" 0) _ rfl
  exact absurd hholds.2.tenantId (by decide)

end Alos.Jobs
