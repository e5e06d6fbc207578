import Alos.Jobs.Queue
import Alos.Measure

/-! # The queue drains

Claims, completions, failures and recoveries in any order, by workers that may
stop at any point, while nothing is enqueued.

* `Job.rank` is what can still be done with a job, and `exec_rank`: what an
  operation does comes off the ranks;
* `Quiet` is a queue with which no worker has anything to do, whatever the time;
* `queue_drains` is the result: the work is bounded, and a quiet queue is done.
-/

namespace Alos.Jobs

open Py

/-! ## The work that is left -/

/-- Two steps for every attempt that is left, a claim and its end, and one for
the end of the current attempt. -/
def Job.rank (job : Job) : ℕ :=
  match job.status with
  | .queued => 2 * (job.maxAttempts - job.attempts).toNat
  | .running => 2 * (job.maxAttempts - job.attempts).toNat + 1
  | _ => 0

theorem Job.rank_claimed {job : Job} (hstatus : job.status = .queued)
    (hattempts : job.attempts < job.maxAttempts) (workerId : String) (now : Datetime) :
    (job.claimed workerId now).rank + 1 ≤ job.rank := by
  simp only [rank, hstatus, Job.claimed]
  omega

theorem Job.Ends.rank {job job' : Job} (h : job.Ends job') : job'.rank + 1 ≤ job.rank := by
  cases h with
  | succeeded hstatus =>
      simp only [Job.rank, hstatus, Job.finished]
      omega
  | released hstatus =>
      by_cases hterminal : job.Terminal
      · simp only [Job.rank, hstatus, Job.released, hterminal, if_true]
        omega
      · simp only [Job.rank, hstatus, Job.released, hterminal, if_false]
        omega

namespace Repository

/-- The work that is left with all jobs. -/
def rank (s : Repository) : ℕ := (s.jobs.values.map Job.rank).sum

/-- A job that is taken further. -/
theorem rank_putJob {s : Repository} {job job' : Job} (hjob : s.jobs.get? job.jobId = some job)
    (hid : job'.jobId = job.jobId) (hrank : job'.rank + 1 ≤ job.rank) :
    (s.putJob job').rank + 1 ≤ s.rank := by
  have hget : s.jobs.get? job'.jobId = some job := by rw [hid]; exact hjob
  have hsum := sum_put Job.rank hget
  unfold rank
  rw [putJob_jobs]
  omega

theorem rank_end {s : Repository} {job job' : Job} (hjob : s.jobs.get? job.jobId = some job)
    (h : job.Ends job') : (s.putJob job').rank + 1 ≤ s.rank :=
  rank_putJob hjob (JobStep.ended h).jobId h.rank

/-- Every job that is recovered comes off. -/
theorem recoverAll_rank {staleBefore : Datetime} {safeErrorCode : String} {jobs : List Job}
    {clock : ℕ → Datetime} {s : Repository} (hnodup : (jobs.map Job.jobId).Nodup)
    (hjobs : ∀ job ∈ jobs, s.jobs.get? job.jobId = some job) :
    (recoverAll staleBefore safeErrorCode jobs clock s).2.rank +
      (recoverAll staleBefore safeErrorCode jobs clock s).1.length ≤ s.rank := by
  induction jobs generalizing clock s with
  | nil => exact le_refl _
  | cons job rest ih =>
      simp only [List.map_cons, List.nodup_cons] at hnodup
      have hrest := fun job' hjob' => hjobs job' (List.mem_cons_of_mem _ hjob')
      unfold recoverAll
      by_cases hstale : job.Stale staleBefore
      · have hreleased : job.Ends (job.released job.nextRetryAt safeErrorCode (clock 0)) :=
          .released hstale.1
        have hend := rank_end (hjobs job List.mem_cons_self) hreleased
        -- the rest of the loop finds the other jobs as they were
        have hput : ∀ job' ∈ rest, (s.putJob (job.released job.nextRetryAt safeErrorCode
            (clock 0))).jobs.get? job'.jobId = some job' := by
          intro job' hjob'
          rw [putJob_jobs, Table.get?_put_of_ne]
          · exact hrest job' hjob'
          · rw [Job.released_jobId]
            intro hid
            exact hnodup.1 (hid ▸ List.mem_map_of_mem hjob')
        have hloop := @ih (if job.Terminal then fun n => clock (n + 1) else clock) _ hnodup.2 hput
        simp only [if_pos hstale, List.length_cons]
        omega
      · rw [if_neg hstale]
        exact ih hnodup.2 hrest

end Repository

/-- The jobs that the reply hands out, or says to be taken further. -/
def work : Except JobError Reply → ℕ
  | .ok (.job _) => 1
  | .ok (.claimed job) => if job.isSome then 1 else 0
  | .ok (.recovered jobs) => jobs.length
  | .error _ => 0

open Repository in
theorem exec_rank (s : Repository) (c : Command) (hc : key? c = none) :
    (exec s c).2.rank + work (exec s c).1 ≤ s.rank := by
  -- every command but an enqueue leaves the rank or lowers it
  cases c with
  | enqueue command jobId createdAt => cases hc
  | claim workerId now jobTypes =>
      simp only [exec, claim]
      cases hnext : s.next? now jobTypes with
      | none => exact le_refl _
      | some job =>
          obtain ⟨hjob, hstatus, -, hattempts, -⟩ := next?_eq_some hnext
          exact rank_putJob hjob rfl (Job.rank_claimed hstatus hattempts workerId now)
  | succeed jobId result now =>
      simp only [exec]
      cases h : s.succeed jobId result now with
      | error e => exact le_refl _
      | ok p =>
          obtain ⟨job, hjob, -, hends, hs'⟩ := succeed_ok h
          rw [settle, hs']
          exact rank_end hjob hends
  | fail jobId safeErrorCode clock retryDelay =>
      simp only [exec]
      cases h : s.fail jobId safeErrorCode clock retryDelay with
      | error e => exact le_refl _
      | ok p =>
          obtain ⟨job, hjob, -, hends, hs'⟩ := fail_ok h
          rw [settle, hs']
          exact rank_end hjob hends
  | recoverStale staleBefore clock safeErrorCode =>
      exact recoverAll_rank s.jobs.nodup fun job hjob => Table.get?_of_mem hjob

/-! ## A quiet queue -/

/-- Whatever the time, no job is handed out and no lease is recovered. -/
structure Quiet (s : Repository) : Prop where
  claim : ∀ workerId now, (s.claim workerId now).1 = none
  recover : ∀ staleBefore clock, (s.recoverStale staleBefore clock).1 = []

/-- The job will not be touched again. -/
def Job.Over (job : Job) : Prop := job.status ≠ .queued ∧ job.status ≠ .running

theorem recoverAll_eq_nil {staleBefore : Datetime} {safeErrorCode : String} {jobs : List Job}
    {clock : ℕ → Datetime} {s : Repository} :
    (Repository.recoverAll staleBefore safeErrorCode jobs clock s).1 = [] ↔
      ∀ job ∈ jobs, ¬ job.Stale staleBefore := by
  induction jobs generalizing clock s with
  | nil => simp [Repository.recoverAll]
  | cons job rest ih =>
      unfold Repository.recoverAll
      by_cases hstale : job.Stale staleBefore
      · simp [hstale]
      · simp [hstale, ih]

theorem claim_eq_none {s : Repository} {workerId : String} {now : Datetime} :
    (s.claim workerId now).1 = none ↔ ∀ job ∈ s.jobs.values, ¬ job.Eligible now none := by
  rw [← Repository.next?_eq_none]
  unfold Repository.claim
  cases s.next? now none <;> simp

/-- A job that waits is claimed in time, one that is leased is recovered in
time. -/
theorem quiet_iff {s : Repository} (h : ∀ job ∈ s.jobs.values, job.Consistent) :
    Quiet s ↔ ∀ job ∈ s.jobs.values, job.Over := by
  constructor
  · intro hquiet job hjob
    constructor
    · intro hstatus
      -- a job that is queued would be claimed at the time of its retry
      have hclaim := claim_eq_none.1 (hquiet.claim "" job.nextRetryAt) job hjob
      exact hclaim ⟨hstatus, le_refl _, (h job hjob).queued hstatus, by simp⟩
    · intro hstatus
      -- a job that is running would be recovered after its lease
      have hlease := ((h job hjob).lease.1 hstatus).2
      rcases Option.isSome_iff_exists.1 hlease with ⟨lockedAt, hlockedAt⟩
      have hrecover := recoverAll_eq_nil.1 (hquiet.recover (lockedAt + 1) fun _ => 0) job hjob
      exact hrecover ⟨hstatus, lockedAt, hlockedAt, Int.lt_succ lockedAt⟩
  · intro hover
    constructor
    · intro workerId now
      rw [claim_eq_none]
      intro job hjob heligible
      exact (hover job hjob).1 heligible.1
    · intro staleBefore clock
      refine recoverAll_eq_nil.2 fun job hjob hstale => ?_
      exact (hover job hjob).2 hstale.1

/-! ## Every schedule -/

/-- The operations `ds` go on from what `cs` have left. -/
theorem repository_history (cs ds : List Command) :
    (history (cs ++ ds)).repository = (runWith exec (history cs).repository ds).2 := by
  rw [runWith_snd]
  induction ds using List.reverseRecOn with
  | nil => rw [List.append_nil, List.foldl_nil]
  | append_singleton ds d ih =>
      rw [← List.append_assoc, history_snoc, List.foldl_append, ← ih]
      rfl

/-- What becomes of the jobs that the operations `cs` have left, by whatever
operations follow. -/
structure Drains (cs : List Command) : Prop where
  /-- The claims, ends and recoveries of any schedule are bounded by the attempts
  that are left. -/
  bounded : ∀ ds, (∀ d ∈ ds, key? d = none) →
    ((runWith exec (history cs).repository ds).1.map work).sum ≤ (history cs).repository.rank
  /-- When nothing is left to do, at whatever time, every job is over, and the
  other way round. -/
  done : ∀ ds, (∀ d ∈ ds, key? d = none) →
    (Quiet (runWith exec (history cs).repository ds).2 ↔
      ∀ job ∈ (runWith exec (history cs).repository ds).2.jobs.values, job.Over)

theorem FreshIds.append {cs ds : List Command} (h : FreshIds cs) (hds : ∀ d ∈ ds, key? d = none) :
    FreshIds (cs ++ ds) := by
  intro pre c post hsplit command jobId createdAt hc
  subst hc
  rcases List.append_eq_append_iff.1 hsplit with ⟨as, hpre, hds'⟩ | ⟨bs, hcs, hpost⟩
  · -- nothing is enqueued after `cs`
    have hmem : Command.enqueue command jobId createdAt ∈ ds := by simp [hds']
    cases hds _ hmem
  · cases bs with
    | nil =>
        have hmem : Command.enqueue command jobId createdAt ∈ ds := by
          rw [List.nil_append] at hpost
          rw [← hpost]
          exact List.mem_cons_self
        cases hds _ hmem
    | cons b bs =>
        rw [List.cons_append, List.cons.injEq] at hpost
        exact h pre _ bs (by rw [hcs, ← hpost.1]) command jobId createdAt rfl

theorem queue_drains {cs : List Command} (h : FreshIds cs) : Drains cs where
  bounded := by
    intro ds hds
    have hwork := work_le_measure exec_rank (history cs).repository hds
    omega
  done := by
    intro ds hds
    rw [← repository_history]
    have hsound := sound_history (h.append hds)
    exact quiet_iff fun job hjob => hsound.consistent _ job (Table.get?_of_mem hjob)

/-- A job with two attempts. -/
theorem queue_drains_enqueued : Drains [.enqueue command "job-1" 0] := by
  apply queue_drains
  intro pre c post hcs command jobId createdAt hc
  subst hc
  rcases pre with _ | ⟨c₀, pre⟩
  · rfl
  · simp at hcs

/-- The job is claimed, recovered, claimed again and failed. -/
example : ((runWith exec (history [.enqueue command "job-1" 0]).repository
    [.claim "worker-1" 1 none, .recoverStale 5 (fun n => 5 + n) "STALE_LEASE_RECOVERED",
      .claim "worker-2" 6 none, .fail "job-1" "FAILED" (fun n => 7 + n) 0,
      .claim "worker-1" 100 none]).1.map work) = [1, 1, 1, 1, 0] := by
  decide +kernel

end Alos.Jobs
