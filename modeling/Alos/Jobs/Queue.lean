import Mathlib.Algebra.GroupWithZero.Nat
import Mathlib.Data.List.Induction
import Mathlib.Data.Set.Function
import Alos.Jobs.Repository

/-! # The job queue

What holds after any operations on the repository, by any workers in any order.

* `Sound` is the invariant, `Sound.step` its step lemma: jobs are consistent,
  claims are counted by the attempts, and every key leads to its job;
* `queue_law` is the result, and with it that no job is stuck in the queue.
-/

namespace Alos.Jobs

open Py

/-- The repository, and the operations that made it with their replies. -/
structure History where
  repository : Repository
  log : List (Command × Except JobError Reply)

namespace History

/-- Before the first command. -/
def empty : History := ⟨.empty, []⟩

/-- The operation `c` replied `reply` and left the repository `s`. -/
def add (h : History) (c : Command) (reply : Except JobError Reply) (s : Repository) : History :=
  ⟨s, h.log ++ [(c, reply)]⟩

/-- A command is executed on the queue, and recorded with its reply. -/
def step (h : History) (c : Command) : History :=
  h.add c (exec h.repository c).1 (exec h.repository c).2

/-- How often the job under the id was handed out. -/
def claims (h : History) (jobId : String) : ℕ := (h.log.map fun e => Jobs.claims jobId e.2).sum

/-- The keys that were enqueued. -/
def enqueued (h : History) : List IdempotencyKey := h.log.filterMap fun e => key? e.1

variable (h : History) (c : Command) (reply : Except JobError Reply) (s : Repository)

/-- The queue after a command is what the command leaves. -/
@[simp] theorem add_repository : (h.add c reply s).repository = s := rfl

/-- A claim counts for the job that it hands out. -/
@[simp] theorem add_claims (jobId : String) :
    (h.add c reply s).claims jobId = h.claims jobId + Jobs.claims jobId reply := by
  simp [add, claims]

/-- A key counts as enqueued from the first command that enqueues under it. -/
theorem mem_add_enqueued (key : IdempotencyKey) :
    key ∈ (h.add c reply s).enqueued ↔ key ∈ h.enqueued ∨ key? c = some key := by
  simp [add, enqueued, List.filterMap_append]

end History

/-- The operations `cs`, from an empty repository. -/
def history (cs : List Command) : History := cs.foldl History.step .empty

/-- A history grows at its end. -/
theorem history_snoc (cs : List Command) (c : Command) :
    history (cs ++ [c]) = (history cs).step c := by
  simp [history]

/-- A generated id is not in use. -/
def Fresh (s : Repository) (c : Command) : Prop :=
  ∀ command jobId createdAt, c = .enqueue command jobId createdAt → s.jobs.get? jobId = none

/-- No command of the list makes a job id that is taken when it comes. -/
def FreshIds (cs : List Command) : Prop :=
  ∀ pre c post, cs = pre ++ c :: post → Fresh (history pre).repository c

/-! ## The invariant -/

/-- Every key leads to its job. -/
structure Keyed (s : Repository) : Prop where
  job : ∀ key id, (key, id) ∈ s.idempotency.values → ∃ job, s.jobs.get? id = some job ∧ job.key = key
  key : ∀ id job, s.jobs.get? id = some job → (job.key, id) ∈ s.idempotency.values

/-- What holds of a history at every point, and from which the law of the queue is read off. -/
structure Sound (h : History) : Prop where
  consistent : ∀ id job, h.repository.jobs.get? id = some job → job.Consistent
  attempts : ∀ id job, h.repository.jobs.get? id = some job → job.attempts = h.claims id
  unclaimed : ∀ id, h.repository.jobs.get? id = none → h.claims id = 0
  keyed : Keyed h.repository
  enqueued : ∀ key, key ∈ h.enqueued ↔ ∃ id, (key, id) ∈ h.repository.idempotency.values

/-- Nothing is queued at the start. -/
theorem sound_empty : Sound .empty where
  consistent := by
    intro id job hjob
    cases hjob
  attempts := by
    intro id job hjob
    cases hjob
  unclaimed := fun _ _ => rfl
  keyed := by
    constructor
    · intro key id hmem
      cases hmem
    · intro id job hjob
      cases hjob
  enqueued := by
    intro key
    simp [History.empty, History.enqueued, Repository.empty, Table.empty]

/-- A key that is known is enqueued again. -/
theorem Sound.found {h : History} (hsound : Sound h) {command : EnqueueJob} {jobId : String}
    {createdAt : Datetime} {reply : Except JobError Reply} {item : IdempotencyKey × String}
    (hitem : h.repository.idempotency.get? command.key = some item)
    (hreply : ∀ id, claims id reply = 0) :
    Sound (h.add (.enqueue command jobId createdAt) reply h.repository) := by
  refine ⟨?_, ?_, ?_, hsound.keyed, ?_⟩
  all_goals simp only [History.add_repository, History.add_claims, hreply, Nat.add_zero]
  · exact hsound.consistent
  · exact hsound.attempts
  · exact hsound.unclaimed
  -- a job that was found adds no key
  · intro key
    rw [History.mem_add_enqueued, hsound.enqueued]
    refine ⟨?_, .inl⟩
    rintro (hkey | ⟨⟨⟩⟩)
    · exact hkey
    · have hmem := Table.mem_of_get? hitem
      have hfst : item.1 = command.key := Table.key_of_get? hitem
      exact ⟨item.2, by rw [← hfst]; exact hmem⟩

/-- A job is added under a new id. -/
theorem Sound.added {h : History} (hsound : Sound h) {command : EnqueueJob} {jobId : String}
    {createdAt : Datetime} (hnone : h.repository.idempotency.get? command.key = none)
    (hid : h.repository.jobs.get? jobId = none) :
    Sound (h.add (.enqueue command jobId createdAt)
      (.ok (.job (Job.ofCommand command jobId createdAt)))
      ⟨h.repository.jobs.put (Job.ofCommand command jobId createdAt),
        h.repository.idempotency.put (command.key, jobId)⟩) := by
  have hnew : ∀ item ∈ h.repository.idempotency.values, item.1 ≠ command.key :=
    Table.get?_eq_none.1 hnone
  -- the job under an id is the new one, or was there before
  have hjobs : ∀ id job, (h.repository.jobs.put (Job.ofCommand command jobId createdAt)).get?
      id = some job → (id = jobId ∧ job = Job.ofCommand command jobId createdAt) ∨
        (id ≠ jobId ∧ h.repository.jobs.get? id = some job) := by
    intro id job hjob
    rw [Table.get?_put, Job.ofCommand_jobId] at hjob
    by_cases hne : jobId = id
    · rw [if_pos hne] at hjob
      exact .inl ⟨hne.symm, (Option.some.inj hjob).symm⟩
    · rw [if_neg hne] at hjob
      exact .inr ⟨Ne.symm hne, hjob⟩
  refine ⟨?_, ?_, ?_, ⟨?_, ?_⟩, ?_⟩
  all_goals simp only [History.add_repository, History.add_claims, claims, Nat.add_zero]
  · intro id job hjob
    rcases hjobs id job hjob with ⟨-, rfl⟩ | ⟨-, hjob⟩
    · exact Job.consistent_ofCommand ..
    · exact hsound.consistent id job hjob
  · intro id job hjob
    rcases hjobs id job hjob with ⟨rfl, rfl⟩ | ⟨-, hjob⟩
    · rw [hsound.unclaimed id hid]
      rfl
    · exact hsound.attempts id job hjob
  · intro id hjob
    rw [Table.get?_put] at hjob
    split at hjob
    · cases hjob
    · exact hsound.unclaimed id hjob
  · intro key id hmem
    rcases Table.mem_put.1 hmem with ⟨⟨⟩⟩ | ⟨hmem, -⟩
    · exact ⟨_, Table.get?_put_self .., rfl⟩
    · rcases hsound.keyed.job key id hmem with ⟨job, hjob, hkey⟩
      refine ⟨job, ?_, hkey⟩
      rw [Table.get?_put_of_ne]
      · exact hjob
      · rintro rfl
        rw [Job.ofCommand_jobId, hid] at hjob
        cases hjob
  · intro id job hjob
    rcases hjobs id job hjob with ⟨rfl, rfl⟩ | ⟨-, hjob⟩
    · exact Table.mem_put.2 (.inl rfl)
    · have hmem := hsound.keyed.key id job hjob
      exact Table.mem_put.2 (.inr ⟨hmem, hnew _ hmem⟩)
  · intro key
    rw [History.mem_add_enqueued, hsound.enqueued]
    constructor
    · rintro (⟨id, hmem⟩ | ⟨⟨⟩⟩)
      · exact ⟨id, Table.mem_put.2 (.inr ⟨hmem, hnew _ hmem⟩)⟩
      · exact ⟨jobId, Table.mem_put.2 (.inl rfl)⟩
    · rintro ⟨id, hmem⟩
      rcases Table.mem_put.1 hmem with ⟨⟨⟩⟩ | ⟨hmem, -⟩
      · exact .inr rfl
      · exact .inl ⟨id, hmem⟩

/-- Jobs are claimed, or end. -/
theorem Sound.moved {h : History} (hsound : Sound h) {c : Command} {reply : Except JobError Reply}
    {s' : Repository} (hc : key? c = none)
    (hkeys : s'.idempotency = h.repository.idempotency)
    (hjobs : ∀ id, JobStep (claims id reply) (h.repository.jobs.get? id) (s'.jobs.get? id)) :
    Sound (h.add c reply s') := by
  -- a job that is there was there before
  have hold : ∀ id job', s'.jobs.get? id = some job' →
      ∃ job, h.repository.jobs.get? id = some job ∧ job'.key = job.key ∧
        job'.attempts = job.attempts + claims id reply := by
    intro id job' hjob'
    have hstep := hjobs id
    rw [hjob'] at hstep
    cases hjob : h.repository.jobs.get? id with
    | none =>
        rw [hjob] at hstep
        cases hstep.none_left.1
    | some job =>
        rw [hjob] at hstep
        rcases hstep.attempts with ⟨job'', ⟨⟩, hkey, hattempts⟩
        exact ⟨job, rfl, hkey, hattempts⟩
  refine ⟨?_, ?_, ?_, ⟨?_, ?_⟩, ?_⟩
  all_goals simp only [History.add_repository, History.add_claims]
  · intro id job hjob
    exact (hjobs id).consistent (fun old hold => hsound.consistent id old hold) job hjob
  · intro id job' hjob'
    rcases hold id job' hjob' with ⟨job, hjob, -, hattempts⟩
    rw [hattempts, hsound.attempts id job hjob]
    rfl
  · intro id hnone
    cases hjob : h.repository.jobs.get? id with
    | none =>
        have hstep := hjobs id
        rw [hjob] at hstep
        rw [hsound.unclaimed id hjob, hstep.none_left.2]
    | some job =>
        have hstep := hjobs id
        rw [hjob, hnone] at hstep
        rcases hstep.attempts with ⟨job', ⟨⟩, -⟩
  · intro key id hmem
    rw [hkeys] at hmem
    rcases hsound.keyed.job key id hmem with ⟨job, hjob, hkey⟩
    have hstep := hjobs id
    rw [hjob] at hstep
    rcases hstep.attempts with ⟨job', hjob', hkey', -⟩
    exact ⟨job', hjob', hkey'.trans hkey⟩
  · intro id job' hjob'
    rcases hold id job' hjob' with ⟨job, hjob, hkey, -⟩
    rw [hkeys, hkey]
    exact hsound.keyed.key id job hjob
  · intro key
    rw [History.mem_add_enqueued, hsound.enqueued, hkeys, hc]
    simp

/-- One operation. -/
theorem Sound.add {h : History} (hsound : Sound h) {c : Command} {reply : Except JobError Reply}
    {s' : Repository} (heffect : Effect h.repository c reply s') (hfresh : Fresh h.repository c) :
    Sound (h.add c reply s') := by
  cases heffect with
  | found hitem hreply => exact hsound.found hitem hreply
  | added hnone => exact hsound.added hnone (hfresh _ _ _ rfl)
  | moved hc hkeys hjobs => exact hsound.moved hc hkeys hjobs

/-- Every history of fresh ids is sound. -/
theorem sound_history {cs : List Command} (h : FreshIds cs) : Sound (history cs) := by
  induction cs using List.reverseRecOn with
  | nil => exact sound_empty
  | append_singleton cs c ih =>
      rw [history_snoc]
      refine (ih fun pre c' post hcs => ?_).add (exec_effect ..) (h cs c [] rfl)
      exact h pre c' (post ++ [c]) (by simp [hcs])

/-! ## Every run -/

/-- A job is not removed, and not changed once it is over. -/
theorem Effect.kept {s s' : Repository} {c : Command} {reply : Except JobError Reply}
    (h : Effect s c reply s') (hfresh : Fresh s c) {id : String} {job : Job}
    (hjob : s.jobs.get? id = some job) :
    ∃ job', s'.jobs.get? id = some job' ∧
      (job.status = .succeeded ∨ job.status = .failed → job' = job) := by
  -- a job is found, added or moved, and the others stay
  cases h with
  | found => exact ⟨job, hjob, fun _ => rfl⟩
  | added hnone =>
      have hid := hfresh _ _ _ rfl
      refine ⟨job, ?_, fun _ => rfl⟩
      rw [Table.get?_put_of_ne]
      · exact hjob
      · rintro rfl
        rw [Job.ofCommand_jobId, hid] at hjob
        cases hjob
  | moved hc hkeys hjobs =>
      have hstep := hjobs id
      rw [hjob] at hstep
      rcases hstep.attempts with ⟨job', hjob', -⟩
      refine ⟨job', hjob', fun hover => ?_⟩
      have hsame := hstep.finished hover
      rw [hjob', Option.some.injEq] at hsame
      exact hsame

/-- A job stays, and moves on only along its lifecycle. -/
theorem kept_history {pre post : List Command} (h : FreshIds (pre ++ post)) {id : String} {job : Job}
    (hjob : (history pre).repository.jobs.get? id = some job) :
    ∃ job', (history (pre ++ post)).repository.jobs.get? id = some job' ∧
      (job.status = .succeeded ∨ job.status = .failed → job' = job) := by
  induction post using List.reverseRecOn with
  | nil => exact ⟨job, by rwa [List.append_nil], fun _ => rfl⟩
  | append_singleton post c ih =>
      rw [← List.append_assoc] at h ⊢
      have hpre : FreshIds (pre ++ post) := fun pre' c' post' hcs =>
        h pre' c' (post' ++ [c]) (by simp [hcs])
      rcases ih hpre with ⟨job', hjob', hover⟩
      rw [history_snoc]
      rcases (exec_effect _ c).kept (h (pre ++ post) c [] rfl) hjob' with ⟨job'', hjob'', hover'⟩
      refine ⟨job'', hjob'', fun hstatus => ?_⟩
      obtain rfl := hover hstatus
      exact hover' hstatus

/-- The id that a key leads to. -/
def Repository.jobIdOf (s : Repository) (key : IdempotencyKey) : String :=
  ((s.idempotency.get? key).map Prod.snd).getD ""

/-- The key table is looked up by key, and has one job for each. -/
theorem jobIdOf_of_mem {s : Repository} {key : IdempotencyKey} {id : String}
    (h : (key, id) ∈ s.idempotency.values) :
    s.idempotency.get? key = some (key, id) ∧ s.jobIdOf key = id := by
  have hget : s.idempotency.get? key = some (key, id) := Table.get?_of_mem h
  refine ⟨hget, ?_⟩
  rw [Repository.jobIdOf, hget]
  rfl

/-- The enqueued keys and the jobs correspond one to one. -/
theorem Sound.bijOn {h : History} (hsound : Sound h) :
    Set.BijOn h.repository.jobIdOf {key | key ∈ h.enqueued}
      {id | (h.repository.jobs.get? id).isSome} := by
  -- into the jobs, injective, and onto them
  refine ⟨?_, ?_, ?_⟩
  · intro key hkey
    rcases (hsound.enqueued key).1 hkey with ⟨id, hmem⟩
    rcases hsound.keyed.job key id hmem with ⟨job, hjob, -⟩
    simp only [Set.mem_ofPred_eq, (jobIdOf_of_mem hmem).2, hjob, Option.isSome_some]
  · intro key hkey key' hkey' hid
    rcases (hsound.enqueued key).1 hkey with ⟨id, hmem⟩
    rcases (hsound.enqueued key').1 hkey' with ⟨id', hmem'⟩
    rw [(jobIdOf_of_mem hmem).2, (jobIdOf_of_mem hmem').2] at hid
    subst hid
    rcases hsound.keyed.job key id hmem with ⟨job, hjob, rfl⟩
    rcases hsound.keyed.job key' id hmem' with ⟨job', hjob', rfl⟩
    rw [hjob] at hjob'
    cases hjob'
    rfl
  · intro id hid
    rcases Option.isSome_iff_exists.1 hid with ⟨job, hjob⟩
    have hmem := hsound.keyed.key id job hjob
    exact ⟨job.key, (hsound.enqueued job.key).2 ⟨id, hmem⟩, (jobIdOf_of_mem hmem).2⟩

/-- No job is stuck in the queue. -/
theorem Sound.idle {h : History} (hsound : Sound h) {workerId : String} {now : Datetime}
    (hnone : (h.repository.claim workerId now).1 = none) {id : String} {job : Job}
    (hjob : h.repository.jobs.get? id = some job) (hstatus : job.status = .queued) :
    now < job.nextRetryAt := by
  have hnext : h.repository.next? now none = none := by
    unfold Repository.claim at hnone
    cases hnext : h.repository.next? now none with
    | none => rfl
    | some job => simp [hnext] at hnone
  have hattempts := (hsound.consistent id job hjob).queued hstatus
  by_contra hle
  apply Repository.next?_eq_none.1 hnext job (Table.mem_of_get? hjob)
  exact ⟨hstatus, not_lt.1 hle, hattempts, by simp⟩

/-- The law of the queue after the operations `cs`. -/
structure QueueLaw (cs : List Command) : Prop where
  consistent : ∀ id job, (history cs).repository.jobs.get? id = some job → job.Consistent
  attempts : ∀ id job, (history cs).repository.jobs.get? id = some job →
    job.attempts = (history cs).claims id
  /-- Jobs stay, and those that are over stay as they are. -/
  kept : ∀ pre post, cs = pre ++ post → ∀ id job,
    (history pre).repository.jobs.get? id = some job →
    ∃ job', (history cs).repository.jobs.get? id = some job' ∧
      (job.status = .succeeded ∨ job.status = .failed → job' = job)
  /-- `_idempotency` has the enqueued keys, and leads from each to its own job. -/
  keys : ∀ key, ((history cs).repository.idempotency.get? key).isSome ↔ key ∈ (history cs).enqueued
  bijection : Set.BijOn (history cs).repository.jobIdOf {key | key ∈ (history cs).enqueued}
    {id | ((history cs).repository.jobs.get? id).isSome}
  idle : ∀ workerId now, ((history cs).repository.claim workerId now).1 = none →
    ∀ id job, (history cs).repository.jobs.get? id = some job → job.status = .queued →
      now < job.nextRetryAt

/-- The law of the queue, for every list of commands with fresh ids. -/
theorem queue_law {cs : List Command} (h : FreshIds cs) : QueueLaw cs where
  consistent := (sound_history h).consistent
  attempts := (sound_history h).attempts
  kept := by
    rintro pre post rfl id job hjob
    exact kept_history h hjob
  keys := by
    intro key
    rw [(sound_history h).enqueued, Option.isSome_iff_exists]
    constructor
    · rintro ⟨item, hitem⟩
      have hfst : item.1 = key := Table.key_of_get? hitem
      exact ⟨item.2, by rw [← hfst]; exact Table.mem_of_get? hitem⟩
    · rintro ⟨id, hmem⟩
      exact ⟨_, (jobIdOf_of_mem hmem).1⟩
  bijection := (sound_history h).bijOn
  idle := fun workerId now hnone id job hjob hstatus =>
    (sound_history h).idle hnone hjob hstatus

/-- A command to enqueue a request. -/
def command : EnqueueJob where
  tenantId := "tenant_001"
  organizationId := "org_001"
  workspaceId := "workspace_001"
  jobType := .genesisRequest
  payload := [("request_id", .str "request_001")]
  correlationId := "corr_job_001"
  idempotencyKey := "job-request-001"
  maxAttempts := 2
  nextRetryAt := 0
  key_length := by decide +kernel
  attempts_range := by decide

/-- A job is enqueued twice, claimed, recovered, claimed again and done. -/
def recovered : List Command :=
  [.enqueue command "job-1" 0, .enqueue command "job-2" 0, .claim "worker-1" 1 none,
    .recoverStale 5 (fun n => 5 + n) "STALE_LEASE_RECOVERED", .claim "worker-2" 6 none, .succeed "job-1" [] 7]

/-- The law at a history in which a lease runs out and the job is claimed again. -/
theorem queue_law_recovered : QueueLaw recovered := by
  apply queue_law
  intro pre c post hcs command jobId createdAt hc
  subst hc
  rcases pre with _ | ⟨c₀, _ | ⟨c₁, pre⟩⟩
  · cases hcs
    rfl
  · cases hcs
    decide +kernel
  · simp only [recovered, List.cons_append, List.cons.injEq] at hcs
    have hmem : Command.enqueue command jobId createdAt ∈ pre ++ .enqueue command jobId createdAt ::
        post := by simp
    rw [← hcs.2.2] at hmem
    simp at hmem

end Alos.Jobs
