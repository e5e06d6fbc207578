import Alos.Jobs.Queue
import Alos.Jobs.Worker

/-! # Leases

A worker ends a job by its id. Nothing compares the lease that it was given
with the one that the job has by then.

* `leased_of_unheld`: as long as no job is claimed while the handler of an
  earlier claim of it is still running, a worker ends its own lease only;
* the invariant is `InHand`: what a handler works on is the job as it was
  claimed, or the job is not running;
* `late_completion`: a worker whose lease was recovered completes the job that
  another one has claimed since.
-/

namespace Alos.Jobs

open Coop Staging Py

abbrev Workers := Sys Call Repository Question Answer JobError Reply

/-- The step claims no job while the handler of an earlier claim of it is
still running. -/
def Unheld (t : Workers) : Step Call Question Answer → Prop
  | .call _ c => ∀ job, c.takes t.shared = some job →
      ∀ i d held k, t.threads i = some ⟨d, .awaiting (.handler held) k⟩ → held.jobId ≠ job.jobId
  | .resume _ _ => True

/-- The job under the id is what the call in thread `i` claimed, and is still
leased to it. -/
structure Holds (t : Workers) (i : ℕ) (id : String) (worker : JobWorker) (clock : ℕ → Datetime)
    (held : Job) : Prop where
  thread : ∃ y, t.threads i = some ⟨.runOnce worker clock, y⟩
  stored : t.shared.jobs.get? id = some held
  status : held.status = .running
  lockedBy : held.lockedBy = some worker.workerId
  lockedAt : held.lockedAt = some (clock 0)

/-- A worker changes no other job than the one whose current lease is its
claim. -/
def Leased (t : Workers) (x : Step Call Question Answer) : Prop :=
  ∀ id, (next Call.prog t x).shared.jobs.get? id ≠ t.shared.jobs.get? id →
    match x with
    | .call _ (.runOnce _ clock) => ∃ job, t.shared.next? (clock 0) none = some job ∧ job.jobId = id
    | .call _ _ => True
    | .resume i _ => ∃ worker clock held, Holds t i id worker clock held

/-! ## The invariant -/

/-- What the handlers are working on. -/
structure InHand (w : World Call Repository Question Answer JobError Reply)
    (pool : Pool Call Stage) : Prop where
  claimed : ∀ i c clock held, pool i = some (c, .handling clock held) →
    ∃ worker clock', c = .runOnce worker clock' ∧ held.lockedBy = some worker.workerId ∧
      held.lockedAt = some (clock' 0)
  lease : ∀ i c clock held, pool i = some (c, .handling clock held) →
    ∀ job ∈ w.shared.jobs.get? held.jobId, job = held ∨ job.status ≠ .running
  alone : ∀ i j c d clock clock' held held', pool i = some (c, .handling clock held) →
    pool j = some (d, .handling clock' held') → held.jobId = held'.jobId → i = j

theorem Job.Ends.running {job job' : Job} (h : job.Ends job') : job.status = .running := by
  cases h with
  | succeeded hstatus => exact hstatus
  | released hstatus => exact hstatus

/-- A job whose lease ended is not running. -/
theorem Job.Ends.not_running {job job' : Job} (h : job.Ends job') : job'.status ≠ .running := by
  cases h with
  | succeeded hstatus => simp [Job.finished]
  | released hstatus =>
      simp only [Job.released]
      split <;> simp

/-- Whatever is done to a job, short of a claim, gives its lease to nobody. -/
theorem JobStep.lease {found found' : Option Job} {held : Job} (h : JobStep 0 found found')
    (hfound : ∀ job ∈ found, job = held ∨ job.status ≠ .running) :
    ∀ job ∈ found', job = held ∨ job.status ≠ .running := by
  cases h with
  | same => exact hfound
  | ended hends =>
      intro job hjob
      cases hjob
      exact .inr hends.not_running

theorem inHand_init (s : Repository) : staging.Staged InHand (init s) := by
  refine ⟨fun _ => none, describes_init s, ?_, ?_, ?_⟩ <;> simp

theorem InHand.handed {t : Workers} {pool : Pool Call Stage} {i : ℕ} {worker : JobWorker}
    {clock : ℕ → Datetime} {job : Job} {l : Label Call Question Answer JobError Reply}
    (h : InHand t.toWorld pool) (hi : pool i = none)
    (hfree : ∀ j d clock' held, pool j = some (d, .handling clock' held) →
      held.jobId ≠ job.jobId) :
    InHand (t.toWorld.push (t.shared.putJob (job.claimed worker.workerId (clock 0))) l)
      (pool.put i (.runOnce worker clock)
        (.handling (fun n => clock (n + 1)) (job.claimed worker.workerId (clock 0)))) := by
  constructor
  · intro j c clock' held hj
    rcases Pool.put_eq_some.1 hj with ⟨rfl, rfl, hstage⟩ | ⟨-, hj⟩
    · cases hstage
      exact ⟨worker, clock, rfl, rfl, rfl⟩
    · exact h.claimed j c clock' held hj
  · intro j c clock' held hj
    rw [World.push_shared, Repository.putJob_jobs]
    rcases Pool.put_eq_some.1 hj with ⟨rfl, rfl, hstage⟩ | ⟨-, hj⟩
    · cases hstage
      simp [Table.get?_put]
    · -- the job that is claimed is in nobody's hand
      rw [Table.get?_put_of_ne]
      · exact h.lease j c clock' held hj
      · exact Ne.symm (hfree j c clock' held hj)
  · intro j k c d clock₁ clock₂ held₁ held₂ hj hk hid
    rcases Pool.put_eq_some.1 hj with ⟨rfl, rfl, hstage⟩ | ⟨-, hj'⟩ <;>
      rcases Pool.put_eq_some.1 hk with ⟨rfl, rfl, hstage'⟩ | ⟨-, hk'⟩
    · rfl
    · cases hstage
      exact absurd hid.symm (hfree k d clock₂ held₂ hk')
    · cases hstage'
      exact absurd hid (hfree j c clock₁ held₁ hj')
    · exact h.alone j k c d clock₁ clock₂ held₁ held₂ hj' hk' hid

/-- A segment that hands nothing out, and keeps the leases of the other handlers. -/
theorem InHand.rest {t : Workers} {pool : Pool Call Stage} {i : ℕ} {c : Call} {s' : Repository}
    {st : Stage} {l : Label Call Question Answer JobError Reply} (h : InHand t.toWorld pool)
    (hst : ∀ clock held, st ≠ .handling clock held)
    (hjobs : ∀ j d clock held, j ≠ i → pool j = some (d, .handling clock held) →
      JobStep 0 (t.shared.jobs.get? held.jobId) (s'.jobs.get? held.jobId)) :
    InHand (t.toWorld.push s' l) (pool.put i c st) := by
  -- the thread that moved handles nothing now, so every lease is one from before
  have hold : ∀ j d clock held, pool.put i c st j = some (d, .handling clock held) →
      j ≠ i ∧ pool j = some (d, .handling clock held) := by
    intro j d clock held hj
    rcases Pool.put_eq_some.1 hj with ⟨-, -, hstage⟩ | hj
    · exact absurd hstage.symm (hst clock held)
    · exact hj
  constructor
  · intro j d clock held hj
    exact h.claimed j d clock held (hold j d clock held hj).2
  · intro j d clock held hj
    rcases hold j d clock held hj with ⟨hne, hj⟩
    exact (hjobs j d clock held hne hj).lease (h.lease j d clock held hj)
  · intro j k d e clock clock' held held' hj hk
    exact h.alone j k d e clock clock' held held' (hold j d clock held hj).2
      (hold k e clock' held' hk).2

theorem inHand_keeps : staging.Keeps Unheld InHand where
  start := by
    intro t pool i c s' st hpool h hP hi hbegins
    -- a job that can be claimed is in nobody's hands
    have hfree : ∀ job, c.takes t.shared = some job → ∀ j d clock held,
        pool j = some (d, .handling clock held) → held.jobId ≠ job.jobId := by
      intro job htakes j d clock held hj
      exact hP job htakes j d held _ (hpool.thread_some hj)
    -- a call takes a job in hand, touches none, or recovers the stale ones
    cases hbegins with
    | handed hnext => exact h.handed hi (hfree _ hnext)
    | settled hst hjobs =>
        refine h.rest hst fun j d clock held _ hj => ?_
        rw [hjobs held.jobId fun job htakes => Ne.symm (hfree job htakes j d clock held hj)]
        exact .same
    | recovered hjobs => exact h.rest (by simp) fun _ _ _ held _ _ => hjobs held.jobId
  turn := by
    intro t pool i reply c st q k a s' st' hpool h hP hi hnow hreply hturn
    cases hturn with
    | ended hst hjob hid hends =>
        refine h.rest hst fun j d clock held hne hj => ?_
        rw [get?_putJob_of_ne]
        · exact .same
        · rw [(JobStep.ended hends).jobId, hid]
          intro heq
          exact hne (h.alone i j c d _ _ _ held hi hj heq).symm
    | refused => exact h.rest (by simp) fun _ _ _ _ _ _ => .same

/-! ## Current leases -/

/-- In a state that meets the invariant, every step of a worker is about its
own lease. -/
theorem InHand.leased {t : Workers} {pool : Pool Call Stage} (hpool : staging.Describes t pool)
    (h : InHand t.toWorld pool) (x : Step Call Question Answer) : Leased t x := by
  intro id hchange
  rcases hpool.next staging_follows x with ⟨pool', -, hmoved⟩
  generalize hw : (next Call.prog t x).toWorld = w at hmoved
  rw [show (next Call.prog t x).shared = w.shared by rw [← hw]] at hchange
  cases hmoved with
  | idle => exact absurd rfl hchange
  | start hi hbegins =>
      rename_i i c s' st
      cases c with
      | recoverStaleJobs leaseTimeout now clock => trivial
      | claim workerId now jobTypes => trivial
      | runOnce worker clock =>
          by_contra hother
          have hid : ∀ job, t.shared.next? (clock 0) none = some job → job.jobId ≠ id :=
            fun job hnext hjob => hother ⟨job, hnext, hjob⟩
          cases hbegins with
          | handed hnext =>
              refine hchange (get?_putJob_of_ne ?_)
              rw [Job.claimed_jobId]
              exact hid _ hnext
          | settled hst hjobs => exact hchange (hjobs id hid)
  | turn hi hnow hturn =>
      rename_i i reply c st q k s' st'
      cases hturn with
      | refused => exact absurd rfl hchange
      | ended hst hjob hid hends =>
          rename_i clock held job job'
          -- what is stored is what was claimed, since it is running
          rcases h.lease i c clock held hi job (hid ▸ hjob) with rfl | hstatus
          · obtain ⟨worker, clock', rfl, hlockedBy, hlockedAt⟩ := h.claimed i c clock job hi
            by_cases hjobId : job.jobId = id
            · subst hjobId
              exact ⟨worker, clock', job, ⟨_, hpool.thread_some hi⟩, hjob, hends.running,
                hlockedBy, hlockedAt⟩
            · refine absurd (get?_putJob_of_ne ?_) hchange
              rwa [(JobStep.ended hends).jobId]
          · exact absurd hends.running hstatus

/-- **Leases.** In a run that claims no job while the handler of an earlier
claim of it is still running, a worker ends its own current lease only. -/
theorem leased_of_unheld (s : Repository) (xs : List (Step Call Question Answer))
    (h : Along Call.prog Unheld (init s) xs) : Along Call.prog Leased (init s) xs := by
  intro pre x post hxs
  rw [hxs] at h
  rcases inHand_keeps.run_inv staging_follows (inHand_init s) pre h.of_append with
    ⟨pool, hpool, hinv⟩
  exact hinv.leased hpool x

def worker (workerId : String) : JobWorker := ⟨workerId, fun _ => true⟩

/-- One job is queued. -/
def waiting : Repository := Repository.empty.putJob (Job.ofCommand command "job-1" 0)

def returning : (q : Question) → Answer q
  | .handler _ => .returned []

/-- The first worker claims the job, its lease is recovered. -/
def overdue : List (Step Call Question Answer) :=
  [.call 0 (.runOnce (worker "worker-1") fun _ => 1),
    .call 1 (.recoverStaleJobs 5 10 fun _ => 10)]

/-- The late handler returns before the job is claimed again. -/
def conflicting : List (Step Call Question Answer) :=
  overdue ++ [.resume 0 returning, .call 2 (.runOnce (worker "worker-2") fun _ => 11),
    .resume 2 returning]

theorem leased_of_unheld_conflicting : Along Call.prog Leased (init waiting) conflicting := by
  apply leased_of_unheld
  refine .cons (.cons (.cons (.cons (.cons (along_nil _ _) trivial) ?_) trivial) ?_) ?_
  · -- both threads are over
    intro job _ i d held k hi
    change (run Call.prog (init waiting) (overdue ++ [.resume 0 returning])).threads i = _ at hi
    have hcall := (run_started Call.prog waiting _).threads i _ hi
    simp only [overdue, List.cons_append, List.nil_append, List.mem_cons, Step.call.injEq,
      reduceCtorEq, List.not_mem_nil, or_false] at hcall
    rcases hcall with ⟨rfl, -⟩ | ⟨rfl, -⟩
    · cases hi
    · cases hi
  · intro job htakes
    cases htakes
  · intro job _ i d held k hi
    cases hi

/-- A worker completes the job that another one has claimed since. -/
theorem late_completion : ¬ Along Call.prog Leased (init waiting)
    (overdue ++ [.call 2 (.runOnce (worker "worker-2") fun _ => 11), .resume 0 returning]) := by
  intro h
  let t := run Call.prog (init waiting)
    (overdue ++ [.call 2 (.runOnce (worker "worker-2") fun _ => 11)])
  have hleased : Leased t (.resume 0 returning) := h _ _ [] rfl
  -- the second worker holds the job now
  have hbefore : (t.shared.jobs.get? "job-1").map (fun job => (job.status, job.lockedBy)) =
      some (.running, some "worker-2") := by
    decide +kernel
  have hafter : ((next Call.prog t (.resume 0 returning)).shared.jobs.get? "job-1").map
      (fun job => (job.status, job.lockedBy)) = some (.succeeded, none) := by
    decide +kernel
  obtain ⟨first, clock, held, ⟨y, hthread⟩, hstored, -, hlockedBy, -⟩ := hleased "job-1" (by
    intro heq
    rw [heq, hbefore] at hafter
    exact absurd hafter (by decide))
  cases hthread
  rw [hstored, Option.map_some, hlockedBy] at hbefore
  simp [worker] at hbefore

end Alos.Jobs
