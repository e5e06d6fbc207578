import Alos.Releases.Segments

/-! # Calls without interference

`perform` runs one operation to its end with nobody else running; the audit
sink answers its `n`-th append with `audits n`. Sequential runs of the service
are folds of `perform`.
-/

namespace Alos.Releases

open Coop

/-- The answers of the audit sink to one call, in order. -/
abbrev Audits := ℕ → Appended

/-- The answers to the appends after the first. -/
def Audits.next (audits : Audits) : Audits := fun n => audits (n + 1)

/-- A sink that never fails. -/
def quiet : Audits := fun _ => .returned

/-- One operation, run to its end: the state and the result it leaves. -/
def perform (s : InMemoryReleaseAuthority) (p : Op GovernedRelease) (audits : Audits) :
    InMemoryReleaseAuthority × Except ReleaseError GovernedRelease :=
  let finished := p.alone (fun n _ => audits n) s
  (finished.state, finished.result)

/-- The state after a sequential run: calls, each with the answers of the
audit sink to it. -/
def performAll (steps : List (Call × Audits)) : InMemoryReleaseAuthority :=
  steps.foldl (fun s x => (perform s x.1.prog x.2).1) .empty

/-- A run of whole calls grows at its end. -/
theorem performAll_snoc (steps : List (Call × Audits)) (x : Call × Audits) :
    performAll (steps ++ [x]) = (perform (performAll steps) x.1.prog x.2).1 := by
  simp [performAll]

section Perform

variable {s : InMemoryReleaseAuthority} {p : Op GovernedRelease} {o : Opening} {audits : Audits}

@[simp] theorem perform_ret (release : GovernedRelease) :
    perform s (.ret release) audits = (s, .ok release) := rfl

@[simp] theorem perform_writeIndex (key : SubjectKey) (releaseId : Option String)
    (release : GovernedRelease) :
    perform s (writeIndex key releaseId release) audits = (s.setActive key releaseId, .ok release) :=
  rfl

variable (audits) in
/-- A refused operation changes nothing. -/
theorem perform_refused (h : Begins s p none) : ∃ e, perform s p audits = (s, .error e) := by
  rcases h with ⟨e, he⟩
  refine ⟨e, ?_⟩
  rw [perform, Proc.alone_of_raised he]

/-- The record stays published when its append fails. -/
theorem perform_unrecorded (h : Begins s p (some o)) (h0 : audits 0 = .raised) :
    perform s p audits = (s.setRelease o.releaseId o.release, .error .audit) := by
  rw [perform, Proc.alone_of_awaiting h]
  simp [h0, settle, Proc.alone]

/-- Past the first event the release is stored, and the rest of the call goes on from there. -/
theorem perform_recorded (h : Begins s p (some o)) (h0 : audits 0 = .returned) :
    perform s p audits = perform (s.setRelease o.releaseId o.release) o.rest audits.next := by
  rw [perform, Proc.alone_of_awaiting h]
  simp [h0, settle, perform, Audits.next]

end Perform

/-- Nothing else is indexed: only the index is written. -/
theorem perform_supersede {s : InMemoryReleaseAuthority} {release : GovernedRelease}
    {releaseId : String} (actorId correlationId : String) (audits : Audits)
    (h : ∀ otherId, s.activeBySubject release.subjectKey = some otherId → otherId = releaseId) :
    perform s (supersede release releaseId actorId correlationId) audits =
      (s.setActive release.subjectKey (some releaseId), .ok release) := by
  rw [perform, Proc.alone_of_returned (supersede_advance h)]

/-- The target is written back before the second append is awaited. -/
theorem perform_restore (s : InMemoryReleaseAuthority) (rolledBack target : GovernedRelease)
    (targetReleaseId actorId reason correlationId : String) (audits : Audits) :
    perform s (restore rolledBack target targetReleaseId actorId reason correlationId) audits =
      ((s.setRelease targetReleaseId (target.restored correlationId)).setActive target.subjectKey
          (some targetReleaseId),
        if audits 0 = .returned then .ok rolledBack else .error .audit) := by
  simp only [perform, restore, record, Proc.bind_def, Proc.modify_bind, Proc.ask_bind, Proc.bind,
    Proc.alone]
  cases audits 0 <;> rfl

/-! ## Calls whose appends return -/

section Quiet

variable {s : InMemoryReleaseAuthority} {o : Opening} {r t a reason c : String}

/-- A kill switch without another call in between stores the release and clears the index. -/
theorem perform_kill (h : (Call.activateKillSwitch r a reason c).opening s = some o) :
    (perform s (Call.activateKillSwitch r a reason c).prog quiet).1 =
      (s.setRelease r o.release).setActive o.release.subjectKey none := by
  have hbegins := prog_begins (.activateKillSwitch r a reason c) s
  obtain ⟨hr, hrest, -⟩ := kill_opening h
  rw [h] at hbegins
  rw [perform_recorded hbegins rfl, hr, hrest, perform_writeIndex]

/-- Clearing it puts the release back into the index. -/
theorem perform_clear (h : (Call.clearKillSwitch r a reason c).opening s = some o) :
    (perform s (Call.clearKillSwitch r a reason c).prog quiet).1 =
      (s.setRelease r o.release).setActive o.release.subjectKey (some r) := by
  have hbegins := prog_begins (.clearKillSwitch r a reason c) s
  obtain ⟨hr, hrest, -⟩ := clear_opening h
  rw [h] at hbegins
  rw [perform_recorded hbegins rfl, hr, hrest, perform_writeIndex]

/-- A rollback stores both releases and puts the target into the index. -/
theorem perform_rollback {target : GovernedRelease}
    (h : (Call.rollback r t a reason c).opening s = some o)
    (hrest : o.rest = restore o.release target t a reason c) :
    (perform s (Call.rollback r t a reason c).prog quiet).1 =
      ((s.setRelease r o.release).setRelease t (target.restored c)).setActive target.subjectKey
        (some t) := by
  have hbegins := prog_begins (.rollback r t a reason c) s
  rw [h] at hbegins
  rw [perform_recorded hbegins rfl, (rollback_opening h).1, hrest, perform_restore]

/-- Nothing else is indexed. -/
theorem perform_activate (h : (Call.activate r a c).opening s = some o)
    (hindex : ∀ other, s.activeBySubject o.release.subjectKey = some other → other = r) :
    (perform s (Call.activate r a c).prog quiet).1 =
      (s.setRelease r o.release).setActive o.release.subjectKey (some r) := by
  have hbegins := prog_begins (.activate r a c) s
  obtain ⟨hr, hrest, -⟩ := activate_opening h
  rw [h] at hbegins
  have hsupersede := perform_supersede (s := s.setRelease r o.release) a c quiet.next hindex
  rw [perform_recorded hbegins rfl, hr, hrest, hsupersede]

/-- Another release is indexed, and it is active. -/
theorem perform_activate_other {other : String} {current : GovernedRelease}
    (h : (Call.activate r a c).opening s = some o)
    (hindex : s.activeBySubject o.release.subjectKey = some other) (hne : other ≠ r)
    (hother : s.releases other = some current) (hactive : current.state = .active) :
    (perform s (Call.activate r a c).prog quiet).1 =
      ((s.setRelease r o.release).setRelease other
        (current.moved .suspended c supersededOptions)).setActive o.release.subjectKey
          (some r) := by
  have hbegins := prog_begins (.activate r a c) s
  obtain ⟨hr, hrest, -⟩ := activate_opening h
  rw [h] at hbegins
  rw [perform_recorded hbegins rfl, hr, hrest]
  -- another release was active: it is superseded after its own event
  have hsupersede := supersede_begins (s := s.setRelease r o.release) a c hindex hne
  have hother' : (s.setRelease r o.release).releases other = some current := by
    simpa [hne] using hother
  simp only [opens, hother', hactive, if_true] at hsupersede
  rw [perform_recorded hsupersede rfl, perform_writeIndex]

end Quiet

/-! ## All outcomes of a call -/

/-- What one call alone can do: `Effect s c audits s' result`. -/
inductive Effect (s : InMemoryReleaseAuthority) : Call → Audits → InMemoryReleaseAuthority →
    Except ReleaseError GovernedRelease → Prop where
  | refused {c audits e} (h : c.opening s = none) : Effect s c audits s (.error e)
  | unrecorded {c audits o} (h : c.opening s = some o) (h0 : audits 0 = .raised) :
      Effect s c audits (s.setRelease o.releaseId o.release) (.error .audit)
  | gate {c audits o} (hc : c.IsGate) (h : c.opening s = some o) (h0 : audits 0 = .returned) :
      Effect s c audits (s.setRelease o.releaseId o.release) (.ok o.release)
  | activated {r a c audits o} (h : (Call.activate r a c).opening s = some o)
      (h0 : audits 0 = .returned)
      (hindex : ∀ other, s.activeBySubject o.release.subjectKey = some other → other = r) :
      Effect s (.activate r a c) audits
        ((s.setRelease r o.release).setActive o.release.subjectKey (some r)) (.ok o.release)
  | blocked {r a c audits o other e} (h : (Call.activate r a c).opening s = some o)
      (h0 : audits 0 = .returned)
      (hindex : s.activeBySubject o.release.subjectKey = some other) (hne : other ≠ r)
      (hother : ∀ current, s.releases other = some current → current.state ≠ .active) :
      Effect s (.activate r a c) audits (s.setRelease r o.release) (.error e)
  | half {r a c audits o other current} (h : (Call.activate r a c).opening s = some o)
      (h0 : audits 0 = .returned)
      (hindex : s.activeBySubject o.release.subjectKey = some other) (hne : other ≠ r)
      (hother : s.releases other = some current) (hactive : current.state = .active)
      (h1 : audits 1 = .raised) :
      Effect s (.activate r a c) audits
        ((s.setRelease r o.release).setRelease other
          (current.moved .suspended c supersededOptions)) (.error .audit)
  | superseded {r a c audits o other current} (h : (Call.activate r a c).opening s = some o)
      (h0 : audits 0 = .returned)
      (hindex : s.activeBySubject o.release.subjectKey = some other) (hne : other ≠ r)
      (hother : s.releases other = some current) (hactive : current.state = .active)
      (h1 : audits 1 = .returned) :
      Effect s (.activate r a c) audits
        (((s.setRelease r o.release).setRelease other
          (current.moved .suspended c supersededOptions)).setActive o.release.subjectKey (some r))
        (.ok o.release)
  | killed {r a reason c audits o} (h : (Call.activateKillSwitch r a reason c).opening s = some o)
      (h0 : audits 0 = .returned) :
      Effect s (.activateKillSwitch r a reason c) audits
        ((s.setRelease r o.release).setActive o.release.subjectKey none) (.ok o.release)
  | cleared {r a reason c audits o} (h : (Call.clearKillSwitch r a reason c).opening s = some o)
      (h0 : audits 0 = .returned) :
      Effect s (.clearKillSwitch r a reason c) audits
        ((s.setRelease r o.release).setActive o.release.subjectKey (some r)) (.ok o.release)
  | rolledBack {r t a reason c audits o target}
      (h : (Call.rollback r t a reason c).opening s = some o) (h0 : audits 0 = .returned)
      (htarget : s.releases t = some target) :
      Effect s (.rollback r t a reason c) audits
        (((s.setRelease r o.release).setRelease t (target.restored c)).setActive target.subjectKey
          (some t))
        (if audits 1 = .returned then .ok o.release else .error .audit)

/-- Suspending the indexed release, then the index write. -/
theorem activate_effect {s : InMemoryReleaseAuthority} {r a c : String} {audits : Audits}
    {o : Opening} (h : (Call.activate r a c).opening s = some o) (h0 : audits 0 = .returned) :
    Effect s (.activate r a c) audits
      (perform (s.setRelease r o.release) (supersede o.release r a c) audits.next).1
      (perform (s.setRelease r o.release) (supersede o.release r a c) audits.next).2 := by
  rcases supersede_cases (s.setRelease r o.release) o.release r with hindex | ⟨other, hindex, hne⟩
  · rw [perform_supersede a c audits.next hindex]
    exact .activated h h0 hindex
  have hbegins := supersede_begins (s := s.setRelease r o.release) a c hindex hne
  have hreleases : (s.setRelease r o.release).releases other = s.releases other :=
    Function.update_of_ne hne _ _
  cases hother : s.releases other with
  | none =>
      -- the index names a release that is not there
      simp only [opens, hreleases, hother] at hbegins
      rcases perform_refused audits.next hbegins with ⟨e, he⟩
      rw [he]
      exact .blocked h h0 hindex hne (by simp [hother])
  | some current =>
      by_cases hactive : current.state = .active
      · simp only [opens, hreleases, hother, hactive, if_true] at hbegins
        cases h1 : audits 1 with
        | raised =>
            rw [perform_unrecorded hbegins h1]
            exact .half h h0 hindex hne hother hactive h1
        | returned =>
            rw [perform_recorded hbegins h1, perform_writeIndex]
            exact .superseded h h0 hindex hne hother hactive h1
      · -- the release that the index names is not active
        simp only [opens, hreleases, hother, hactive, if_false] at hbegins
        rcases perform_refused audits.next hbegins with ⟨e, he⟩
        rw [he]
        exact .blocked h h0 hindex hne (by simp [hother, hactive])

/-- A call alone does one of the things listed. -/
theorem perform_effect (s : InMemoryReleaseAuthority) (c : Call) (audits : Audits) :
    Effect s c audits (perform s c.prog audits).1 (perform s c.prog audits).2 := by
  have hbegins := prog_begins c s
  cases ho : c.opening s with
  | none =>
      rw [ho] at hbegins
      rcases perform_refused audits hbegins with ⟨e, he⟩
      rw [he]
      exact .refused ho
  | some o =>
      rw [ho] at hbegins
      cases h0 : audits 0 with
      | raised =>
          rw [perform_unrecorded hbegins h0]
          exact .unrecorded ho h0
      | returned =>
          rw [perform_recorded hbegins h0]
          -- a gate ends with its event; the four other calls go on
          by_cases hgate : c.IsGate
          · rw [(gate_opening hgate ho).rest, perform_ret]
            exact .gate hgate ho h0
          · cases c with
            | activate r a c =>
                obtain ⟨hr, hrest, -⟩ := activate_opening ho
                rw [hr, hrest]
                exact activate_effect ho h0
            | activateKillSwitch r a reason c =>
                obtain ⟨hr, hrest, -⟩ := kill_opening ho
                rw [hr, hrest, perform_writeIndex]
                exact .killed ho h0
            | clearKillSwitch r a reason c =>
                obtain ⟨hr, hrest, -⟩ := clear_opening ho
                rw [hr, hrest, perform_writeIndex]
                exact .cleared ho h0
            | rollback r t a reason c =>
                obtain ⟨hr, current, target, -, htarget, -, hrest, -⟩ := rollback_opening ho
                rw [hr, hrest, perform_restore]
                exact .rolledBack ho h0 htarget
            | _ => exact absurd trivial hgate

/-- What the first record of a call, a record that is suspended and one that is
restored keep is kept by the call, whatever the audit sink answers. -/
theorem Effect.keeps {P : InMemoryReleaseAuthority → Prop} {s s' : InMemoryReleaseAuthority}
    {c : Call} {audits : Audits} {result : Except ReleaseError GovernedRelease}
    (heffect : Effect s c audits s' result) (hs : P s)
    (hindex : ∀ t key releaseId, P t → P (t.setActive key releaseId))
    (hopen : ∀ o, c.opening s = some o → P (s.setRelease o.releaseId o.release))
    (hsuspend : ∀ t r current correlationId, s.releases r = some current → P t →
      P (t.setRelease r (current.moved .suspended correlationId supersededOptions)))
    (hrestore : ∀ t r target correlationId, s.releases r = some target → P t →
      P (t.setRelease r (target.restored correlationId))) : P s' := by
  -- each write of a call is one of a release or of the index
  cases heffect with
  | refused => exact hs
  | unrecorded ho => exact hopen _ ho
  | gate _ ho => exact hopen _ ho
  | activated ho => exact hindex _ _ _ ((activate_opening ho).1 ▸ hopen _ ho)
  | blocked ho => exact (activate_opening ho).1 ▸ hopen _ ho
  | half ho _ _ _ hother =>
      exact hsuspend _ _ _ _ hother ((activate_opening ho).1 ▸ hopen _ ho)
  | superseded ho _ _ _ hother =>
      have hopened := (activate_opening ho).1 ▸ hopen _ ho
      exact hindex _ _ _ (hsuspend _ _ _ _ hother hopened)
  | killed ho => exact hindex _ _ _ ((kill_opening ho).1 ▸ hopen _ ho)
  | cleared ho => exact hindex _ _ _ ((clear_opening ho).1 ▸ hopen _ ho)
  | rolledBack ho _ htarget =>
      have hopened := (rollback_opening ho).1 ▸ hopen _ ho
      exact hindex _ _ _ (hrestore _ _ _ _ htarget hopened)

end Alos.Releases
