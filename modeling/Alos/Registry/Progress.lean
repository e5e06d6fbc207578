import Alos.Coop.Progress
import Alos.Registry.Lifecycle

/-! # Registries are never stuck

A registry takes its lock, asks its store, and gives the lock back before it asks the
audit sink: it never holds two locks, and never waits for one while it holds another.

* `Call.prog_sectioned` says so of every operation, and counts its questions;
* `registries_progress`: so no operation waits for ever on a lock.
-/

namespace Alos.Registry

open Coop Py

section Sectioned

variable {ι κ : Type} [DecidableEq ι] {x : Registries ι κ} {i : ι} {held : Option ι}
  {v : ι → Bool} {n : ℕ} {entry : RegistryEntry}

/-- What a store has answered is passed on without a further segment. -/
theorem settle_sectioned (answer : Stored) :
    (settle answer : Op ι κ Unit).Sectioned (locks ι κ) held held v n := by
  cases answer with
  | returned => exact .ret
  | raised => exact .raise

/-- Recording an event waits once, for the sink. -/
theorem record_sectioned (actorId eventType outcome : String) :
    (record entry actorId eventType outcome : Op ι κ Unit).Sectioned (locks ι κ) held held v 1 := by
  refine .await (by simp [locks]) ?_
  intro answer v _
  cases answer with
  | returned => exact .ret
  | raised => exact .raise

section Rows

variable [DecidableEq κ]

/-- A flush writes the row or raises, and waits for nothing. -/
theorem flush_sectioned (k : κ) (selected : Option RegistryEntry) :
    (flush k entry selected : Op ι κ Unit).Sectioned (locks ι κ) held held v n := by
  simp only [flush, Proc.bind_def, Proc.get_bind]
  refine .read ?_
  intro s hs
  -- writing a row touches no lock
  have hput : ∀ row, (Proc.modify (·.putRow k row) : Op ι κ Unit).Sectioned (locks ι κ) held held
      v n := by
    intro row
    apply Proc.Sectioned.modify
    intro s
    rfl
  cases (s.rows k).get? entry.storeKey with
  | none =>
      cases selected with
      | none => exact hput entry
      | some selected => exact .raise
  | some row =>
      cases selected with
      | none => exact .raise
      | some selected => exact hput _

/-- Under the lock of the registry, the store is asked three times at most. -/
theorem save_sectioned : (save x i entry).Sectioned (locks ι κ) held held v 3 := by
  unfold save
  -- one wait in memory; for SQL the select and the commit
  cases x.store (x.registry i).store with
  | inMemory =>
      simp only [InMemoryRegistryStore.save, Proc.bind_def, Proc.ask_bind]
      refine .await (by simp [locks]) ?_
      intro answer v _
      refine Proc.Sectioned.bind (n := 0) (m := 2) (settle_sectioned answer) fun _ v => ?_
      apply Proc.Sectioned.modify
      intro s
      rfl
  | sql =>
      simp only [SqlRegistryStore.save, Proc.bind_def, Proc.get_bind, Proc.ask_bind]
      refine .await (by simp [locks]) ?_
      intro answer v _
      refine Proc.Sectioned.bind (n := 0) (m := 2) (settle_sectioned answer) fun _ v => ?_
      refine .read ?_
      intro s _
      refine .await (by simp [locks]) ?_
      intro answer v _
      refine Proc.Sectioned.bind (n := 0) (m := 1) (settle_sectioned answer) fun _ v => ?_
      refine Proc.Sectioned.bind (n := 0) (m := 1) (flush_sectioned _ _) fun _ v => ?_
      exact .await (by simp [locks]) fun _ _ _ => .ret

omit [DecidableEq κ] in
/-- Setting one lock leaves the others. -/
theorem setLocked_isLocked (i : ι) (s : Memory ι κ) (b : Bool) :
    (locks ι κ).isLocked ((locks ι κ).set s i b) =
      Function.update ((locks ι κ).isLocked s) i b := rfl

variable {payload : Json.Fields}
  {tenantId organizationId workspaceId actorId correlationId : String} {now : Datetime}

/-- `register` takes its lock, and gives it back on every way out, within five segments. -/
theorem register_sectioned :
    (register x i payload tenantId organizationId workspaceId actorId correlationId now).Sectioned
      (locks ι κ) none none v 5 := by
  unfold register
  cases prepare x i payload tenantId organizationId workspaceId actorId correlationId now with
  | error e => exact .raise
  | ok entry =>
      simp only [Proc.ofExcept, Proc.bind_def, Proc.ret_bind, Proc.get_bind]
      -- the lock and the save, then the event outside of the lock
      refine Proc.Sectioned.bind (n := 4) (m := 1) (.withLock ?_ (setLocked_isLocked i)) ?_
      · intro v
        refine .read ?_
        intro s _
        cases (s.entries i).get? entry.key with
        | some existing =>
            dsimp only
            split
            · exact .ret
            · exact .raise
        | none =>
            refine Proc.Sectioned.bind (n := 3) (m := 0) save_sectioned fun _ v => ?_
            refine Proc.Sectioned.bind (n := 0) (m := 0) (.modify ?_) fun _ v => .ret
            intro s
            rfl
      · intro locked v
        cases locked with
        | found existing => exact .ret
        | stored entry => exact (record_sectioned _ _ _).bind (m := 0) fun _ _ => .ret

/-- So does a transition. -/
theorem transition_sectioned (key : RegistryKey) (expected target : RegistryState)
    (decisionId releaseId : Option String) :
    (transition x i key expected target correlationId decisionId releaseId).Sectioned (locks ι κ)
      none none v 4 := by
  unfold transition
  refine .withLock ?_ (setLocked_isLocked i)
  intro v
  refine .read ?_
  intro s _
  simp only [Proc.bind_def, Proc.ret_bind]
  cases (s.entries i).get? key with
  | none => exact .raise
  | some current =>
      dsimp only
      split
      · exact .raise
      -- the save waits with the lock held
      · refine Proc.Sectioned.bind (n := 3) (m := 0) save_sectioned fun _ v => ?_
        refine Proc.Sectioned.bind (n := 0) (m := 0) (.modify ?_) fun _ v => .ret
        intro s
        rfl

/-- A transition, and its event. -/
theorem moved_sectioned (key : RegistryKey) (expected target : RegistryState)
    (decisionId releaseId : Option String) (eventType outcome : String) :
    (do
      let entry ← transition x i key expected target correlationId decisionId releaseId
      record entry actorId eventType outcome
      pure entry : Op ι κ RegistryEntry).Sectioned (locks ι κ) none none v 5 :=
  (transition_sectioned key expected target decisionId releaseId).bind fun _ _ =>
    (record_sectioned _ _ _).bind (m := 0) fun _ _ => .ret

omit [DecidableEq κ] in
/-- Hydrating waits for the store before it takes the lock, and for nothing while it holds it. -/
theorem hydrate_sectioned : (hydrate x i).Sectioned (locks ι κ) none none v 2 := by
  simp only [hydrate, Proc.bind_def, Proc.ask_bind, Proc.get_bind]
  refine .await (by simp [locks]) ?_
  intro answer v _
  refine Proc.Sectioned.bind (n := 0) (m := 1) (settle_sectioned answer) fun _ v => ?_
  refine .read ?_
  intro s _
  refine .withLock ?_ (setLocked_isLocked i)
  intro v
  refine .modify ?_
  intro s
  rfl

/-- Every operation holds one lock at a time, and asks five questions at most. -/
theorem Call.prog_sectioned (c : Call ι) (v : ι → Bool) :
    (c.prog x).Sectioned (locks ι κ) none none v 5 := by
  -- five waits at most, whichever the call
  cases c with
  | register i => exact register_sectioned.bind (m := 0) fun _ _ => .ret
  | hydrate i => exact (hydrate_sectioned.mono (by decide)).bind (m := 0) fun _ _ => .ret
  | approve i key actorId decisionId authority correlationId =>
      refine Proc.Sectioned.bind (n := 5) (m := 0) ?_ fun _ _ => .ret
      unfold Registry.approve
      split
      · exact .raise
      · exact moved_sectioned _ _ _ _ _ _ _
  | activate i key actorId releaseId correlationId =>
      exact (moved_sectioned _ _ _ _ _ _ _).bind (m := 0) fun _ _ => .ret
  | suspend i key actorId correlationId =>
      exact (moved_sectioned _ _ _ _ _ _ _).bind (m := 0) fun _ _ => .ret

end Rows

end Sectioned

section Run

variable {ι κ : Type} [DecidableEq ι] [DecidableEq κ]

/-- **No registry is stuck.** Whatever its calls are, over whatever stores and rows, and
however they overlap: as long as a lock is handed over only while it is free. -/
theorem registries_progress (x : Registries ι κ) (s : Memory ι κ) (hs : ∀ i, s.locked i = false)
    (xs : List (RegistryStep ι)) (h : Along (Call.prog x) (locks ι κ).Granted (init s) xs) :
    Progress (Call.prog x) (locks ι κ) 5 (run (Call.prog x) (init s) xs) := by
  refine progress ?_ Call.prog_sectioned hs h
  intro i j hij
  exact Question.acquire.inj hij

/-- The law at two registrations of one skill, the first of which is answered with a failure while
the second has started. -/
theorem registries_progress_attempts :
    Progress (Call.prog atomicity) (locks Unit Unit) 5 (run (Call.prog atomicity) (init .empty)
      [.call 0 registerSkill, .call 1 registerSkill, .resume 0 (answering .raised)]) := by
  apply registries_progress
  · exact fun _ => rfl
  · decide +kernel

end Run

end Alos.Registry
