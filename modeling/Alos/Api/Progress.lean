import Alos.Api.Drafts
import Alos.Registry.Progress

/-! # The public routes are never stuck

A request registers one definition after the other, and none of them before the lock of
the last one is given back.

* `prog_sectioned` says so of every request, and counts its questions;
* `public_progress`: so no request waits for ever on another one.
-/

namespace Alos.Api

open Coop Py Registry Authentication

section Sectioned

variable {ι κ : Type} [DecidableEq ι] [DecidableEq κ] {x : Registries ι κ} {v : ι → Bool}

open Skills in
theorem assignOn_sectioned {κ' : Type} (y : SkillAssignmentService κ') (agents skills : ι)
    (a : Assignment) (now : Datetime) :
    (assignOn y a x agents skills now).Sectioned (locks ι κ) none none v 6 := by
  -- recording waits once, with no lock held
  have hrecord : ∀ outcome reason v,
      (recordAssignment (κ := κ) y a outcome reason : Proc (Memory ι κ) _ _ _ _).Sectioned
        (locks ι κ) none none v 1 := by
    intro outcome reason v
    unfold recordAssignment
    split
    · refine .await (by simp [locks]) ?_
      intro answer v _
      cases answer with
      | returned => exact .ret
      | raised => exact .raise
    · exact .ret
  simp only [assignOn, registerDraft, Proc.bind_def, Proc.get_bind]
  refine .read ?_
  intro s _
  cases draftPayload y a (s.entries agents) (s.entries skills) with
  | error refusal =>
      cases refusal with
      | raised e => exact .raise
      | rejected reason code message =>
          exact ((hrecord _ _ _).mono (by decide)).bind (n := 6) (m := 0) fun _ _ => .raise
  | ok payload =>
      refine Proc.Sectioned.bind (n := 5) (m := 1) ?_ fun draft v => ?_
      · apply register_sectioned.embed
        · rfl
        · exact fun _ _ => Iff.rfl
      · exact (hrecord _ _ _).bind (m := 0) fun _ _ => .ret

end Sectioned

section Factory

open Factory

variable (F : FactoryOrchestrator Subject StoreName) (principal : Principal)
  (correlationId : String) (now : Subject → Datetime) {v : Subject → Bool}

/-- GENESIS is not a lock. -/
theorem registry_acquire (q : Registry.Question Subject) (i : Subject) :
    Question.registry q = publicLocks.acquire i ↔ q = (locks Subject StoreName).acquire i := by
  simp [publicLocks, locks]

theorem enroll_sectioned (i : Subject) (definition : Json.Fields) :
    (enroll F i definition principal correlationId now).Sectioned publicLocks none none v 5 := by
  apply register_sectioned.embed
  · rfl
  · exact registry_acquire

theorem create_sectioned (proposal : Proposal) :
    (create F proposal principal correlationId now).Sectioned publicLocks none none v 10 := by
  simp only [create, Proc.bind_def]
  refine Proc.Sectioned.bind (n := 0) (m := 10) (.ofExcept _) fun definition v => ?_
  refine Proc.Sectioned.bind (n := 5) (m := 5)
    (enroll_sectioned F principal correlationId now _ definition) fun capability v => ?_
  split
  · split
    · refine Proc.Sectioned.bind (n := 5) (m := 0)
        (enroll_sectioned F principal correlationId now _ _) fun agent v => ?_
      exact .ofExcept _
    · exact .raise
  · exact .ofExcept _

theorem analyze_sectioned (payload : Json.Fields) :
    (analyze F payload principal correlationId now).Sectioned publicLocks none none v 11 := by
  simp only [analyze, Proc.bind_def, Proc.get_bind]
  refine .read ?_
  intro s _
  refine Proc.Sectioned.bind (n := 0) (m := 11) (.ofExcept _) fun internalRequest v => ?_
  -- one wait for GENESIS, ten for the two registrations at most
  refine Proc.Sectioned.bind (n := 1) (m := 10) (.await (by simp [publicLocks]) ?_)
    fun result v => ?_
  · intro answer v _
    cases answer with
    | returned result => exact .ret
    | failed e => exact .raise
    | raised => exact .raise
  · refine Proc.Sectioned.bind (n := 0) (m := 10) (.ofExcept _) fun resolved v => ?_
    cases resolved with
    | reuse response => exact .ret
    | create proposal => exact create_sectioned F principal correlationId now proposal

end Factory

section Requests

variable (b : Application) (accounts : List Authentication.Call)

theorem serve_sectioned (principal : Principal) (correlationId : String)
    (now : Subject → Datetime) (route : Route) (v : Subject → Bool) :
    (serve b principal correlationId now route).Sectioned publicLocks none none v 11 := by
  -- a read waits for nothing
  have hanswer : ∀ route, (Proc.get.bind fun s =>
      Proc.ofExcept (answer b principal correlationId s route) : PublicOp Json.Fields).Sectioned
        publicLocks none none v 11 :=
    fun route => .read fun s _ => .ofExcept _
  cases route with
  | assignSkill agentId payload =>
      by_cases hmismatch : payload.agentId.val ≠ agentId
      · rw [serve, if_pos hmismatch]
        exact .raise
      · rw [serve, if_neg hmismatch]
        refine Proc.Sectioned.bind (n := 11) (m := 0) ?_ fun _ _ => .ret
        have hassign := assignOn_sectioned (v := v) (x := b.registries) b.skills Subject.agent
          Subject.skill (assignmentOf principal correlationId payload) (now .agent)
        apply (hassign.mono (by decide)).embed
        · rfl
        · exact registry_acquire
  | analyzeFactoryRequirement payload =>
      apply (analyze_sectioned b.factory principal correlationId now payload).embed
      · rfl
      · exact fun _ _ => Iff.rfl
  | _ => exact hanswer _

/-- A request holds one lock at a time, and asks eleven questions at most. -/
theorem prog_sectioned (r : PublicRequest) (v : Subject → Bool) :
    (b.prog accounts r).Sectioned publicLocks none none v 11 := by
  unfold Application.prog
  split
  · exact .raise
  · exact .raise
  · exact serve_sectioned b _ r.correlationId r.now r.route v

/-- **No request is stuck.** Whatever the requests are, however they overlap, and
whatever GENESIS, the stores and the audit sink answer: none of them waits for ever on
what another one holds. -/
theorem public_progress (rows : Table RegistryEntry.storeKey) (xs : List PublicStep)
    (h : Along (b.prog accounts) publicLocks.Granted (init (b.started rows)) xs) :
    Progress (b.prog accounts) publicLocks 11 (b.served accounts rows xs) := by
  refine progress ?_ (prog_sectioned b accounts) (fun _ => rfl) h
  intro i j hij
  exact Question.acquire.inj (Factory.Question.registry.inj hij)

/-- A request waits for the lock that another one holds. -/
def waitingSteps : List PublicStep :=
  [.call 0 assignSummary, .call 1 assignSummary, .resume 0 replied]

theorem public_progress_waiting : Progress (office.prog [maker]) publicLocks 11
      (office.served [maker] summaryRows waitingSteps) ∧
    (office.served [maker] summaryRows waitingSteps).shared.locked .agent = true := by
  refine ⟨public_progress office [maker] summaryRows waitingSteps ?_, ?_⟩
  · decide +kernel
  · decide +kernel

end Requests

end Alos.Api
