import Mathlib.Data.List.Forall2
import Mathlib.Data.List.Infix
import Alos.Coop.Rely
import Alos.Releases.Segments

/-! # The gates before a release

Any number of callers, any schedule, any answers of the audit sink. A release
that is released or active, or was at some time, has been taken through every
gate of its path, in the order of the path, by calls that passed their checks;
a release with a returned, rejected or held decision never gets there.

* `Gate.PassedBy` says which call takes a release through which gate;
* `ReleaseState.gates` is the part of the path that a state stands for;
* `GateInv` ties the records to the calls so far, and is kept by every segment
  of every call (`gates_kept`), also by the one with which `rollback` writes a
  snapshot back that it took before an await: `Grows` is all it needs to know
  about what the others did in between.
-/

namespace Alos.Releases

open Coop

/-! ## The path -/

inductive Gate where
  | implemented
  | assured
  | reviewed
  | submittedToIt
  | approvedByIt
  | submittedToDirector
  | approvedByDirector
  | released
deriving DecidableEq, Repr

/-- The call takes the release `r`, whose record is `release`, through the
gate. -/
def Gate.PassedBy (r : String) (release : GovernedRelease) : Gate → Call → Prop
  | .implemented, .markImplemented r' _ _ => r' = r
  | .assured, .recordAutomatedAssurance r' report _ _ => r' = r ∧ report.passed
  | .reviewed, .recordAiReviewPackage r' package _ _ => r' = r ∧ Matches package release
  | .submittedToIt, .submitForIt r' _ _ => r' = r
  | .approvedByIt, .recordItDecision r' decision _ =>
      r' = r ∧ decision.authority = .it ∧ decision.outcome = .approved ∧
        decision.reviewId = release.reviewId
  | .submittedToDirector, .submitForDirector r' _ _ => r' = r
  | .approvedByDirector, .recordDirectorDecision r' decision _ =>
      r' = r ∧ decision.authority = .director ∧ decision.outcome = .approved ∧
        decision.reviewId = release.reviewId
  | .released, .release r' _ _ => r' = r
  | _, _ => False

/-- The gates up to the decision of IT, in order. -/
def itGates : List Gate := [.implemented, .assured, .reviewed, .submittedToIt, .approvedByIt]

/-- The gates that a release passes, in order. -/
def path (m : Materiality) : List Gate :=
  itGates ++ (if requiresDirector m then [.submittedToDirector, .approvedByDirector] else []) ++
    [.released]

/-- The gates that a release in a given state has passed. -/
def ReleaseState.gates (m : Materiality) : ReleaseState → List Gate
  | .implemented => [.implemented]
  | .automatedAssurance => [.implemented, .assured]
  | .aiReviewed => [.implemented, .assured, .reviewed]
  | .readyForIt => [.implemented, .assured, .reviewed, .submittedToIt]
  | .itApproved => itGates
  | .readyForDirector => itGates ++ [.submittedToDirector]
  | .directorApproved => itGates ++ [.submittedToDirector, .approvedByDirector]
  | .released | .active | .suspended | .rolledBack => path m
  | .draft | .revisionRequired | .returned | .rejected | .hold | .blocked => []

/-- The states after the last gate. -/
def ReleaseState.Launched (state : ReleaseState) : Prop :=
  state = .released ∨ state = .active ∨ state = .suspended ∨ state = .rolledBack

instance (state : ReleaseState) : Decidable state.Launched :=
  inferInstanceAs (Decidable (_ ∨ _))

/-- The states after an adverse decision. -/
def ReleaseState.Refused (state : ReleaseState) : Prop :=
  state = .returned ∨ state = .rejected ∨ state = .hold

instance (state : ReleaseState) : Decidable state.Refused :=
  inferInstanceAs (Decidable (_ ∨ _))

/-- A decision on `r` other than an approval. -/
def Adverse (r : String) : Call → Prop
  | .recordItDecision r' decision _ | .recordDirectorDecision r' decision _ =>
      r' = r ∧ decision.outcome ≠ .approved
  | _ => False

/-- The gates have been passed by some of the calls, in this order. -/
def Passed (r : String) (release : GovernedRelease) (gates : List Gate) (calls : List Call) :
    Prop :=
  ∃ passed, passed.Sublist calls ∧ List.Forall₂ (Gate.PassedBy r release) gates passed

/-- The fields of a record that never change. -/
structure SameIdentity (old new : GovernedRelease) : Prop where
  releaseId : new.releaseId = old.releaseId
  reviewId : new.reviewId = old.reviewId
  tenantId : new.tenantId = old.tenantId
  workspaceId : new.workspaceId = old.workspaceId
  subjectId : new.subjectId = old.subjectId
  subjectVersion : new.subjectVersion = old.subjectVersion
  materiality : new.materiality = old.materiality

/-- A release has its own identity. -/
theorem SameIdentity.refl (release : GovernedRelease) : SameIdentity release release :=
  ⟨rfl, rfl, rfl, rfl, rfl, rfl, rfl⟩

/-- The identity is kept along any number of changes. -/
theorem SameIdentity.trans {a b c : GovernedRelease} (hab : SameIdentity a b)
    (hbc : SameIdentity b c) : SameIdentity a c where
  releaseId := hbc.releaseId.trans hab.releaseId
  reviewId := hbc.reviewId.trans hab.reviewId
  tenantId := hbc.tenantId.trans hab.tenantId
  workspaceId := hbc.workspaceId.trans hab.workspaceId
  subjectId := hbc.subjectId.trans hab.subjectId
  subjectVersion := hbc.subjectVersion.trans hab.subjectVersion
  materiality := hbc.materiality.trans hab.materiality

/-- A transition keeps the identity. -/
theorem sameIdentity_moved (current : GovernedRelease) (target : ReleaseState) (c : String)
    (o : Options) : SameIdentity current (current.moved target c o) :=
  ⟨rfl, rfl, rfl, rfl, rfl, rfl, rfl⟩

/-- A call that opens a gate for a release opens it for the release as it is later. -/
theorem Gate.PassedBy.congr {r : String} {old new : GovernedRelease} {g : Gate} {c : Call}
    (h : SameIdentity old new) (hg : g.PassedBy r old c) : g.PassedBy r new c := by
  cases g <;> cases c <;>
    simp_all [Gate.PassedBy, Matches, h.reviewId, h.tenantId, h.workspaceId, h.subjectId,
      h.subjectVersion]

/-- So do the gates that are passed. -/
theorem Passed.congr {r : String} {old new : GovernedRelease} {gates : List Gate}
    {calls : List Call} (h : SameIdentity old new) (hp : Passed r old gates calls) :
    Passed r new gates calls := by
  rcases hp with ⟨passed, hsub, hall⟩
  exact ⟨passed, hsub, hall.imp fun _ _ hg => hg.congr h⟩

/-- No gate is passed by no call. -/
theorem Passed.nil {r : String} {release : GovernedRelease} {calls : List Call} :
    Passed r release [] calls :=
  ⟨[], List.nil_sublist _, .nil⟩

/-- A later call takes no passed gate back. -/
theorem Passed.later {r : String} {release : GovernedRelease} {gates : List Gate}
    {calls : List Call} (h : Passed r release gates calls) (c : Call) :
    Passed r release gates (calls ++ [c]) := by
  rcases h with ⟨passed, hsub, hall⟩
  exact ⟨passed, hsub.trans (List.sublist_append_left _ _), hall⟩

/-- One more call, one more gate. -/
theorem Passed.snoc {r : String} {release : GovernedRelease} {gates : List Gate}
    {calls : List Call} {g : Gate} {c : Call} (h : Passed r release gates calls)
    (hg : g.PassedBy r release c) : Passed r release (gates ++ [g]) (calls ++ [c]) := by
  rcases h with ⟨passed, hsub, hall⟩
  refine ⟨passed ++ [c], hsub.append (List.Sublist.refl _), ?_⟩
  exact List.rel_append hall (.cons hg .nil)

/-! ## The invariant -/

theorem opens_keyed {s : InMemoryReleaseAuthority} {releaseId : String}
    {guard : GovernedRelease → Prop} [DecidablePred guard] {target : ReleaseState}
    {actorId correlationId : String} {options : Options}
    {rest : GovernedRelease → Op GovernedRelease} {o : Opening} (h : WellKeyed s)
    (ho : opens s releaseId guard target actorId correlationId options rest = some o) :
    WellKeyed (s.setRelease o.releaseId o.release) := by
  obtain ⟨current, hcurrent, -, rfl⟩ := opens_eq_some ho
  have hid : current.releaseId = releaseId := h _ _ hcurrent
  exact h.setRelease hid

/-- The records agree with the calls that have passed their checks. -/
structure GateInv (s : InMemoryReleaseAuthority) (calls : List Call) : Prop where
  passed : ∀ r release, s.releases r = some release →
    Passed r release (release.state.gates release.materiality) calls
  launched : ∀ r release, s.releases r = some release → release.everReleased = true →
    release.state.Launched
  refused : ∀ r c, c ∈ calls → Adverse r c →
    ∃ release, s.releases r = some release ∧ release.state.Refused
  keyed : WellKeyed s

/-- What happens to the records while a call is suspended. -/
def Grows (s s' : InMemoryReleaseAuthority) : Prop :=
  ∀ r old, s.releases r = some old → ∃ new, s'.releases r = some new ∧ SameIdentity old new ∧
    (old.everReleased = true → new.everReleased = true)

/-- A state grows into itself. -/
theorem Grows.refl (s : InMemoryReleaseAuthority) : Grows s s :=
  fun _ old hold => ⟨old, hold, .refl old, id⟩

/-- Growing is passed on. -/
theorem Grows.trans {s₁ s₂ s₃ : InMemoryReleaseAuthority} (h₁₂ : Grows s₁ s₂)
    (h₂₃ : Grows s₂ s₃) : Grows s₁ s₃ := by
  intro r old hold
  obtain ⟨mid, hmid, hsame, hever⟩ := h₁₂ r old hold
  obtain ⟨new, hnew, hsame', hever'⟩ := h₂₃ r mid hmid
  exact ⟨new, hnew, hsame.trans hsame', hever' ∘ hever⟩

/-- Writing a release that keeps its identity and its history is growing. -/
theorem Grows.setRelease {s : InMemoryReleaseAuthority} {r : String} {release : GovernedRelease}
    (h : ∀ old, s.releases r = some old → SameIdentity old release ∧
      (old.everReleased = true → release.everReleased = true)) :
    Grows s (s.setRelease r release) := by
  intro r' old hold
  by_cases hr : r' = r
  · subst hr
    exact ⟨release, by simp, h old hold⟩
  · exact ⟨old, by simpa [hr] using hold, .refl old, id⟩

/-- Before the first call there is no release to be in order. -/
theorem gateInv_empty : GateInv .empty [] where
  passed := by simp [InMemoryReleaseAuthority.empty]
  launched := by simp [InMemoryReleaseAuthority.empty]
  refused := by simp
  keyed := by simp [WellKeyed, InMemoryReleaseAuthority.empty]

/-- A release in use has not been refused. -/
theorem launched_not_refused {state : ReleaseState} (h : state.Launched) : ¬ state.Refused := by
  cases state <;> simp_all [ReleaseState.Launched, ReleaseState.Refused]

/-- To be in use, a release has passed the whole path of its materiality. -/
theorem gates_of_launched {state : ReleaseState} {m : Materiality} (h : state.Launched) :
    state.gates m = path m := by
  cases state <;> simp_all [ReleaseState.Launched, ReleaseState.gates]

/-- A record is written by a call that has been counted already. -/
theorem GateInv.rewrite {s : InMemoryReleaseAuthority} {calls : List Call} {r : String}
    {old new : GovernedRelease} (h : GateInv s calls) (hold : s.releases r = some old)
    (hsame : SameIdentity old new) (hfrom : old.state.Launched) (hto : new.state.Launched) :
    GateInv (s.setRelease r new) calls := by
  refine ⟨?_, ?_, ?_, h.keyed.setRelease (hsame.releaseId.trans (h.keyed r old hold))⟩
  · intro r' release hr'
    by_cases hr : r' = r
    · subst hr
      simp only [InMemoryReleaseAuthority.setRelease_releases, Function.update_self,
        Option.some.injEq] at hr'
      subst hr'
      -- it has passed all gates before and after
      have hpassed := h.passed r' old hold
      rw [gates_of_launched hfrom] at hpassed
      rw [gates_of_launched hto, hsame.materiality]
      exact hpassed.congr hsame
    · exact h.passed r' release (by simpa [hr] using hr')
  · intro r' release hr' hever
    by_cases hr : r' = r
    · subst hr
      simp only [InMemoryReleaseAuthority.setRelease_releases, Function.update_self,
        Option.some.injEq] at hr'
      subst hr'
      exact hto
    · exact h.launched r' release (by simpa [hr] using hr') hever
  · intro r' c hc hadverse
    obtain ⟨release, hrelease, hrefused⟩ := h.refused r' c hc hadverse
    by_cases hr : r' = r
    · subst hr
      rw [hold] at hrelease
      cases hrelease
      -- a launched release has not been refused
      exact absurd hrefused (launched_not_refused hfrom)
    · exact ⟨release, by simpa [hr] using hrelease, hrefused⟩

/-- A record is written by the call `c`, which is counted with that. -/
theorem GateInv.write {s : InMemoryReleaseAuthority} {calls : List Call} {r : String}
    {release : GovernedRelease} {c : Call} (h : GateInv s calls)
    (hpassed : Passed r release (release.state.gates release.materiality) (calls ++ [c]))
    (hlaunched : release.everReleased = true → release.state.Launched)
    (hbefore : ∀ old, s.releases r = some old → ¬ old.state.Refused)
    (hadverse : ∀ r', Adverse r' c → r' = r ∧ release.state.Refused)
    (hkeyed : WellKeyed (s.setRelease r release)) :
    GateInv (s.setRelease r release) (calls ++ [c]) := by
  refine ⟨?_, ?_, ?_, hkeyed⟩
  · intro r' release' hr'
    by_cases hr : r' = r
    · subst hr
      simp only [InMemoryReleaseAuthority.setRelease_releases, Function.update_self,
        Option.some.injEq] at hr'
      subst hr'
      exact hpassed
    · exact (h.passed r' release' (by simpa [hr] using hr')).later c
  · intro r' release' hr' hever
    by_cases hr : r' = r
    · subst hr
      simp only [InMemoryReleaseAuthority.setRelease_releases, Function.update_self,
        Option.some.injEq] at hr'
      subst hr'
      exact hlaunched hever
    · exact h.launched r' release' (by simpa [hr] using hr') hever
  · intro r' d hd hd'
    rcases List.mem_append.1 hd with hmem | hlast
    · -- an earlier decision
      obtain ⟨old, hold, hrefused⟩ := h.refused r' d hmem hd'
      by_cases hr : r' = r
      · subst hr
        exact absurd hrefused (hbefore old hold)
      · exact ⟨old, by simpa [hr] using hold, hrefused⟩
    · -- the decision that is taken now
      have hdc : d = c := by simpa using hlast
      subst hdc
      obtain ⟨rfl, hrefused⟩ := hadverse r' hd'
      exact ⟨release, by simp, hrefused⟩

/-! ## Openings -/

/-- An opening does the right thing to the invariant and to suspended calls. -/
def OpensWell (s : InMemoryReleaseAuthority) (calls : List Call) (c : Call) (o : Opening) : Prop :=
  GateInv (s.setRelease o.releaseId o.release) (calls ++ [c]) ∧
    Grows s (s.setRelease o.releaseId o.release)

section OpensWell

variable {s : InMemoryReleaseAuthority} {calls : List Call} {c : Call} {o : Opening}
  {releaseId : String} {guard : GovernedRelease → Prop} [DecidablePred guard]
  {target : ReleaseState} {actorId correlationId : String} {options : Options}
  {rest : GovernedRelease → Op GovernedRelease}

/-- A transition up to its event only makes the state grow. -/
theorem grows_opens
    (ho : opens s releaseId guard target actorId correlationId options rest = some o)
    (hever : options.everReleased ≠ some false) :
    Grows s (s.setRelease o.releaseId o.release) := by
  obtain ⟨current, hcurrent, -, rfl⟩ := opens_eq_some ho
  apply Grows.setRelease
  intro old hold
  rw [hcurrent] at hold
  cases hold
  refine ⟨sameIdentity_moved _ _ _ _, ?_⟩
  intro hold
  rw [moved_everReleased, hold]
  cases hoption : options.everReleased with
  | none => rfl
  | some b => cases b <;> simp_all

/-- A call that takes a release through the next gate of its path. -/
theorem opensWell_gate (h : GateInv s calls) (g : Gate)
    (ho : opens s releaseId guard target actorId correlationId options rest = some o)
    (hgate : ∀ current, s.releases releaseId = some current → guard current →
      ¬ current.state.Launched ∧ ¬ current.state.Refused ∧ g.PassedBy releaseId current c ∧
        target.gates current.materiality =
          current.state.gates current.materiality ++ [g])
    (hever : options.everReleased = none ∨ options.everReleased = some true ∧ target.Launched)
    (hadverse : ∀ r, ¬ Adverse r c) : OpensWell s calls c o := by
  have hgrows := grows_opens ho (by rcases hever with he | ⟨he, -⟩ <;> simp [he])
  have hkeyed := opens_keyed h.keyed ho
  refine ⟨?_, hgrows⟩
  obtain ⟨current, hcurrent, hguard, rfl⟩ := opens_eq_some ho
  obtain ⟨hidle, hnot, hpass, hgates⟩ := hgate current hcurrent hguard
  refine h.write ?_ ?_ ?_ ?_ hkeyed
  · -- the gate is the next one on the path
    have hsame := sameIdentity_moved current target correlationId options
    rw [moved_state, hsame.materiality, hgates]
    exact ((h.passed _ _ hcurrent).snoc hpass).congr hsame
  · intro hreleased
    rw [moved_everReleased] at hreleased
    -- only `release` marks a release as released
    rcases hever with he | ⟨-, hlaunched⟩
    · rw [he] at hreleased
      exact absurd (h.launched _ _ hcurrent hreleased) hidle
    · exact hlaunched
  · intro old hold
    rw [hcurrent] at hold
    cases hold
    exact hnot
  · intro r hr
    exact absurd hr (hadverse r)

/-- A decision other than an approval. -/
theorem opensWell_refused (h : GateInv s calls)
    (ho : opens s releaseId guard target actorId correlationId options rest = some o)
    (hguard : ∀ current, guard current → ¬ current.state.Launched ∧ ¬ current.state.Refused)
    (hever : options.everReleased = none) (htarget : target.Refused)
    (hadverse : ∀ r, Adverse r c → r = releaseId) : OpensWell s calls c o := by
  have hgrows := grows_opens ho (by simp [hever])
  have hkeyed := opens_keyed h.keyed ho
  refine ⟨?_, hgrows⟩
  obtain ⟨current, hcurrent, hg, rfl⟩ := opens_eq_some ho
  refine h.write ?_ ?_ ?_ ?_ hkeyed
  -- a refused release has no gates to have passed
  · have hnil : target.gates current.materiality = [] := by
      rcases htarget with rfl | rfl | rfl <;> rfl
    rw [moved_state, (sameIdentity_moved current target correlationId options).materiality, hnil]
    exact .nil
  · intro hreleased
    rw [moved_everReleased, hever] at hreleased
    exact absurd (h.launched _ _ hcurrent hreleased) (hguard current hg).1
  · intro old hold
    rw [hcurrent] at hold
    cases hold
    exact (hguard current hg).2
  · intro r hr
    exact ⟨hadverse r hr, htarget⟩

/-- A call after the last gate. -/
theorem opensWell_launched (h : GateInv s calls)
    (ho : opens s releaseId guard target actorId correlationId options rest = some o)
    (hguard : ∀ current, guard current → current.state.Launched)
    (hever : options.everReleased ≠ some false) (htarget : target.Launched)
    (hadverse : ∀ r, ¬ Adverse r c) : OpensWell s calls c o := by
  have hgrows := grows_opens ho hever
  have hkeyed := opens_keyed h.keyed ho
  refine ⟨?_, hgrows⟩
  obtain ⟨current, hcurrent, hg, rfl⟩ := opens_eq_some ho
  have hsame := sameIdentity_moved current target correlationId options
  refine h.write ?_ ?_ ?_ ?_ hkeyed
  -- the state it comes from has the same gates behind it
  · have hpassed := h.passed _ _ hcurrent
    rw [gates_of_launched (hguard current hg)] at hpassed
    rw [moved_state, gates_of_launched htarget, hsame.materiality]
    exact (hpassed.later c).congr hsame
  · intro _
    exact htarget
  · intro old hold
    rw [hcurrent] at hold
    cases hold
    exact launched_not_refused (hguard current hg)
  · intro r hr
    exact absurd hr (hadverse r)

end OpensWell

/-- A decision takes its release on, or to a state that it does not leave. -/
theorem opensWell_decision {s : InMemoryReleaseAuthority} {calls : List Call} {c : Call}
    {o : Opening} {releaseId corr : String} {decision : AuthoritativeDecision}
    {level : AuthorityLevel} {source approved : ReleaseState} {options : Options}
    {rest : GovernedRelease → Op GovernedRelease} (h : GateInv s calls) (g : Gate)
    (ho : opens s releaseId
      (fun current => Decides level decision current ∧ current.state = source)
      (decisionTarget decision.outcome approved) decision.actorId corr options rest = some o)
    (hsource : ¬ source.Launched ∧ ¬ source.Refused)
    (hgates : ∀ m, approved.gates m = source.gates m ++ [g])
    (hpass : ∀ current, decision.authority = level → decision.outcome = .approved →
      decision.reviewId = current.reviewId → g.PassedBy releaseId current c)
    (hever : options.everReleased = none)
    (hadverse : ∀ r, Adverse r c → r = releaseId ∧ decision.outcome ≠ .approved) :
    OpensWell s calls c o := by
  by_cases hout : decision.outcome = .approved
  · -- an approval is a gate passed
    apply opensWell_gate h g ho
    · rintro current - ⟨hdecides, hstate⟩
      rw [hstate, hout]
      exact ⟨hsource.1, hsource.2, hpass current hdecides.1 hout hdecides.2.1, hgates _⟩
    · exact .inl hever
    · intro r hr
      exact (hadverse r hr).2 hout
  · -- anything else refuses the release
    apply opensWell_refused h ho
    · rintro current ⟨-, hstate⟩
      rw [hstate]
      exact hsource
    · exact hever
    · cases hdecision : decision.outcome <;>
        simp_all [decisionTarget, ReleaseState.Refused]
    · intro r hr
      exact (hadverse r hr).1

/-- What a call writes before it waits is in order, since the gates before it are. -/
theorem opening_well {s : InMemoryReleaseAuthority} {calls : List Call} {c : Call} {o : Opening}
    (h : GateInv s calls) (ho : c.opening s = some o) : OpensWell s calls c o := by
  cases c with
  | create r rv t org w sub v m a c =>
      simp only [Call.opening] at ho
      split at ho
      · -- a new release has passed no gate
        rename_i hnone
        cases ho
        refine ⟨h.write .nil (by simp) (by simp [hnone]) (by simp [Adverse])
          (h.keyed.setRelease rfl), ?_⟩
        exact Grows.setRelease (by simp [hnone])
      · cases ho
  | markImplemented r a c =>
      rw [Call.opening] at ho
      apply opensWell_gate h .implemented ho
      · rintro current - (hstate | hstate) <;>
          simp [hstate, ReleaseState.Launched, ReleaseState.Refused, Gate.PassedBy,
            ReleaseState.gates]
      · exact .inl rfl
      · simp [Adverse]
  | recordAutomatedAssurance r report a c =>
      rw [Call.opening] at ho
      apply opensWell_gate h .assured ho
      · rintro current - ⟨hpassed, hstate⟩
        simp [hstate, hpassed, ReleaseState.Launched, ReleaseState.Refused, Gate.PassedBy,
          ReleaseState.gates]
      · exact .inl rfl
      · simp [Adverse]
  | recordAiReviewPackage r package a c =>
      rw [Call.opening] at ho
      apply opensWell_gate h .reviewed ho
      · rintro current - ⟨hmatches, hstate⟩
        simp [hstate, hmatches, ReleaseState.Launched, ReleaseState.Refused, Gate.PassedBy,
          ReleaseState.gates]
      · exact .inl rfl
      · simp [Adverse]
  | submitForIt r a c =>
      rw [Call.opening] at ho
      apply opensWell_gate h .submittedToIt ho
      · rintro current - hstate
        simp [hstate, ReleaseState.Launched, ReleaseState.Refused, Gate.PassedBy,
          ReleaseState.gates]
      · exact .inl rfl
      · simp [Adverse]
  | recordItDecision r decision c =>
      rw [Call.opening] at ho
      apply opensWell_decision h .approvedByIt ho (by decide)
      · intro m
        rfl
      · intro current hlevel hout hreview
        exact ⟨rfl, hlevel, hout, hreview⟩
      · rfl
      · rintro r' ⟨rfl, hout⟩
        exact ⟨rfl, hout⟩
  | submitForDirector r a c =>
      rw [Call.opening] at ho
      apply opensWell_gate h .submittedToDirector ho
      · rintro current - ⟨-, hstate⟩
        simp [hstate, ReleaseState.Launched, ReleaseState.Refused, Gate.PassedBy,
          ReleaseState.gates]
      · exact .inl rfl
      · simp [Adverse]
  | recordDirectorDecision r decision c =>
      rw [Call.opening] at ho
      apply opensWell_decision h .approvedByDirector ho (by decide)
      · intro m
        rfl
      · intro current hlevel hout hreview
        exact ⟨rfl, hlevel, hout, hreview⟩
      · rfl
      · rintro r' ⟨rfl, hout⟩
        exact ⟨rfl, hout⟩
  | release r a c =>
      rw [Call.opening] at ho
      apply opensWell_gate h .released ho
      · rintro current - hstate
        unfold approvedState at hstate
        split at hstate <;>
          simp_all [ReleaseState.Launched, ReleaseState.Refused, Gate.PassedBy,
            ReleaseState.gates, path, itGates]
      · exact .inr ⟨rfl, by decide⟩
      · simp [Adverse]
  | activate r a c =>
      rw [Call.opening] at ho
      -- the release has been launched, and stays so
      apply opensWell_launched h ho
      · rintro current hstate
        simp [hstate, ReleaseState.Launched]
      · simp
      · decide
      · simp [Adverse]
  | activateKillSwitch r a reason c =>
      rw [Call.opening] at ho
      apply opensWell_launched h ho
      · rintro current ⟨-, hstate⟩
        simp [hstate, ReleaseState.Launched]
      · simp
      · decide
      · simp [Adverse]
  | clearKillSwitch r a reason c =>
      rw [Call.opening] at ho
      apply opensWell_launched h ho
      · rintro current ⟨-, -, hstate⟩
        simp [hstate, ReleaseState.Launched]
      · simp
      · decide
      · simp [Adverse]
  | rollback r t a reason c =>
      rw [Call.opening] at ho
      split at ho
      · cases ho
      · apply opensWell_launched h ho
        · rintro current ⟨-, -, hstate, -⟩
          simp [hstate, ReleaseState.Launched]
        · simp
        · decide
        · simp [Adverse]

/-! ## Every segment of every call -/

abbrev ReleaseLabel :=
  Label Call AuditEvent (fun _ => Appended) ReleaseError GovernedRelease

/-- The segment is the first of its call and stops at an append: the call has
passed its checks. -/
def Enters (l : ReleaseLabel) : Bool :=
  match l.input, l.stop with
  | .start, .awaiting _ => true
  | _, _ => false

/-- The calls that have passed their checks, in the order in which they did. -/
def accepted (tr : List ReleaseLabel) : List Call := (tr.filter Enters).map (·.call)

/-- A label counts as accepted when it enters the state it announces. -/
theorem accepted_snoc (tr : List ReleaseLabel) (l : ReleaseLabel) :
    accepted (tr ++ [l]) = if Enters l then accepted tr ++ [l.call] else accepted tr := by
  cases h : Enters l <;> simp [accepted, h]

/-- The contract of a call: it keeps `GateInv` and relies on others only making the state grow. -/
def gateContract :
    Contract Call InMemoryReleaseAuthority AuditEvent (fun _ => Appended) ReleaseError
      GovernedRelease where
  Inv w := GateInv w.shared (accepted w.trace)
  Rely w w' := Grows w.shared w'.shared
  refl w := .refl w.shared
  trans h₁₂ h₂₃ := h₁₂.trans h₂₃

section Segments

variable {i : ℕ} {c : Call}
  {w : World Call InMemoryReleaseAuthority AuditEvent (fun _ => Appended) ReleaseError
    GovernedRelease}
  {x : Input AuditEvent fun _ => Appended}

/-- A segment that enters no call and writes only records it may write. -/
theorem lands_of_inv {s : InMemoryReleaseAuthority} {l : ReleaseLabel} (hl : Enters l = false)
    (hinv : GateInv s (accepted w.trace)) (hgrows : Grows w.shared s) :
    gateContract.Lands w s l := by
  refine ⟨hgrows, ?_⟩
  change GateInv s (accepted (w.trace ++ [l]))
  rw [accepted_snoc, hl]
  exact hinv

/-- Writing the index keeps every release. -/
theorem lands_index {key : SubjectKey} {v : Option String} {l : ReleaseLabel}
    (hl : Enters l = false) (hinv : gateContract.Inv w) :
    gateContract.Lands w (w.shared.setActive key v) l :=
  lands_of_inv hl ⟨hinv.passed, hinv.launched, hinv.refused, hinv.keyed⟩ (Grows.refl w.shared)

/-- A step that writes nothing keeps the invariant. -/
theorem lands_same {l : ReleaseLabel} (hl : Enters l = false) (hinv : gateContract.Inv w) :
    gateContract.Lands w w.shared l :=
  lands_of_inv hl hinv (.refl _)

/-- After an append: the failure of the append ends the call. -/
theorem settle_safe {answer : Appended} {e : AuditEvent} {p : Op GovernedRelease}
    (hinv : gateContract.Inv w)
    (hp : p.Safe gateContract i c (.answer ⟨e, .returned⟩) w w.shared) :
    ((settle answer).bind fun _ => p).Safe gateContract i c (.answer ⟨e, answer⟩) w w.shared := by
  cases answer with
  | raised => exact fun _ => lands_same rfl hinv
  | returned => exact hp

/-- A call that returns after its event is done. -/
theorem ret_safe {release : GovernedRelease} {answer : Exchange AuditEvent fun _ => Appended}
    (hinv : gateContract.Inv w) :
    (Proc.ret release : Op GovernedRelease).Safe gateContract i c (.answer answer) w w.shared :=
  fun _ => lands_same rfl hinv

/-- A call whose last write is that of the index is safe. -/
theorem writeIndex_safe {key : SubjectKey} {v : Option String} {release : GovernedRelease}
    {answer : Exchange AuditEvent fun _ => Appended} (hinv : gateContract.Inv w) :
    (writeIndex key v release).Safe gateContract i c (.answer answer) w w.shared :=
  fun _ => lands_index rfl hinv

/-- The indexed release is suspended. -/
theorem supersede_safe {release : GovernedRelease} {r a corr : String}
    {answer : Exchange AuditEvent fun _ => Appended} (hinv : gateContract.Inv w) :
    (supersede release r a corr).Safe gateContract i c (.answer answer) w w.shared := by
  rw [Proc.safe_iff_advance]
  intro _
  rcases supersede_cases w.shared release r with hindex | ⟨other, hindex, hne⟩
  · rw [supersede_advance hindex]
    exact ⟨lands_index rfl hinv, trivial⟩
  have hbegins := supersede_begins a corr hindex hne
  cases ho : opens w.shared other (fun old => old.state = .active) .suspended a corr
      supersededOptions fun _ => writeIndex release.subjectKey (some r) release with
  | none =>
      rw [ho] at hbegins
      rcases hbegins with ⟨e, he⟩
      rw [he]
      exact ⟨lands_same rfl hinv, trivial⟩
  | some o =>
      rw [ho] at hbegins
      rw [show _ = _ from hbegins]
      have hgrows := grows_opens ho (by simp [supersededOptions])
      obtain ⟨old, hold, hactive, rfl⟩ := opens_eq_some ho
      -- the suspended release was active: it stays launched
      have hrewrite := GateInv.rewrite hinv hold
        (sameIdentity_moved old .suspended corr supersededOptions) (.inr (.inl hactive))
        (.inr (.inr (.inl rfl)))
      refine ⟨lands_of_inv rfl hrewrite hgrows, ?_⟩
      intro answer' w' hlater
      exact settle_safe hlater.inv (writeIndex_safe hlater.inv)

/-- The target is written back from a snapshot that was taken in `s`. -/
theorem restore_safe {s : InMemoryReleaseAuthority} {rolledBack target : GovernedRelease}
    {t a reason corr : String} {answer : Exchange AuditEvent fun _ => Appended}
    (hinv : gateContract.Inv w) (htarget : s.releases t = some target)
    (hever : target.everReleased = true) (hgrows : Grows s w.shared) :
    (restore rolledBack target t a reason corr).Safe gateContract i c (.answer answer) w
      w.shared := by
  intro _
  obtain ⟨now, hnow, hsame, hever'⟩ := hgrows t target htarget
  -- the record as it is now has the identity of the snapshot and has been released
  have hidentity : SameIdentity now (target.restored corr) :=
    ⟨hsame.releaseId.symm, hsame.reviewId.symm, hsame.tenantId.symm, hsame.workspaceId.symm, hsame.subjectId.symm,
      hsame.subjectVersion.symm, hsame.materiality.symm⟩
  have hrewrite := GateInv.rewrite hinv hnow hidentity (hinv.launched t now hnow (hever' hever))
    (.inr (.inl rfl))
  refine ⟨lands_of_inv rfl ⟨hrewrite.passed, hrewrite.launched, hrewrite.refused, hrewrite.keyed⟩
    ?_, ?_⟩
  · apply Grows.setRelease
    intro old hold
    rw [hnow] at hold
    cases hold
    exact ⟨hidentity, fun _ => hever⟩
  · intro answer' w' hlater
    exact settle_safe hlater.inv (ret_safe hlater.inv)

end Segments

/-- Every call keeps the invariant at each of its segments. -/
theorem gates_kept : gateContract.Keeps Call.prog := by
  intro i c w hinv _
  rw [Proc.safe_iff_advance]
  intro _
  have hbegins := prog_begins c w.shared
  cases ho : c.opening w.shared with
  | none =>
      rw [ho] at hbegins
      rcases hbegins with ⟨e, he⟩
      rw [he]
      exact ⟨lands_same rfl hinv, trivial⟩
  | some o =>
      rw [ho] at hbegins
      rw [show _ = _ from hbegins]
      have hwell := opening_well hinv ho
      refine ⟨⟨hwell.2, ?_⟩, ?_⟩
      · change GateInv _ (accepted (w.trace ++ _))
        rw [accepted_snoc]
        exact hwell.1
      · -- others may have run before the append returns
        intro answer w' hlater
        have hinv' := hlater.inv
        apply settle_safe hinv'
        by_cases hgate : c.IsGate
        · rw [(gate_opening hgate ho).rest]
          exact ret_safe hinv'
        · cases c with
          | activate r a c =>
              rw [(activate_opening ho).2.1]
              exact supersede_safe hinv'
          | activateKillSwitch r a reason c =>
              rw [(kill_opening ho).2.1]
              exact writeIndex_safe hinv'
          | clearKillSwitch r a reason c =>
              rw [(clear_opening ho).2.1]
              exact writeIndex_safe hinv'
          | rollback r t a reason c =>
              obtain ⟨-, current, target, -, htarget, hreplaceable, hrest, -⟩ :=
                rollback_opening ho
              rw [hrest]
              exact restore_safe hinv' htarget hreplaceable.2.2.2.2
                (hwell.2.trans hlater.rely)
          | _ => exact absurd trivial hgate

/-- The invariant holds after every run of overlapping calls. -/
theorem gateInv_run (xs : List (Step Call AuditEvent fun _ => Appended)) :
    GateInv (run Call.prog (init .empty) xs).shared
      (accepted (run Call.prog (init .empty) xs).trace) := by
  apply gateContract.run_inv gates_kept gateInv_empty
  intro pre x post _ f _
  trivial

/-- In every run, a release that is released or active, or has been, has been
taken through all gates of its path in their order, and no decision on it was
other than an approval. -/
theorem released_passed_gates (xs : List (Step Call AuditEvent fun _ => Appended)) (r : String)
    (release : GovernedRelease)
    (hr : (run Call.prog (init .empty) xs).shared.releases r = some release)
    (hreleased : release.state = .released ∨ release.state = .active ∨
      release.everReleased = true) :
    Passed r release (path release.materiality)
        (accepted (run Call.prog (init .empty) xs).trace) ∧
      ∀ c ∈ accepted (run Call.prog (init .empty) xs).trace, ¬ Adverse r c := by
  have hinv := gateInv_run xs
  -- a release that was ever released is in use, as far as gates go
  have hlaunched : release.state.Launched := by
    rcases hreleased with hstate | hstate | hever
    · exact .inl hstate
    · exact .inr (.inl hstate)
    · exact hinv.launched r release hr hever
  constructor
  · have hpassed := hinv.passed r release hr
    rwa [gates_of_launched hlaunched] at hpassed
  -- an adverse decision would have left the release refused
  · intro c hc hadverse
    obtain ⟨release', hr', hrefused⟩ := hinv.refused r c hc hadverse
    rw [hr] at hr'
    cases hr'
    exact launched_not_refused hlaunched hrefused

/-- One call after the other, each with a thread of its own and one append. -/
def oneByOne (calls : List Call) : List (Step Call AuditEvent fun _ => Appended) :=
  calls.zipIdx.flatMap fun (c, i) => [.call i c, .resume i fun _ => .returned]

/-- The seven calls of a non-material release. -/
theorem toReleased_passed_gates :
    let xs := oneByOne (toReleased "release-1" "1")
    ∃ release, (run Call.prog (init .empty) xs).shared.releases "release-1" = some release ∧
      release.state = .released ∧
      Passed "release-1" release (path .nonMaterial)
        (accepted (run Call.prog (init .empty) xs).trace) := by
  intro xs
  refine ⟨_, rfl, by decide +kernel, ?_⟩
  exact (released_passed_gates xs "release-1" _ rfl (.inl (by decide +kernel))).1

end Alos.Releases
