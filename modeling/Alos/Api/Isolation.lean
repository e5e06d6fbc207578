import Alos.Api.Drafts
import Alos.Registry.Isolation
import Alos.Registry.Shared

/-! # Workspaces at the public routes

A workspace of a tenant, while others send requests too.

* the lemmas `_restrict` say that what a route reads for a principal is what is
  registered in the principal's workspace;
* `prog_local` and `prog_spares`: a request depends on the workspace of its sender, and
  changes that one only;
* `workspaces_isolated`: so a workspace is served as if it had the application and the
  database to itself.
-/

namespace Alos.Api

open Coop Py Registry Authentication

/-! ## Reads -/

section Reads

open Skills

variable {principal : Principal} (entries : Table RegistryEntry.key)

theorem listSkills_restrict :
    listSkills (entries.restrict (·.tenantWorkspace = principal.tenantWorkspace)) principal =
      listSkills entries principal := by
  rw [listSkills, listSkills, listAuthorizedEntries_restrict]

theorem getVersions_restrict (skillId : String) :
    getVersions (entries.restrict (·.tenantWorkspace = principal.tenantWorkspace)) principal
        skillId = getVersions entries principal skillId := by
  rw [getVersions, getVersions, listAuthorizedEntries_restrict]

theorem getSkill_restrict (skillId : String) :
    getSkill (entries.restrict (·.tenantWorkspace = principal.tenantWorkspace)) principal
        skillId = getSkill entries principal skillId := by
  have hget : ∀ version,
      Registry.get (entries.restrict (·.tenantWorkspace = principal.tenantWorkspace))
        ⟨principal.tenantId, principal.workspaceId, skillId, version⟩ =
      Registry.get entries ⟨principal.tenantId, principal.workspaceId, skillId, version⟩ :=
    fun version => get_restrict entries rfl
  simp only [getSkill, latestVersion, getVersions_restrict, getAuthorized_restrict, hget]

theorem listAgentSkills_restrict (agentId correlationId : String) :
    listAgentSkills (entries.restrict (·.tenantWorkspace = principal.tenantWorkspace)) principal
        agentId correlationId = listAgentSkills entries principal agentId correlationId := by
  have hvisible :
      visible (entries.restrict (·.tenantWorkspace = principal.tenantWorkspace)) principal =
        visible entries principal := by
    funext candidate
    simp only [visible, getAuthorized_restrict]
  rw [listAgentSkills, listAgentSkills, listEntries_restrict, hvisible]

theorem draftPayload_restrict {κ : Type} (x : SkillAssignmentService κ) (a : Assignment)
    (agents skills : Table RegistryEntry.key) :
    draftPayload x a (agents.restrict (·.tenantWorkspace = a.principal.tenantWorkspace))
        (skills.restrict (·.tenantWorkspace = a.principal.tenantWorkspace)) =
      draftPayload x a agents skills := by
  have hactive : ∀ T subjectId version missing inactive,
      activeEntry a (Table.restrict (·.tenantWorkspace = a.principal.tenantWorkspace) T) subjectId
        version missing inactive = activeEntry a T subjectId version missing inactive := by
    intro T subjectId version missing inactive
    unfold activeEntry
    rw [get_restrict T rfl]
  simp only [draftPayload, eligible, hactive, getAuthorized_restrict]

theorem request_restrict {ι κ : Type} (F : Factory.FactoryOrchestrator ι κ)
    (payload : Json.Fields) (correlationId : String) :
    Factory.request F (entries.restrict (·.tenantWorkspace = principal.tenantWorkspace)) payload
        principal correlationId = Factory.request F entries payload principal correlationId := by
  simp only [Factory.request, catalogSnapshot_restrict]

variable {b : Application} {correlationId : String} {s s' : Memory Subject StoreName}

/-- What a route that only reads answers. -/
theorem answer_same (h : s.ofWorkspace principal.tenantWorkspace =
    s'.ofWorkspace principal.tenantWorkspace) (route : Route) :
    answer b principal correlationId s route = answer b principal correlationId s' route := by
  -- each read is one of the principal's own part of the cache
  cases route with
  | listSkills =>
      have hread := read_entries (f := (listSkills · principal)) listSkills_restrict h .skill
      simp only [answer, hread]
  | getSkillDetail skillId =>
      have hread := read_entries (f := (getSkill · principal skillId))
        (fun T => getSkill_restrict T skillId) h .skill
      simp only [answer, hread]
  | getSkillVersions skillId =>
      have hread := read_entries (f := (getVersions · principal skillId))
        (fun T => getVersions_restrict T skillId) h .skill
      simp only [answer, hread]
  | listAgentSkills agentId =>
      have hread := read_entries (f := (listAgentSkills · principal agentId correlationId))
        (fun T => listAgentSkills_restrict T agentId correlationId) h .agent
      simp only [answer, hread]
  | getCapabilityDetail capabilityId =>
      have hread := read_entries
        (f := (detail b.contracts · principal.tenantId principal.workspaceId capabilityId
          (some principal)))
        (fun T => detail_restrict T b.contracts capabilityId) h .capability
      simp only [answer, hread]
  | assignSkill agentId payload => rfl
  | analyzeFactoryRequirement payload => rfl

end Reads

/-! ## Requests -/

section Local

variable {ι κ : Type} [DecidableEq ι] [DecidableEq κ] {x : Registries ι κ}

open Skills in
theorem assignOn_local {κ' : Type} (y : SkillAssignmentService κ') (agents skills : ι)
    (a : Assignment) (now : Datetime) :
    (assignOn y a x agents skills now).Local
      (Memory.ofWorkspace a.principal.tenantWorkspace) := by
  -- recording does not look at the state
  have hrecord : ∀ outcome reason,
      (recordAssignment (κ := κ) y a outcome reason : Proc (Memory ι κ) _ _ _ _).Local
        (Memory.ofWorkspace a.principal.tenantWorkspace) := by
    intro outcome reason
    unfold recordAssignment
    split
    · refine .await ?_
      intro answer
      cases answer with
      | returned => exact .ret
      | raised => exact .raise
    · exact .ret
  simp only [assignOn, registerDraft, Proc.bind_def, Proc.get_bind]
  refine .read ?_
  intro s s' hs
  rw [← draftPayload_restrict, restrict_entries hs agents, restrict_entries hs skills,
    draftPayload_restrict]
  -- the checks read entries of the place only, so both sides see the same
  cases draftPayload y a (s'.entries agents) (s'.entries skills) with
  | error refusal =>
      cases refusal with
      | raised e => exact .raise
      | rejected reason code message => exact (hrecord _ _).bind fun _ => .raise
  | ok payload =>
      refine Proc.Matches.bind ((register_local rfl).embed _ _ _) ?_
      intro draft
      exact (hrecord _ _).bind fun _ => .ret

section Factory

open Factory

variable (F : FactoryOrchestrator ι κ) (principal : Principal) (correlationId : String)
  (now : ι → Datetime)

theorem enroll_local (i : ι) (definition : Json.Fields) :
    (enroll F i definition principal correlationId now).Local
      (Memory.ofWorkspace principal.tenantWorkspace) :=
  (register_local rfl).embed _ _ _

theorem create_local (proposal : Proposal) :
    (create F proposal principal correlationId now).Local
      (Memory.ofWorkspace principal.tenantWorkspace) := by
  simp only [create, Proc.bind_def]
  refine (Proc.Matches.ofExcept _).bind fun definition => ?_
  refine (enroll_local F principal correlationId now _ definition).bind fun capability => ?_
  split
  · split
    · refine (enroll_local F principal correlationId now _ _).bind fun agent => ?_
      exact Proc.Matches.ofExcept _
    · exact .raise
  · exact Proc.Matches.ofExcept _

theorem analyze_local (payload : Json.Fields) :
    (analyze F payload principal correlationId now).Local
      (Memory.ofWorkspace principal.tenantWorkspace) := by
  simp only [analyze, Proc.bind_def, Proc.get_bind]
  refine .read ?_
  intro s s' hs
  rw [← request_restrict, restrict_entries hs F.capabilities, request_restrict]
  -- the catalog that is sent is that of the place
  refine (Proc.Matches.ofExcept _).bind fun internalRequest => ?_
  refine Proc.Matches.bind (.await ?_) fun result => ?_
  · intro answer
    cases answer with
    | returned result => exact .ret
    | failed e => exact .raise
    | raised => exact .raise
  · refine (Proc.Matches.ofExcept _).bind fun resolved => ?_
    cases resolved with
    | reuse response => exact .ret
    | create proposal => exact create_local F principal correlationId now proposal

end Factory

end Local

section Requests

variable (b : Application) (accounts : List Authentication.Call) (w : TenantWorkspace)

/-- The request comes from somebody of the workspace. -/
def Application.sentFrom (r : PublicRequest) : Bool :=
  match b.sender accounts r with
  | .ok principal => principal.tenantWorkspace = w
  | .error _ => false

variable {b accounts w} {r : PublicRequest}

theorem sentFrom_iff : b.sentFrom accounts w r = true ↔
    ∃ p, b.sender accounts r = .ok p ∧ p.tenantWorkspace = w := by
  unfold Application.sentFrom
  cases b.sender accounts r with
  | ok p => simp
  | error e => simp

theorem serve_local (principal : Principal) (correlationId : String) (now : Subject → Datetime)
    (route : Route) :
    (serve b principal correlationId now route).Local
      (Memory.ofWorkspace principal.tenantWorkspace) := by
  -- a read is answered from what is seen
  have hanswer : ∀ route, (Proc.get.bind fun s =>
      Proc.ofExcept (answer b principal correlationId s route) : PublicOp Json.Fields).Local
        (Memory.ofWorkspace principal.tenantWorkspace) := by
    intro route
    refine .read ?_
    intro s s' hs
    simp only [Proc.ret_bind]
    rw [answer_same hs]
    exact Proc.Matches.ofExcept _
  cases route with
  | assignSkill agentId payload =>
      by_cases hmismatch : payload.agentId.val ≠ agentId
      · rw [serve, if_pos hmismatch]
        exact .raise
      · rw [serve, if_neg hmismatch]
        refine Proc.Matches.bind ?_ fun _ => .ret
        exact (assignOn_local b.skills Subject.agent Subject.skill
          (assignmentOf principal correlationId payload) (now .agent)).embed _ _ _
  | analyzeFactoryRequirement payload =>
      exact (analyze_local b.factory principal correlationId now payload).embed _ _ _
  | _ => exact hanswer _

/-- A request of the workspace depends on the workspace only. -/
theorem prog_local (h : b.sentFrom accounts w r = true) :
    (b.prog accounts r).Local (Memory.ofWorkspace w) := by
  rcases sentFrom_iff.1 h with ⟨p, hsender, rfl⟩
  unfold Application.prog
  rw [hsender]
  exact serve_local p r.correlationId r.now r.route

/-- Any other request spares it. -/
theorem prog_spares (h : b.sentFrom accounts w r = false) (v : Memory Subject StoreName) :
    (b.prog accounts r).Spares (Memory.ofWorkspace w) v := by
  -- a request changes the registries by its calls only, all of them made in its own place
  have hdelegates : (b.prog accounts r).Delegates (Call.prog b.registries)
      Factory.Question.registry (fun _ answer => answer) (Proposes b accounts [.call 0 r]) :=
    prog_delegates (List.mem_singleton_self (Step.call 0 r))
  refine hdelegates.spares ?_ v
  intro d v hd
  cases hd with
  | mk hrequest hsender =>
      simp only [List.mem_singleton, Step.call.injEq] at hrequest
      rcases hrequest with ⟨rfl, rfl⟩
      apply Registry.Call.prog_spares
      rw [Bool.eq_false_iff]
      intro hplace
      have hw := of_decide_eq_true hplace _ rfl
      rw [sentFrom_iff.2 ⟨_, hsender, hw⟩] at h
      cases h

/-! ## A workspace on its own -/

variable (b accounts w) (rows : Table RegistryEntry.storeKey) (xs : List PublicStep)

/-- The run in which there is nothing but the rows and the requests of the workspace. -/
def Application.servedAlone : Sys PublicRequest (Memory Subject StoreName)
    (Factory.Question Subject) Factory.Answer PublicError Json.Fields :=
  b.served accounts (rows.restrict (·.tenantWorkspace = w))
    (ownSteps (ownThreads (b.sentFrom accounts w) xs) xs)

/-- The workspace is served as it would be on its own. -/
structure ServedAlike : Prop where
  /-- Its requests ask GENESIS, the stores and the audit sink the same, and are answered
  the same. -/
  trace : ((b.served accounts rows xs).trace.filter fun l =>
    ownThreads (b.sentFrom accounts w) xs l.thread) = (b.servedAlone accounts w rows xs).trace
  /-- And they leave the same behind. -/
  entries : ∀ i, ((b.served accounts rows xs).shared.entries i).restrict (·.tenantWorkspace = w) =
    (b.servedAlone accounts w rows xs).shared.entries i
  stored : ∀ k, ((b.served accounts rows xs).shared.rows k).restrict (·.tenantWorkspace = w) =
    (b.servedAlone accounts w rows xs).shared.rows k

variable {b accounts w rows xs}

/-- To begin with, the workspace has its rows in both runs. -/
theorem ofWorkspace_started : (b.started rows).ofWorkspace w =
    (b.started (rows.restrict (·.tenantWorkspace = w))).ofWorkspace w := by
  unfold Application.started
  rw [ofWorkspace_hydrated]
  congr 2
  funext k
  cases k <;> rfl

/-- On its own, the workspace has nothing but its own. -/
theorem within_servedAlone : (b.servedAlone accounts w rows xs).shared.Within w := by
  have hstarted : (b.started (rows.restrict (·.tenantWorkspace = w))).Within w := by
    apply within_hydrated
    intro k row hrow
    cases k with
    | registry => exact of_decide_eq_true (List.mem_filter.1 hrow).2
    | capabilities => cases hrow
  apply hstarted.of_others
  intro w' hw
  apply spared_ownSteps
  intro r hr
  apply prog_spares
  -- who has sent the request is of one workspace only
  rcases sentFrom_iff.1 hr with ⟨p, hsender, rfl⟩
  rw [Bool.eq_false_iff]
  intro hsent
  rcases sentFrom_iff.1 hsent with ⟨q, hsender', hq⟩
  rw [hsender] at hsender'
  cases hsender'
  exact hw hq.symm

/-- **Workspaces do not interfere.** Whatever the others have stored, whatever they
request, and however the requests overlap. -/
theorem workspaces_isolated (b : Application) (accounts : List Authentication.Call)
    (w : TenantWorkspace) (rows : Table RegistryEntry.storeKey) (xs : List PublicStep) :
    ServedAlike b accounts w rows xs := by
  -- a request of the place acts on what is seen from it
  have hown : ∀ r, b.sentFrom accounts w r = true →
      (b.prog accounts r).Local (Memory.ofWorkspace w) := fun r hr => prog_local hr
  -- a request of another place is not seen
  have hothers : ∀ r, b.sentFrom accounts w r = false →
      ∀ v, (b.prog accounts r).Spares (Memory.ofWorkspace w) v := fun r hr => prog_spares hr
  have hstart : (b.started rows).ofWorkspace w =
      (b.started (rows.restrict (·.tenantWorkspace = w))).ofWorkspace w := ofWorkspace_started
  have herased := erased_calls hown hothers hstart xs
  refine ⟨herased.trace, ?_, ?_⟩
  · intro i
    rw [Application.served, restrict_entries herased.shared i]
    exact Table.restrict_of_forall (within_servedAlone.entries i)
  · intro k
    rw [Application.served, restrict_rows herased.shared k]
    exact Table.restrict_of_forall (within_servedAlone.rows k)

end Requests

end Alos.Api
