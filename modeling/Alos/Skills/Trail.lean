import Alos.Skills.Assigned

/-! # The trail of an assignment

Every error exit of `assign` records its rejection by hand, but for two: a base
version that `_next_minor` refuses, and a draft that conflicts.

* `assign_rejected` to `assign_drafted` say what an assignment alone comes to, and
  what it has asked;
* `Unrecorded` are the two exits, on the arguments and the registries;
* `recorded_iff`: the trail is complete exactly when they are not taken;
* `conflict_unrecorded`: a version that exists is proposed.
-/

namespace Alos.Skills

open Coop Py Registry Agents

/-! ## The exits -/

section Exits

variable {κ : Type} {x : SkillAssignmentService κ} {a : Assignment}

/-- The refusal is no `SkillAssignmentError` that is raised at once. -/
def Refusal.Recorded : Refusal → Prop
  | .raised (.assignment _ _) => False
  | _ => True

/-- Choosing a version raises no `SkillAssignmentError` at once, when its two refusals do not. -/
theorem activeEntry_errors {entries : Table RegistryEntry.key} {subjectId version : String}
    {missing inactive : Refusal} (hmissing : missing.Recorded) (hinactive : inactive.Recorded)
    (refusal : Refusal) (h : activeEntry a entries subjectId version missing inactive =
      .error refusal) : refusal.Recorded := by
  unfold activeEntry at h
  split at h
  · cases h
    exact hmissing
  · refine Except.bind_errors (Except.require_errors hinactive) ?_ refusal h
    intro u e he
    cases he

/-- Nor does reading its definition. -/
theorem unauthorized_errors {α : Type} {found : Except ReadError α} (refusal : Refusal)
    (h : found.mapError unauthorized = .error refusal) : refusal.Recorded := by
  cases found with
  | ok view => cases h
  | error e =>
      cases h
      cases e <;> trivial

/-- Nor does a look-up in a payload, which can only raise errors of the language. -/
theorem access_errors {α : Type} {found : Except AccessError α} (refusal : Refusal)
    (h : access found = .error refusal) : refusal.Recorded := by
  cases found with
  | ok value => cases h
  | error e =>
      cases h
      trivial

/-- Nor does the check on what the agent has, when its refusal does not. -/
theorem requireAssigned_errors {refs : List String} {agent : RegistryEntry} {key : String}
    {refused : Refusal} (hrefused : refused.Recorded) (refusal : Refusal)
    (h : requireAssigned x refs agent key refused = .error refusal) : refusal.Recorded :=
  Except.bind_errors access_errors (fun _ => Except.bind_errors access_errors fun _ =>
    Except.require_errors hrefused) refusal h

/-- What is refused before the version is chosen is recorded, or no
`SkillAssignmentError`. -/
theorem eligible_errors {agents skills : Table RegistryEntry.key} (refusal : Refusal)
    (h : eligible x a agents skills = .error refusal) : refusal.Recorded := by
  refine Except.bind_errors (activeEntry_errors (by trivial) (by trivial)) (fun agent => ?_) refusal h
  refine Except.bind_errors (activeEntry_errors (by trivial) (by trivial)) fun _ => ?_
  refine Except.bind_errors unauthorized_errors fun _ => ?_
  refine Except.bind_errors unauthorized_errors fun skill => ?_
  refine Except.bind_errors access_errors fun refs => ?_
  refine Except.bind_errors (Except.require_errors (by trivial)) fun _ => ?_
  refine Except.bind_errors (requireAssigned_errors (by trivial)) fun _ => ?_
  refine Except.bind_errors (requireAssigned_errors (by trivial)) fun _ => ?_
  refine Except.bind_errors (requireAssigned_errors (by trivial)) fun _ e he => ?_
  cases he

/-- The version before its first hyphen is three groups of digits. -/
def Numbered (x : SkillAssignmentService κ) (version : String) : Prop :=
  ∃ major minor patch,
    (version.toList.takeWhile (· ≠ '-')).splitOn '.' = [major, minor, patch] ∧
      ∀ part ∈ [major, minor, patch], part ≠ [] ∧ ∀ c ∈ part, x.isDigit c = true

/-- Nor does reading a number, which can only raise `ValueError`. -/
theorem decimalOf_errors {text : List Char} (refusal : Refusal)
    (h : decimalOf x text = .error refusal) : refusal.Recorded := by
  refine Except.bind_errors ?_ (fun _ e he => by cases he) refusal h
  intro e he
  rcases Except.error_of_mapM he with ⟨c, -, hc⟩
  split at hc
  · cases hc
    trivial
  · cases hc

/-- The check of `_next_minor`: three parts, all of them digits. -/
theorem all_digits_iff (parts : List (List Char)) :
    (parts.all fun part => ¬ part.isEmpty ∧ part.all x.isDigit) ↔
      ∀ part ∈ parts, part ≠ [] ∧ ∀ c ∈ part, x.isDigit c = true := by
  simp only [List.all_eq_true, decide_eq_true_eq, List.isEmpty_iff, ne_eq]

/-- `_next_minor` refuses the versions that are not numbered. -/
theorem nextMinor_unnumbered {version : String} (h : ¬ Numbered x version) :
    nextMinor x version = .error (.raised (.assignment "AGENT_VERSION_INVALID"
      "Agent version is not semantic-version compatible.")) := by
  unfold nextMinor
  simp only
  split
  · rename_i major minor patch hparts
    rw [if_neg]
    intro hall
    exact h ⟨major, minor, patch, hparts, (all_digits_iff _).1 hall⟩
  · rfl

/-- Nor does following a version of three numbers. -/
theorem nextMinor_numbered {version : String} (h : Numbered x version) (refusal : Refusal)
    (herror : nextMinor x version = .error refusal) : refusal.Recorded := by
  rcases h with ⟨major, minor, patch, hparts, hdigits⟩
  unfold nextMinor at herror
  simp only [hparts] at herror
  rw [if_pos ((all_digits_iff _).2 hdigits)] at herror
  exact Except.bind_errors decimalOf_errors (fun _ e he => by cases he) refusal herror

end Exits

/-! ## An assignment alone -/

section Alone

variable {κ : Type} [DecidableEq κ] {x : SkillAssignmentService κ} {a : Assignment} {now : Datetime}
  {env : Env (Registry.Question Subject) Registry.Answer} {s : Memory Subject κ}

/-- The audit sink stores every event. -/
def Audits (env : Env (Registry.Question Subject) Registry.Answer) : Prop :=
  ∀ n event, env n (.append event) = Appended.returned

/-- What an assignment appends at its end. -/
def recording (x : SkillAssignmentService κ) (a : Assignment) (outcome reason : String) :
    List (Exchange (Registry.Question Subject) Registry.Answer) :=
  if x.audited then [⟨.append (assignmentEvent a outcome reason), Appended.returned⟩] else []

omit [DecidableEq κ] in
/-- A sink that takes everything gets one event. -/
theorem recordAssignment_alone (henv : Audits env) (outcome reason : String) :
    (recordAssignment x a outcome reason).alone env s =
      ⟨s, .ok (), recording x a outcome reason⟩ := by
  unfold recordAssignment recording
  cases x.audited with
  | false => rfl
  | true =>
      simp only [if_true, Proc.bind_def, Proc.ask_bind, Proc.alone, henv 0]
      rfl

/-- Registering the draft is the registration itself, with its errors renamed. -/
theorem registerDraft_alone (payload : Json.Fields) :
    (registerDraft a x.registries .agent payload now).alone env s =
      { registered x a payload now env s with
        result := (registered x a payload now env s).result.mapError registrationError } := by
  obtain ⟨hstate, hresult, -⟩ := Proc.alone_embed id (fun _ answer => answer) registrationError
    (Registry.register x.registries .agent payload a.principal.tenantId
      a.principal.organizationId a.principal.workspaceId a.principal.actorId a.correlationId now)
    env s
  have hlog := Proc.alone_embed_log registrationError
    (Registry.register x.registries .agent payload a.principal.tenantId
      a.principal.organizationId a.principal.workspaceId a.principal.actorId a.correlationId now)
    env s
  exact congr (congr (congrArg Proc.Finished.mk hstate) hresult) hlog

/-- A rejected assignment stores nothing and is recorded. -/
theorem assign_rejected (henv : Audits env) {reason code message : String}
    (h : draftPayload x a (s.entries .agent) (s.entries .skill) =
      .error (.rejected reason code message)) :
    (assign x a now).alone env s =
      ⟨s, .error (.assignment code message), recording x a "REJECTED" reason⟩ := by
  simp only [assign, assignOn, Proc.bind_def, Proc.get_bind, Proc.alone, h]
  rw [Proc.alone_bind, recordAssignment_alone henv]
  simp [Proc.Finished.followed, Proc.alone]

/-- A check that raises ends the assignment without an event. -/
theorem assign_raised {e : AssignmentError}
    (h : draftPayload x a (s.entries .agent) (s.entries .skill) = .error (.raised e)) :
    (assign x a now).alone env s = ⟨s, .error e, []⟩ := by
  simp only [assign, assignOn, Proc.bind_def, Proc.get_bind, Proc.alone, h]

/-- A registration that is refused ends it without one too. -/
theorem assign_refused {payload : Json.Fields} {e : RegistryError}
    (h : draftPayload x a (s.entries .agent) (s.entries .skill) = .ok payload)
    (hrefused : (registered x a payload now env s).result = .error e) :
    (assign x a now).alone env s = ⟨(registered x a payload now env s).state,
      .error (registrationError e), (registered x a payload now env s).log⟩ := by
  simp only [assign, assignOn, Proc.bind_def, Proc.get_bind, Proc.alone, h]
  rw [Proc.alone_bind, registerDraft_alone, hrefused]
  rfl

/-- An assignment that is drafted is recorded last. -/
theorem assign_drafted (henv : Audits env) {payload : Json.Fields} {draft : RegistryEntry}
    (h : draftPayload x a (s.entries .agent) (s.entries .skill) = .ok payload)
    (hdraft : (registered x a payload now env s).result = .ok draft) :
    (assign x a now).alone env s = ⟨(registered x a payload now env s).state,
      .ok ⟨a.agentId, a.agentVersion, draft.version, skillRefOf a, a.correlationId⟩,
      (registered x a payload now env s).log ++
        recording x a "DRAFT" "Immutable AgentDefinition draft created."⟩ := by
  have henv' : ∀ n, Audits fun m => env (m + n) := fun n m => henv (m + n)
  simp only [assign, assignOn, Proc.bind_def, Proc.get_bind, Proc.alone, h]
  rw [Proc.alone_bind, registerDraft_alone, hdraft]
  simp only [Except.mapError, Proc.Finished.followed, Proc.alone_bind,
    recordAssignment_alone (henv' _), Proc.pure_def, Proc.alone, List.append_nil]

/-- A registration conflicts over the place that its payload names, or over a
version that is there with another content. -/
theorem registered_conflict {payload : Json.Fields} :
    (∃ message, (registered x a payload now env s).result = .error (.conflict message)) ↔
      (∃ message, preparedDraft x a payload now = .error (.conflict message)) ∨
        ∃ entry existing, preparedDraft x a payload now = .ok entry ∧
          (s.entries .agent).get? entry.key = some existing ∧ existing.digest ≠ entry.digest := by
  obtain ⟨-, hresult, -⟩ := register_alone (x := x.registries) (i := Subject.agent) payload
    a.principal.tenantId a.principal.organizationId a.principal.workspaceId a.principal.actorId
    a.correlationId now env s
  unfold registered preparedDraft
  rw [hresult]
  unfold registration
  generalize Registry.prepare x.registries .agent payload a.principal.tenantId
    a.principal.organizationId a.principal.workspaceId a.principal.actorId a.correlationId now =
      prepared
  cases prepared with
  | error e => simp [Registration.result]
  | ok entry =>
      simp only [reduceCtorEq, exists_false, Except.ok.injEq, false_or]
      -- only another content under the same key is a conflict
      cases hget : (s.entries .agent).get? entry.key with
      | some existing => by_cases hdigest : existing.digest = entry.digest <;>
          simp [hdigest, hget, Registration.result]
      | none =>
          simp only
          split
          · generalize env (1 + (storeKind x.registries .agent).questions) _ = appended
            cases appended <;> simp [hget, Registration.result]
          · simp [hget, Registration.result]

/-! ## What is asked -/

/-- The events that were appended. -/
def events (log : List (Exchange (Registry.Question Subject) Registry.Answer)) : List AuditEvent :=
  log.filterMap fun
    | ⟨.append event, _⟩ => some event
    | _ => none

/-- The events of one type among the exchanges. -/
def eventsOf (eventType : String)
    (log : List (Exchange (Registry.Question Subject) Registry.Answer)) : List AuditEvent :=
  (events log).filter (·.eventType = eventType)

/-- Events come in the order of the exchanges. -/
theorem eventsOf_append (eventType : String)
    (log log' : List (Exchange (Registry.Question Subject) Registry.Answer)) :
    eventsOf eventType (log ++ log') = eventsOf eventType log ++ eventsOf eventType log' := by
  simp [eventsOf, events]

/-- No question but the append of an event of this type. -/
def Question.OfType (eventType : String) (q : Registry.Question Subject) : Prop :=
  ∀ event, q = .append event → event.eventType = eventType

/-- Exchanges of one type hold no event of another. -/
theorem eventsOf_eq_nil {eventType eventType' : String} (hne : eventType ≠ eventType')
    {log : List (Exchange (Registry.Question Subject) Registry.Answer)}
    (h : ∀ y ∈ log, Question.OfType eventType y.1) : eventsOf eventType' log = [] := by
  rw [eventsOf, List.filter_eq_nil_iff]
  intro event hevent
  rcases List.mem_filterMap.1 hevent with ⟨⟨q, answer⟩, hmem, hq⟩
  cases q with
  | append event' =>
      cases hq
      rw [h _ hmem event rfl]
      simpa using hne
  | _ => cases hq

/-- Saving asks the store only. -/
theorem save_asks (y : Registries Subject κ) (i : Subject) (entry : RegistryEntry)
    (eventType : String) : (save y i entry).Asks (Question.OfType eventType) := by
  have hsettle : ∀ answer, (settle answer : Op Subject κ Unit).Asks (Question.OfType eventType) := by
    intro answer
    cases answer <;> trivial
  -- a question to the store is no event
  have hsilent : ∀ q : Registry.Question Subject, (∀ event, q ≠ .append event) →
      Question.OfType eventType q := fun q hq event hevent => absurd hevent (hq event)
  unfold save
  split
  · exact ⟨hsilent _ (by simp), fun answer => (hsettle answer).bind fun _ _ => trivial⟩
  · refine ⟨hsilent _ (by simp), fun answer => (hsettle answer).bind fun _ s => ?_⟩
    refine ⟨hsilent _ (by simp), fun answer' => (hsettle answer').bind fun _ => ?_⟩
    refine Proc.Asks.bind ?_ fun _ => ⟨hsilent _ (by simp), fun _ => trivial⟩
    intro s'
    simp only [Proc.ret_bind]
    split
    · exact fun _ => trivial
    · exact fun _ => trivial
    · trivial

/-- The events of a registration are the registry's own. -/
theorem register_asks (y : Registries Subject κ) (i : Subject) (payload : Json.Fields)
    (tenantId organizationId workspaceId actorId correlationId : String) :
    (Registry.register y i payload tenantId organizationId workspaceId actorId correlationId
      now).Asks (Question.OfType "registry.version.created") := by
  rw [register_eq_locked]
  -- the check, the part under the lock, the event
  refine Proc.Asks.bind ?_ fun entry => Proc.Asks.bind ?_ fun locked => ?_
  · cases prepare y i payload tenantId organizationId workspaceId actorId correlationId now <;>
      trivial
  · refine Locks.asks_withLock _ _ ?_ ?_
    · intro event hevent
      cases hevent
    · intro s
      simp only [Proc.ret_bind]
      split
      · split <;> trivial
      · exact (save_asks y i entry _).bind fun _ _ => trivial
  · cases locked with
    | found existing => trivial
    | stored entry' =>
        refine Proc.Asks.bind ⟨?_, fun answer => ?_⟩ fun _ => trivial
        · intro event hevent
          cases hevent
          rfl
        · cases answer <;> trivial

/-- The registration appends no event of an assignment. -/
theorem registered_events {payload : Json.Fields} {eventType : String}
    (hne : "registry.version.created" ≠ eventType) :
    eventsOf eventType (registered x a payload now env s).log = [] :=
  eventsOf_eq_nil hne ((register_asks ..).alone env s)

/-! ## The trail -/

/-- A call that raises `SkillAssignmentError` has recorded one rejection, with its
own ids, and one that returns has recorded its draft and no rejection. -/
def Complete (a : Assignment)
    (ended : Proc.Finished (Memory Subject κ) (Registry.Question Subject) Registry.Answer
      AssignmentError SkillAssignmentResponse) : Prop :=
  match ended.result with
  | .error (.assignment _ _) =>
      ∃ event, eventsOf "skill.assignment.rejected" ended.log = [event] ∧
        event.correlationId = a.correlationId ∧
        event.metadata.get? "skill_version" = some (.str a.skillVersion)
  | .error _ => True
  | .ok _ => (eventsOf "skill.assignment.draft_created" ended.log).length = 1 ∧
      eventsOf "skill.assignment.rejected" ended.log = []

/-- The checks pass, and what follows raises a `SkillAssignmentError`: no version
is proposed and the base version is not numbered, or the registration of the draft
conflicts over its place or over its version. -/
inductive Unrecorded (x : SkillAssignmentService κ) (a : Assignment) (now : Datetime)
    (s : Memory Subject κ) : Prop where
  | unnumbered {agent refs}
      (heligible : eligible x a (s.entries .agent) (s.entries .skill) = .ok (agent, refs))
      (hproposed : a.proposedAgentVersion.filter (· ≠ "") = none)
      (hversion : ¬ Numbered x a.agentVersion)
  | misplaced {agent refs version message}
      (heligible : eligible x a (s.entries .agent) (s.entries .skill) = .ok (agent, refs))
      (hversion : draftVersion x a = .ok version)
      (hprepare : preparedDraft x a (assigned a agent refs version) now =
        .error (.conflict message))
  | taken {agent refs version entry existing}
      (heligible : eligible x a (s.entries .agent) (s.entries .skill) = .ok (agent, refs))
      (hversion : draftVersion x a = .ok version)
      (hprepare : preparedDraft x a (assigned a agent refs version) now = .ok entry)
      (hexisting : (s.entries .agent).get? entry.key = some existing)
      (hdigest : existing.digest ≠ entry.digest)

omit [DecidableEq κ] in
/-- A version that is not chosen has been refused by `_next_minor`. -/
theorem draftVersion_error {refusal : Refusal} (h : draftVersion x a = .error refusal) :
    a.proposedAgentVersion.filter (· ≠ "") = none ∧
      nextMinor x a.agentVersion = .error refusal := by
  unfold draftVersion at h
  split at h
  · cases h
  · rename_i hproposed
    exact ⟨hproposed, h⟩

omit [DecidableEq κ] in
/-- Of the refusals before the registration, those raised at once are not recorded. -/
theorem unrecorded_of_error {refusal : Refusal}
    (h : draftPayload x a (s.entries .agent) (s.entries .skill) = .error refusal) :
    Unrecorded x a now s ↔ ¬ refusal.Recorded := by
  unfold draftPayload at h
  -- when the agent and the skill are eligible, the version is what was refused
  have hversion : ∀ {found}, eligible x a (s.entries .agent) (s.entries .skill) = .ok found →
      draftVersion x a = .error refusal := by
    intro found heligible
    rcases Except.bind_eq_error.1 h with herror | ⟨found', -, hrest⟩
    · rw [heligible] at herror
      cases herror
    · rcases Except.bind_eq_error.1 hrest with herror | ⟨version, -, hreturned⟩
      · exact herror
      · cases hreturned
  constructor
  · intro hunrecorded hrecorded
    cases hunrecorded with
    | unnumbered heligible hproposed hnumbered =>
        have hrefused := (draftVersion_error (hversion heligible)).2
        rw [nextMinor_unnumbered hnumbered] at hrefused
        cases hrefused
        exact hrecorded
    | misplaced heligible hchosen =>
        rw [hversion heligible] at hchosen
        cases hchosen
    | taken heligible hchosen =>
        rw [hversion heligible] at hchosen
        cases hchosen
  · intro hrecorded
    cases heligible : eligible x a (s.entries .agent) (s.entries .skill) with
    | error refusal' =>
        rw [heligible] at h
        cases h
        exact absurd (eligible_errors _ heligible) hrecorded
    | ok found =>
        rcases draftVersion_error (hversion heligible) with ⟨hproposed, hrefused⟩
        refine .unnumbered heligible hproposed fun hnumbered => ?_
        exact hrecorded (nextMinor_numbered hnumbered _ hrefused)

/-- Of the registrations, those that find a different version are not recorded. -/
theorem unrecorded_of_ok {payload : Json.Fields}
    (h : draftPayload x a (s.entries .agent) (s.entries .skill) = .ok payload) :
    Unrecorded x a now s ↔
      ∃ message, (registered x a payload now env s).result = .error (.conflict message) := by
  unfold draftPayload at h
  simp only [Except.bind_eq_ok, Except.pure_eq_ok] at h
  rcases h with ⟨⟨agent, refs⟩, heligible, version, hversion, rfl⟩
  rw [registered_conflict]
  constructor
  · intro hunrecorded
    -- the payload was made, so only the registration can refuse
    cases hunrecorded with
    | unnumbered heligible' hproposed hnumbered =>
        unfold draftVersion at hversion
        rw [hproposed] at hversion
        simp only [nextMinor_unnumbered hnumbered] at hversion
        cases hversion
    | misplaced heligible' hversion' hprepare =>
        rw [heligible] at heligible'
        rw [hversion] at hversion'
        cases heligible'
        cases hversion'
        exact .inl ⟨_, hprepare⟩
    | taken heligible' hversion' hprepare hexisting hdigest =>
        rw [heligible] at heligible'
        rw [hversion] at hversion'
        cases heligible'
        cases hversion'
        exact .inr ⟨_, _, hprepare, hexisting, hdigest⟩
  · rintro (⟨message, hprepare⟩ | ⟨entry, existing, hprepare, hexisting, hdigest⟩)
    · exact .misplaced heligible hversion hprepare
    · exact .taken heligible hversion hprepare hexisting hdigest

omit [DecidableEq κ] in
/-- A `SkillAssignmentError` without an event. -/
theorem not_complete_of_silent {ended : Proc.Finished (Memory Subject κ)
      (Registry.Question Subject) Registry.Answer AssignmentError SkillAssignmentResponse}
    {code message : String} (hraised : ended.result = .error (.assignment code message))
    (hsilent : eventsOf "skill.assignment.rejected" ended.log = []) : ¬ Complete a ended := by
  unfold Complete
  rw [hraised]
  rintro ⟨event, hevents, -⟩
  rw [hsilent] at hevents
  cases hevents

/-- An assignment is recorded exactly when it does not end in one of these ways. -/
theorem recorded_iff (haudited : x.audited = true) (henv : Audits env) :
    Complete a ((assign x a now).alone env s) ↔ ¬ Unrecorded x a now s := by
  -- what was recorded is one event of the assignment
  have hrecording : ∀ outcome reason, recording x a outcome reason =
      [⟨.append (assignmentEvent a outcome reason), Appended.returned⟩] := by
    intro outcome reason
    rw [recording, if_pos haudited]
  cases hpayload : draftPayload x a (s.entries .agent) (s.entries .skill) with
  | error refusal =>
      rw [unrecorded_of_error hpayload, not_not]
      cases refusal with
      | rejected reason code message =>
          rw [assign_rejected henv hpayload, hrecording]
          exact iff_of_true ⟨_, rfl, rfl, rfl⟩ trivial
      | raised e =>
          rw [assign_raised hpayload]
          cases e with
          | assignment code message =>
              exact iff_of_false (not_complete_of_silent rfl rfl) id
          | _ => exact iff_of_true trivial trivial
  | ok payload =>
      have hunrecorded : Unrecorded x a now s ↔
          ∃ message, (registered x a payload now env s).result = .error (.conflict message) :=
        unrecorded_of_ok hpayload
      rw [hunrecorded]
      cases hregistered : (registered x a payload now env s).result with
      | error e =>
          rw [assign_refused hpayload hregistered]
          cases e with
          | conflict message =>
              exact iff_of_false (not_complete_of_silent rfl (registered_events (by decide)))
                (not_not.2 ⟨message, rfl⟩)
          | _ => exact iff_of_true trivial (by simp)
      | ok draft =>
          rw [assign_drafted henv hpayload hregistered, hrecording]
          refine iff_of_true ⟨?_, ?_⟩ (by simp)
          · rw [eventsOf_append, registered_events (by decide)]
            rfl
          · rw [eventsOf_append, registered_events (by decide)]
            rfl

end Alone

/-! ## A version that exists -/

theorem recorded_iff_summary :
    Complete summaryAssignment ((assign summaryService summaryAssignment 0).alone returned
        (conduct summaryService.registries .empty beforeSummary)) ↔
      ¬ Unrecorded summaryService summaryAssignment 0
        (conduct summaryService.registries .empty beforeSummary) :=
  recorded_iff rfl fun _ _ => rfl

/-- The base version is proposed for the draft. -/
def sameVersion : Assignment := { summaryAssignment with proposedAgentVersion := some "1.0.0" }

/-- The conflict is raised, and no event says so. -/
theorem conflict_unrecorded :
    summaryService.audited = true ∧ Audits returned ∧
      ¬ Complete sameVersion ((assign summaryService sameVersion 0).alone returned
        (conduct summaryService.registries .empty beforeSummary)) := by
  refine ⟨rfl, fun _ _ => rfl, ?_⟩
  have hended : ((assign summaryService sameVersion 0).alone returned
        (conduct summaryService.registries .empty beforeSummary)).result = .error (.assignment
          "AGENT_VERSION_CONFLICT" "Proposed AgentDefinition version already exists.") ∧
      eventsOf "skill.assignment.rejected" ((assign summaryService sameVersion 0).alone
        returned (conduct summaryService.registries .empty beforeSummary)).log = [] := by
    decide +kernel
  exact not_complete_of_silent hended.1 hended.2

end Alos.Skills
