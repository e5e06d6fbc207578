import Alos.Registry.Genuine
import Alos.Skills.Assignment

/-! # The stages of an assignment

Assignments among the calls of the two registries, in any order. An assignment is
suspended while its draft is registered, and while its outcome is recorded.

* `Request` is what the system is asked for, and `Request.prog` what it runs;
* `staging` is its stage machine, over that of the registries;
* `staging_follows`: every segment is one of its turns;
* `Inductive` is what every segment of a registry keeps, `Inductive.requested` carries
  it over to the requests, and `requested_genuine` is the first case of it.
-/

namespace Alos.Skills

open Coop Py Registry Agents

/-- A call of one of the registries, or an assignment. -/
inductive Request where
  | call (c : Call Subject)
  | assign (a : Assignment) (now : Datetime)

/-- What a request returns. -/
inductive Reply where
  | found (entry : Option RegistryEntry)
  | assigned (response : SkillAssignmentResponse)

/-- Where a request stands: at a stage of a registry, for itself or for the draft of
an assignment; it awaits the append of its outcome; or it is over. -/
inductive AssignmentStage where
  | calling (st : Registry.Stage)
  | rejecting (reason code message : String)
  | registering (st : Registry.Stage)
  | recording (draft : RegistryEntry)
  | replied (reply : Reply)
  | raised (e : AssignmentError)

/-- Where an assignment stands between two steps. -/
abbrev AssignmentYield (κ : Type) := Yield (Memory Subject κ) (Registry.Question Subject)
  Registry.Answer AssignmentError Reply

section Machine

variable {κ : Type} [DecidableEq κ] (x : SkillAssignmentService κ)

/-- The coroutine of a request. -/
def Request.prog : Request → AssignmentOp κ Reply
  | .call c => .found <$> (c.prog x.registries).embed id (fun _ answer => answer) .registry
  | .assign a now => .assigned <$> Skills.assign x a now

/-- The registration of a draft. -/
def draftCall (a : Assignment) (payload : Json.Fields) (now : Datetime) : Call Subject :=
  .register .agent payload a.principal.tenantId a.principal.organizationId a.principal.workspaceId
    a.principal.actorId a.correlationId now

/-- The response to an assignment that was drafted. -/
def respond (a : Assignment) (draft : RegistryEntry) : SkillAssignmentResponse where
  agentId := a.agentId
  baseAgentVersion := a.agentVersion
  draftAgentVersion := draft.version
  skillRef := skillRefOf a
  correlationId := a.correlationId

/-- An append that raises ends the assignment; the draft stays. -/
def settleRecord : Appended → AssignmentOp κ Unit
  | .returned => pure ()
  | .raised => .raise .audit

/-- What follows a registration; it returns an entry. -/
def conclude (a : Assignment) : Option RegistryEntry → AssignmentOp κ Reply
  | none => .raise .audit
  | some draft =>
      (recordAssignment x a "DRAFT" "Immutable AgentDefinition draft created.").bind fun _ =>
        .ret (.assigned (respond a draft))

/-- What is left of the call of a registry. -/
def lifted : Yield (Memory Subject κ) (Registry.Question Subject) Registry.Answer RegistryError
    (Option RegistryEntry) → AssignmentYield κ
  | .returned entry => .returned (.found entry)
  | .raised e => .raised (.registry e)
  | .awaiting q k => .awaiting q fun answer =>
      .found <$> (k answer).embed id (fun _ answer => answer) .registry

/-- What is left of the registration of a draft. -/
def concluded (a : Assignment) : Yield (Memory Subject κ) (Registry.Question Subject)
    Registry.Answer RegistryError (Option RegistryEntry) → AssignmentYield κ
  | .returned _ => .raised .audit
  | .raised e => .raised (registrationError e)
  | .awaiting q k => .awaiting q fun answer =>
      ((k answer).embed id (fun _ answer => answer) registrationError).bind (conclude x a)

/-- Where a request at a stage stands; a stage is one of calls or of assignments. -/
def AssignmentStage.now : Request → AssignmentStage → AssignmentYield κ
  | .call c, .calling st => lifted (st.now x.registries c.registry)
  | .assign a _, .rejecting reason code message =>
      .awaiting (.append (assignmentEvent a "REJECTED" reason)) fun answer =>
        (settleRecord answer).bind fun _ => .raise (.assignment code message)
  | .assign a _, .registering st => concluded x a (st.now x.registries .agent)
  | .assign a _, .recording draft =>
      .awaiting (.append (assignmentEvent a "DRAFT" "Immutable AgentDefinition draft created."))
        fun answer => (settleRecord answer).bind fun _ => .ret (.assigned (respond a draft))
  | _, .replied reply => .returned reply
  | _, .raised e => .raised e
  | _, _ => .raised .audit

/-- An assignment whose registration has come to a stage: when it is over, its draft
is recorded. -/
def after (a : Assignment) : Registry.Stage → AssignmentStage
  | .recorded _ draft | .returned (some draft) =>
      if x.audited then .recording draft else .replied (.assigned (respond a draft))
  | .returned none => .raised .audit
  | .raised e => .raised (registrationError e)
  | st => .registering st

/-- What the first segment can do. -/
inductive Begins (s : Memory Subject κ) : Request → Memory Subject κ → AssignmentStage → Prop where
  | calls {c s' st} (h : Registry.Begins x.registries c s s' st) :
      Begins s (.call c) s' (.calling st)
  | rejects {a now reason code message} (haudited : x.audited = true)
      (h : draftPayload x a (s.entries .agent) (s.entries .skill) =
        .error (.rejected reason code message)) :
      Begins s (.assign a now) s (.rejecting reason code message)
  | stops {a now refusal e}
      (h : draftPayload x a (s.entries .agent) (s.entries .skill) = .error refusal) :
      Begins s (.assign a now) s (.raised e)
  | registers {a now payload s' st}
      (h : draftPayload x a (s.entries .agent) (s.entries .skill) = .ok payload)
      (hst : Registry.Begins x.registries (draftCall a payload now) s s' st) :
      Begins s (.assign a now) s' (after x a st)

/-- What the later segments can do. -/
inductive Turn (s : Memory Subject κ) : Request → AssignmentStage →
    Exchange (Registry.Question Subject) Registry.Answer → Memory Subject κ → AssignmentStage → Prop
    where
  | called {c st y s' st'} (h : Registry.Turn x.registries c.registry s st y s' st') :
      Turn s (.call c) (.calling st) y s' (.calling st')
  | registered {a now st y s' st'} (h : Registry.Turn x.registries .agent s st y s' st') :
      Turn s (.assign a now) (.registering st) y s' (after x a st')
  | rejected {a now reason code message event} :
      Turn s (.assign a now) (.rejecting reason code message) ⟨.append event, .returned⟩ s
        (.raised (.assignment code message))
  | drafted {a now draft event} :
      Turn s (.assign a now) (.recording draft) ⟨.append event, .returned⟩ s
        (.replied (.assigned (respond a draft)))
  | unrecorded {a now st event} :
      Turn s (.assign a now) st ⟨.append event, .raised⟩ s (.raised .audit)

/-- The stage machine of the requests. -/
def staging : Staging Request (Memory Subject κ) (Registry.Question Subject) Registry.Answer
    AssignmentError Reply AssignmentStage where
  now := AssignmentStage.now x
  Begins := fun r s => Begins x s r
  Turn := fun r s => Turn x s r

/-! ## Every segment is a turn -/

variable {x} {a : Assignment} {s s' : Memory Subject κ}

omit [DecidableEq κ] in
/-- A registry call inside a request takes the steps it takes alone. -/
theorem lifted_advance (p : Op Subject κ (Option RegistryEntry)) (s : Memory Subject κ) :
    (Reply.found <$> p.embed id (fun _ answer => answer) AssignmentError.registry).advance s =
      ((p.advance s).1, lifted (p.advance s).2) := by
  change ((p.embed id (fun _ answer => answer) AssignmentError.registry).bind fun entry =>
    .ret (Reply.found entry)).advance s = _
  rw [Proc.advance_bind, Proc.advance_embed]
  cases (p.advance s).2 <;> rfl

omit [DecidableEq κ] in
/-- Recording waits for the sink, or refuses when no sink is configured. -/
theorem recordAssignment_advance {β : Type} (outcome reason : String)
    (h : Unit → AssignmentOp κ β) (s : Memory Subject κ) :
    ((recordAssignment x a outcome reason).bind h).advance s =
      if x.audited then (s, .awaiting (.append (assignmentEvent a outcome reason)) fun answer =>
        (settleRecord answer).bind h)
      else (h ()).advance s := by
  unfold recordAssignment
  cases x.audited with
  | false => rfl
  | true =>
      simp only [if_true, Proc.bind_def, Proc.ask_bind, Proc.bind, Proc.advance_await]
      congr 2
      funext answer
      cases answer <;> rfl

/-- A registration, from a stage on, and what follows it. -/
theorem after_advance {p : Op Subject κ (Option RegistryEntry)} {st : Registry.Stage} {now : Datetime}
    (h : p.advance s = (s', st.now x.registries .agent)) :
    ((p.embed id (fun _ answer => answer) registrationError).bind (conclude x a)).advance s =
      (s', (after x a st).now x (.assign a now)) := by
  -- the draft is recorded, or the missing sink refuses
  have hconclude : ∀ draft, (conclude x a (some draft)).advance s' =
      (s', (after x a (.returned (some draft))).now x (.assign a now)) := by
    intro draft
    rw [conclude, recordAssignment_advance, after]
    cases x.audited <;> rfl
  rw [Proc.advance_bind, Proc.advance_embed, h]
  cases st with
  | recorded u draft => exact hconclude draft
  | returned entry =>
      cases entry with
      | none => rfl
      | some draft => exact hconclude draft
  | _ => rfl

/-- An assignment registers its draft by a call of the registry. -/
theorem registerDraft_bind (payload : Json.Fields) (now : Datetime) :
    (registerDraft a x.registries .agent payload now).bind (fun draft => conclude x a (some draft)) =
      (((draftCall a payload now).prog x.registries).embed id (fun _ answer => answer)
        registrationError).bind (conclude x a) := by
  change _ = (((Registry.register x.registries .agent payload a.principal.tenantId
    a.principal.organizationId a.principal.workspaceId a.principal.actorId a.correlationId now).bind
      fun entry => .ret (some entry)).embed id (fun _ answer => answer) registrationError).bind _
  rw [Proc.embed_bind, Proc.bind_assoc]
  rfl

/-- An assignment, spelled out: what it reads decides how it goes on. -/
theorem assign_eq (now : Datetime) :
    Request.prog x (.assign a now) = .read fun s =>
      match draftPayload x a (s.entries .agent) (s.entries .skill) with
      | .error (.rejected reason code message) =>
          (recordAssignment x a "REJECTED" reason).bind fun _ => .raise (.assignment code message)
      | .error (.raised e) => .raise e
      | .ok payload =>
          (((draftCall a payload now).prog x.registries).embed id (fun _ answer => answer)
            registrationError).bind (conclude x a) := by
  change ((assign x a now).bind fun response => .ret (Reply.assigned response)) = _
  simp only [assign, assignOn, Proc.bind_def, Proc.get_bind, Proc.bind]
  congr 1
  funext s
  -- the three ways an assignment goes on
  cases draftPayload x a (s.entries .agent) (s.entries .skill) with
  | error refusal =>
      cases refusal with
      | rejected reason code message =>
          simp only [Proc.bind_assoc, Proc.raise_bind]
      | raised e => rfl
  | ok payload =>
      simp only [Proc.bind_assoc]
      rw [← registerDraft_bind]
      rfl

/-- The first step of an assignment leads to a stage. -/
theorem assign_begins (now : Datetime) (s : Memory Subject κ) :
    ∃ s' st, Begins x s (.assign a now) s' st ∧
      (Request.prog x (.assign a now)).advance s = (s', st.now x (.assign a now)) := by
  rw [assign_eq, Proc.advance_read]
  -- the three ways an assignment goes on
  cases h : draftPayload x a (s.entries .agent) (s.entries .skill) with
  | error refusal =>
      cases refusal with
      | rejected reason code message =>
          simp only [recordAssignment_advance]
          cases haudited : x.audited with
          | false => exact ⟨s, _, .stops h, rfl⟩
          | true => exact ⟨s, _, .rejects haudited h, rfl⟩
      | raised e => exact ⟨s, _, .stops h, rfl⟩
  | ok payload =>
      obtain ⟨s', st, hbegins, hadvance⟩ :=
        prog_begins (x := x.registries) (draftCall a payload now) s
      exact ⟨s', _, .registers h hbegins, after_advance hadvance⟩

/-- The code takes the steps that the stages describe. -/
theorem staging_follows (x : SkillAssignmentService κ) : (staging x).Follows (Request.prog x) where
  begins := by
    intro r s
    cases r with
    | call c =>
        rcases prog_begins (x := x.registries) c s with ⟨s', st, hbegins, hadvance⟩
        refine ⟨s', .calling st, .calls hbegins, ?_⟩
        change (Reply.found <$> (c.prog x.registries).embed id (fun _ answer => answer)
          AssignmentError.registry).advance s = _
        rw [lifted_advance, hadvance]
        rfl
    | assign a now => exact assign_begins now s
  turns := by
    intro r st q k hnow answer s
    -- a suspended request is suspended in a registry, or at the append of its outcome
    have hregistry := (Registry.staging_follows x.registries).turns
    cases r with
    | call c =>
        cases st with
        | calling st =>
            change lifted (st.now x.registries c.registry) = _ at hnow
            cases hst : st.now x.registries c.registry with
            | awaiting q' k' =>
                rw [hst] at hnow
                cases hnow
                rcases hregistry c st _ _ hst answer s with ⟨s', st', hturn, hadvance⟩
                refine ⟨s', .calling st', .called hturn, ?_⟩
                rw [lifted_advance, hadvance]
                rfl
            | _ =>
                rw [hst] at hnow
                cases hnow
        | _ => cases hnow
    | assign a now =>
        cases st with
        | calling st => cases hnow
        | rejecting reason code message =>
            cases hnow
            cases answer with
            | returned => exact ⟨s, _, .rejected, rfl⟩
            | raised => exact ⟨s, _, .unrecorded, rfl⟩
        | registering st =>
            change concluded x a (st.now x.registries .agent) = _ at hnow
            cases hst : st.now x.registries .agent with
            | awaiting q' k' =>
                rw [hst] at hnow
                cases hnow
                obtain ⟨s', st', hturn, hadvance⟩ :=
                  hregistry (draftCall a [] now) st _ _ hst answer s
                exact ⟨s', _, .registered hturn, after_advance hadvance⟩
            | _ =>
                rw [hst] at hnow
                cases hnow
        | recording draft =>
            cases hnow
            cases answer with
            | returned => exact ⟨s, _, .drafted, rfl⟩
            | raised => exact ⟨s, _, .unrecorded, rfl⟩
        | replied reply => cases hnow
        | raised e => cases hnow

/-! ## Runs -/

abbrev RequestStep := Step Request (Registry.Question Subject) Registry.Answer

/-- The state of a run of requests. -/
abbrev RequestSys (κ : Type) := Sys Request (Memory Subject κ) (Registry.Question Subject)
  Registry.Answer AssignmentError Reply

/-- The registries and the record of the steps. -/
abbrev RequestWorld (κ : Type) := World Request (Memory Subject κ) (Registry.Question Subject)
  Registry.Answer AssignmentError Reply

/-- The stage of each request. -/
abbrev RequestPool := Pool Request AssignmentStage

/-- Requests in any order, from empty registries. -/
def requested (x : SkillAssignmentService κ) (xs : List RequestStep) : RequestSys κ :=
  run (Request.prog x) (init .empty) xs

/-- The request is at a stage of a registry that meets `Q`, if it is at one. -/
def AssignmentStage.Within (Q : Call Subject → Registry.Stage → Prop) :
    Request → AssignmentStage → Prop
  | .call c, .calling st => Q c st
  | .assign a now, .registering st => ∃ payload, Q (draftCall a payload now) st
  | _, _ => True

/-- Every segment of a registry keeps what is said of the memory and of the stages. -/
structure Inductive (x : SkillAssignmentService κ) (P : Memory Subject κ → Prop)
    (Q : Call Subject → Registry.Stage → Prop) : Prop where
  begins : ∀ {c s s' st}, Registry.Begins x.registries c s s' st → s' = s ∧ Q c st
  turn : ∀ {c s st y s' st'}, Registry.Turn x.registries c.registry s st y s' st' → P s → Q c st →
    P s' ∧ Q c st'

/-- An invariant of the registries, together with one of every stage. -/
structure Held (P : Memory Subject κ → Prop) (Q : Call Subject → Registry.Stage → Prop)
    (w : RequestWorld κ) (pool : RequestPool) : Prop where
  memory : P w.shared
  stages : ∀ i r st, pool i = some (r, st) → st.Within Q r

omit [DecidableEq κ] in
/-- The draft of an assignment is a registry call under the same invariant. -/
theorem after_within {Q : Call Subject → Registry.Stage → Prop} {payload : Json.Fields}
    {now : Datetime} {st : Registry.Stage} (h : Q (draftCall a payload now) st) :
    (after x a st).Within Q (.assign a now) := by
  have hover : ∀ draft, (if x.audited then AssignmentStage.recording draft
      else .replied (.assigned (respond a draft))).Within Q (.assign a now) := by
    intro draft
    split <;> trivial
  cases st with
  | recorded u draft => exact hover draft
  | returned entry =>
      cases entry with
      | none => trivial
      | some draft => exact hover draft
  | raised e => trivial
  | _ => exact ⟨payload, h⟩

namespace Inductive

variable {P : Memory Subject κ → Prop} {Q : Call Subject → Registry.Stage → Prop}

/-- A request begins within the invariant. -/
theorem within_begins (h : Inductive x P Q) {r : Request} {st : AssignmentStage}
    (hbegins : Begins x s r s' st) : s' = s ∧ st.Within Q r := by
  cases hbegins with
  | calls hst => exact h.begins hst
  | rejects => exact ⟨rfl, trivial⟩
  | stops => exact ⟨rfl, trivial⟩
  | registers _ hst => exact ⟨(h.begins hst).1, after_within (h.begins hst).2⟩

/-- A turn stays within it. -/
theorem within_turn (h : Inductive x P Q) {r : Request} {st st' : AssignmentStage}
    {y : Exchange (Registry.Question Subject) Registry.Answer} (hturn : Turn x s r st y s' st')
    (hs : P s) (hst : st.Within Q r) : P s' ∧ st'.Within Q r := by
  cases hturn with
  | called hturn => exact h.turn hturn hs hst
  | @registered a now st y s' st' hturn =>
      rcases hst with ⟨payload, hst⟩
      have hkept := h.turn (c := draftCall a payload now) hturn hs hst
      exact ⟨hkept.1, after_within hkept.2⟩
  | rejected => exact ⟨hs, trivial⟩
  | drafted => exact ⟨hs, trivial⟩
  | unrecorded => exact ⟨hs, trivial⟩

/-- So it is kept by every step. -/
theorem keeps (h : Inductive x P Q) {G : RequestSys κ → RequestStep → Prop} :
    (staging x).Keeps G (Held P Q) where
  start := by
    intro t pool i r s' st _ hheld _ _ hbegins
    -- a request that starts leaves the registries as they are
    rcases h.within_begins hbegins with ⟨rfl, hst⟩
    refine ⟨hheld.memory, ?_⟩
    intro j r' u hj
    rcases Pool.put_eq_some.1 hj with ⟨rfl, rfl, rfl⟩ | ⟨-, hj⟩
    · exact hst
    · exact hheld.stages j r' u hj
  turn := by
    intro t pool i reply r st q k a s' st' _ hheld _ hi _ _ hturn
    rcases h.within_turn hturn hheld.memory (hheld.stages i r st hi) with ⟨hmemory, hst⟩
    refine ⟨hmemory, ?_⟩
    intro j r' u hj
    rcases Pool.put_eq_some.1 hj with ⟨rfl, rfl, rfl⟩ | ⟨-, hj⟩
    · exact hst
    · exact hheld.stages j r' u hj

/-- So it holds in every run of requests. -/
theorem requested (h : Inductive x P Q) (hempty : P .empty) (xs : List RequestStep) :
    (staging x).Staged (Held P Q) (requested x xs) := by
  refine (h.keeps (G := fun _ _ => True)).run_inv (staging_follows x) ?_ xs
    fun _ _ _ _ => trivial
  refine ⟨fun _ => none, Staging.describes_init _, hempty, ?_⟩
  intro i r st hi
  cases hi

end Inductive

/-- The entries of every run are what registrations have made of their payloads. -/
theorem requested_genuine (hsep : Separate x.registries) (xs : List RequestStep) :
    AllGenuine x.registries (requested x xs).shared := by
  have hgenuine : Inductive x (AllGenuine x.registries) fun c st => st.Genuine x.registries c :=
    ⟨fun h => h.genuine, fun h hs hst => h.genuine hsep hs hst⟩
  rcases hgenuine.requested allGenuine_empty xs with ⟨pool, -, h⟩
  exact h.memory

end Machine

end Alos.Skills
