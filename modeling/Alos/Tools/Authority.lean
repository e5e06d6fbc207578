import Alos.Tools.Access
import Alos.Tools.SourceContext

/-! # Whose authority the adapter gets

The execution context of a request names an actor and declares permissions and
scopes. `execute` checks that the refs the tool requires are declared, and that
the principal holds them; it passes the context on as it is.

* `prog_asks`: what the adapter and the audit sink get is the request's own;
* `confined_iff`: it stays within the principal exactly when the request
  declares no more than that itself.
-/

namespace Alos.Tools

open Coop

/-- The context names the principal as its actor, and declares nothing that the
principal does not hold. -/
structure Within (p : Principal) (context : ExecutionContext) : Prop where
  actorId : context.actorId = p.actorId
  permissions : ∀ ref ∈ context.permissionRefs, ref ∈ p.permissions
  scopes : ∀ ref ∈ context.scopeRefs, ref ∈ p.scopes

/-- What is asked does not exceed the principal: an audit record names it, the
context of an adapter call is within it, and so is the access context that a
search makes of it. -/
def Question.Confined (p : Principal) : Question → Prop
  | .append record => record.actorId = p.actorId
  | .execute _ _ context => Within p context ∧
      ∀ knowledge, SourceContextSearchAdapter.access context = some knowledge →
        knowledge.actorId.val = p.actorId ∧ knowledge.scopeRefs.val ⊆ p.scopes

/-- Nothing that the call asked exceeds its principal. -/
def Confined (c : ToolCall) (f : Ended) : Prop :=
  ∃ p, c.principal = some p ∧ ∀ y ∈ f.log, y.1.Confined p

/-- The request itself declares no more than its principal holds. -/
def DeclaresWithin (c : ToolCall) : Prop :=
  ∃ p, c.principal = some p ∧ Within p c.request.executionContext

/-! ## The context is passed on as it is -/

/-- The question is made of the request alone. -/
def Question.Own (c : ToolCall) : Question → Prop
  | .append record => ∃ outcome, record = auditRecord c.request outcome
  | .execute toolId arguments context => toolId = c.request.toolId ∧
      arguments = c.request.arguments ∧ context = c.request.executionContext

section Asks

variable (x : ToolExecutor) (c : ToolCall)

theorem audit_asks (outcome : String) : (audit c.request outcome).Asks (Question.Own c) := by
  refine ⟨⟨outcome, rfl⟩, fun answer => ?_⟩
  cases answer <;> trivial

theorem finish_asks (result : ToolResult) : (finish x c.request result).Asks (Question.Own c) := by
  refine (Proc.asks_raiseIf ..).bind fun _ => ?_
  exact (audit_asks c _).bind fun _ => trivial

theorem finishError_asks (refusal : Refusal) :
    (finishError x c.request refusal).Asks (Question.Own c) :=
  finish_asks x c _

theorem executeAdapter_asks : (executeAdapter x c.request).Asks (Question.Own c) := by
  refine ⟨⟨rfl, rfl, rfl⟩, fun answer => ?_⟩
  cases answer with
  | returned output => exact finish_asks x c _
  | timedOut => exact finishError_asks x c _
  | raised => exact finishError_asks x c _

theorem put_asks (key : CacheKey) (record : IdempotencyRecord) :
    (put key record).Asks (Question.Own c) := by
  intro s
  exact (Proc.asks_raiseIf ..).bind fun _ _ => trivial

theorem executeAndStore_asks (key : String) :
    (executeAndStore x c.request key).Asks (Question.Own c) := by
  refine (executeAdapter_asks x c).bind fun outcome => ?_
  split
  · exact (put_asks c _ _).bind fun _ => trivial
  · trivial

theorem replay_asks (existing : IdempotencyRecord) :
    (replay x c.request existing).Asks (Question.Own c) := by
  refine (finish_asks x c _).bind fun _ => ?_
  exact (audit_asks c _).bind fun _ => trivial

/-- Whatever a call asks is made of its request alone. -/
theorem prog_asks : (c.prog x).Asks (Question.Own c) := by
  refine (Proc.asks_raiseIf ..).bind fun _ => (audit_asks c _).bind fun _ s => ?_
  simp only [Proc.ret_bind]
  split
  · exact finishError_asks x c _
  · split
    · exact executeAdapter_asks x c
    · split
      · split
        · exact finishError_asks x c _
        · exact replay_asks x c _
      · exact executeAndStore_asks x c _

end Asks

/-! ## The result -/

variable {x : ToolExecutor} {c : ToolCall} {s : ToolState} {env : Env Question Answer}

theorem valid_of_callsAdapter (h : CallsAdapter ((c.prog x).alone env s)) :
    x.contractValidator.validateRequest c.request = true := by
  by_contra hinvalid
  have hadvance : (c.prog x).advance s = (s, .raised .requestInvalid) := by
    rw [prog_eq, Proc.advance_raiseIf_bind, if_pos hinvalid]
  rw [Proc.alone_of_raised hadvance] at h
  rcases h with ⟨y, hy, -⟩
  cases hy

theorem fresh_of_callsAdapter (h : CallsAdapter ((c.prog x).alone env s)) : Fresh x s c := by
  have haccess := access s env (valid_of_callsAdapter h)
  cases haccess with
  | stopped hcalls => exact absurd h hcalls
  | called _ hfresh => exact hfresh
  | answered hcalls => exact absurd h hcalls

theorem callsAdapter_of_fresh (hvalid : x.contractValidator.validateRequest c.request = true)
    (hfresh : Fresh x s c) (happends : ∀ record, env 0 (.append record) = .returned) :
    CallsAdapter ((c.prog x).alone env s) := by
  have haccess := access s env hvalid
  cases haccess with
  | stopped _ _ _ hstop => exact absurd hfresh (hstop happends)
  | called hcalls => exact hcalls
  | answered _ _ hkey hrecord =>
      rw [hfresh.unrecorded _ hkey] at hrecord
      cases hrecord

theorem Within.confined {p : Principal} (h : Within p c.request.executionContext) {q : Question}
    (hq : q.Own c) : q.Confined p := by
  cases q with
  | append record =>
      rcases hq with ⟨outcome, rfl⟩
      exact h.actorId
  | execute toolId arguments context =>
      rcases hq with ⟨-, -, rfl⟩
      refine ⟨h, fun knowledge hknowledge => ?_⟩
      -- the adapter makes its access from the context that was checked
      have hcarries := SourceContextSearchAdapter.access_carries hknowledge
      refine ⟨hcarries.1.trans h.actorId, ?_⟩
      rw [hcarries.2]
      intro ref href
      exact h.scopes ref (List.mem_toFinset.1 href)

/-- What the adapter gets stays within the principal exactly when every request
that gets to it declares no more than its principal holds: the code compares
neither the actor nor the refs that the tool does not require. -/
theorem confined_iff (x : ToolExecutor) (s : ToolState) (c : ToolCall) :
    (∀ env, CallsAdapter ((c.prog x).alone env s) → Confined c ((c.prog x).alone env s)) ↔
      (x.contractValidator.validateRequest c.request = true → Fresh x s c → DeclaresWithin c) := by
  constructor
  · intro h hvalid hfresh
    let quiet : Env Question Answer := fun _ q => match q with
      | .append _ => .returned
      | .execute _ _ _ => .raised
    have hcalls : CallsAdapter ((c.prog x).alone quiet s) :=
      callsAdapter_of_fresh hvalid hfresh fun _ => rfl
    rcases h quiet hcalls with ⟨p, hp, hconfined⟩
    rcases hcalls with ⟨y, hy, toolId, arguments, context, hask⟩
    -- the one call of the adapter gets the request's own context
    have hown := (prog_asks x c).alone quiet s y hy
    have hwithin := hconfined y hy
    rw [hask] at hown hwithin
    rcases hown with ⟨-, -, rfl⟩
    exact ⟨p, hp, hwithin.1⟩
  · intro h env hcalls
    rcases h (valid_of_callsAdapter hcalls) (fresh_of_callsAdapter hcalls) with ⟨p, hp, hwithin⟩
    exact ⟨p, hp, fun y hy => hwithin.confined ((prog_asks x c).alone env s y hy)⟩

/-! ## A context that exceeds its principal -/

def sourceReader : Principal :=
  { DiagnosticPrincipalResolver.principal with
    permissions := {"sources.read"}
    scopes := {"scope.sources.read"} }

/-- A principal that may read sources sends a search in another actor's name,
with a scope that it does not hold. -/
def overreachingCall : ToolCall where
  request := {
    toolCallId := "toolcall_context_001"
    runId := "run_context_001"
    toolId := "source.search_context"
    executionContext := diagnosticContext "actor_other_001" "corr_knowledge_tool_001"
      ["sources.read"] ["scope.sources.read", "scope.sources.write"]
    arguments := [("query", .str "retention")] }
  principal := some sourceReader

def sourceState : ToolState where
  registry := ⟨fun toolId =>
    if toolId = "source.search_context" then some sourceSearchContext else none⟩
  records := fun _ => none

theorem overreachingCall_gates :
    Gates diagnosticExecutor sourceState overreachingCall sourceSearchContext sourceReader where
  correlation := .inl rfl
  registered := rfl
  allowlisted := rfl
  active := rfl
  killSwitch := rfl
  production := by decide
  declaredScopes := by decide
  declaredPermission := by decide
  authorized := ⟨rfl, rfl, rfl, rfl, rfl, by decide, by decide⟩
  arguments := by decide
  keyed := fun h => by cases h

theorem overreachingCall_fresh : Fresh diagnosticExecutor sourceState overreachingCall :=
  ⟨⟨_, overreachingCall_gates.verdict⟩, fun _ _ => rfl⟩

/-- Its search carries the scope all the same. -/
theorem overreaching_search : ¬ ∀ env,
    CallsAdapter ((overreachingCall.prog diagnosticExecutor).alone env sourceState) →
      Confined overreachingCall ((overreachingCall.prog diagnosticExecutor).alone env
        sourceState) := by
  intro h
  have hcalls : CallsAdapter ((overreachingCall.prog diagnosticExecutor).alone
      (fun _ => diagnosticAnswers) sourceState) :=
    callsAdapter_of_fresh rfl overreachingCall_fresh fun _ => rfl
  rcases h _ hcalls with ⟨p, hp, hconfined⟩
  rcases hcalls with ⟨y, hy, toolId, arguments, context, hask⟩
  have hown := (prog_asks _ overreachingCall).alone _ sourceState y hy
  have hwithin := hconfined y hy
  rw [hask] at hown hwithin
  rcases hown with ⟨-, -, rfl⟩
  cases hp
  -- the context claims a scope that the principal lacks
  have hscope := hwithin.1.scopes "scope.sources.write" (by decide)
  revert hscope
  decide

end Alos.Tools
