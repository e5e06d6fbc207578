import Alos.Tools.Lifecycle

/-! # What the last event of a tool says

Calls of the registry one after the other, with an audit sink that stores every
event. An event says in its outcome where the tool stands after the call; the
constant of a transition is right as long as the other of the two flags, the
lifecycle state and the kill switch, is as it is expected.

* `Tells`: the last event of every tool says whether the tool can run;
* `Expected` is what a call takes for granted without a check, `Makes.tells_iff`
  that its outcome is right just then;
* `tells_iff_expected`: a run tells the truth all along just when every call of
  it finds what it expects.
-/

namespace Alos.Tools.Lifecycle

open Coop Py

/-- The audit sink never fails. -/
def storing : Env Question Answer := fun _ q =>
  match q with
  | .append _ => .returned

/-- The event that was appended in an exchange. -/
def appendedEvent : Exchange Question Answer → AuditEvent
  | ⟨.append event, _⟩ => event

/-- The registry together with its audit trail. -/
structure Trailed where
  registry : ToolRegistry
  trail : List AuditEvent

/-- The state before the first call. -/
def Trailed.empty : Trailed := ⟨⟨fun _ => none⟩, []⟩

def Trailed.call (s : Trailed) (c : Call) : Trailed where
  registry := ((c.prog true).alone storing s.registry).state
  trail := s.trail ++ ((c.prog true).alone storing s.registry).log.map appendedEvent

def Trailed.callAll (calls : List Call) : Trailed := calls.foldl Trailed.call .empty

/-- The last event about a tool. -/
def Trailed.lastEvent (s : Trailed) (toolId : String) : Option AuditEvent :=
  (s.trail.filter fun event => event.entityId = toolId).getLast?

/-- Neither its lifecycle nor its kill switch keeps the tool from running. -/
def CanRun (registration : ToolRegistration) : Prop :=
  registration.lifecycleState = .active ∧ registration.killSwitchActive = false

instance (registration : ToolRegistration) : Decidable (CanRun registration) :=
  inferInstanceAs (Decidable (_ ∧ _))

/-- The last event of every tool says whether the tool can run. -/
def Tells (s : Trailed) : Prop :=
  ∀ toolId registration, s.registry.get toolId = some registration →
    ∃ event, s.lastEvent toolId = some event ∧
      (event.outcome = "ACTIVE" ↔ CanRun registration)

/-- What a call takes for granted of the registration that it finds: that the
kill switch of a tool to be activated is off, and that a tool whose kill switch
is cleared is active. -/
def Expected (r : ToolRegistry) : Call → Prop
  | .activate toolId _ _ => ∀ current, r.get toolId = some current →
      current.lifecycleState = .approved → current.killSwitchActive = false
  | .clearKillSwitch toolId _ reason _ => ∀ current, r.get toolId = some current →
      current.killSwitchActive = true → ¬ Blank reason → current.lifecycleState = .active
  | _ => True

/-! ## One call -/

theorem Trailed.callAll_snoc (calls : List Call) (c : Call) :
    callAll (calls ++ [c]) = (callAll calls).call c := by
  simp [callAll]

theorem Call.event_entityId (c : Call) (updated : ToolRegistration) :
    (c.event updated).entityId = updated.toolId := by
  unfold Call.event
  split <;> rfl

/-- The outcome of a call is right just when the call finds what it expects. -/
theorem Makes.tells_iff {c : Call} {r : ToolRegistry} {updated : ToolRegistration}
    (h : Makes c (r.get c.toolId) updated) :
    ((c.event updated).outcome = "ACTIVE" ↔ CanRun updated) ↔ Expected r c := by
  generalize hfound : r.get c.toolId = found at h
  cases h with
  | drafted hstate => simp [Call.event, Call.change?, auditEvent, CanRun, hstate, Expected]
  | approved => simp [Call.event, Call.change?, approval, auditEvent, CanRun, Expected]
  | @activated toolId _ _ current hstate =>
      have hget : r.get toolId = some current := hfound
      simp [Call.event, Call.change?, activation, auditEvent, CanRun, Expected, hget, hstate]
  | suspended => simp [Call.event, Call.change?, suspension, auditEvent, CanRun, Expected]
  | retired => simp [Call.event, Call.change?, retirement, auditEvent, CanRun, Expected]
  | killed => simp [Call.event, Call.change?, kill, auditEvent, CanRun, Expected]
  | @cleared toolId _ _ _ current hkill hreason =>
      have hget : r.get toolId = some current := hfound
      simp [Call.event, Call.change?, clearance, auditEvent, CanRun, Expected, hget, hkill, hreason]

/-- A call is refused, or it stores what it has made and appends its event. -/
inductive Trailed.Steps (s : Trailed) (c : Call) : Trailed → Prop where
  | refused {e} (h : c.prepare true (s.registry.get c.toolId) = .error e) : Steps s c s
  | stored {updated} (h : c.prepare true (s.registry.get c.toolId) = .ok updated) :
      Steps s c ⟨s.registry.put c.toolId updated, s.trail ++ [c.event updated]⟩

theorem Trailed.call_steps (s : Trailed) (c : Call) : s.Steps c (s.call c) := by
  cases hprepare : c.prepare true (s.registry.get c.toolId) with
  | error e =>
      have hcall : s.call c = s := by
        simp only [call, Call.alone_eq, hprepare, List.map_nil, List.append_nil]
      rw [hcall]
      exact .refused hprepare
  | ok updated =>
      have hcall : s.call c =
          ⟨s.registry.put c.toolId updated, s.trail ++ [c.event updated]⟩ := by
        simp only [call, Call.alone_eq, hprepare, storing, List.map_cons, List.map_nil,
          appendedEvent]
      rw [hcall]
      exact .stored hprepare

/-- Every registration is stored under its own id, with its tenant context. -/
def Filed (r : ToolRegistry) : Prop :=
  ∀ toolId registration, r.get toolId = some registration →
    registration.toolId = toolId ∧ HasContext registration

theorem Makes.toolId {c : Call} {found : Option ToolRegistration} {updated : ToolRegistration}
    (h : Makes c found updated)
    (hfound : ∀ current, found = some current → current.toolId = c.toolId) :
    updated.toolId = c.toolId := by
  cases h with
  | drafted => rfl
  | approved | activated | suspended | retired | killed | cleared =>
      have hcurrent := hfound _ rfl
      exact hcurrent

theorem recordable_eq_ok {registration : ToolRegistration} {u : Unit} :
    recordable true registration = .ok u ↔ HasContext registration := by
  simp [recordable]

theorem Call.prepare_eq_ok {c : Call} {found : Option ToolRegistration}
    {updated : ToolRegistration} : c.prepare true found = .ok updated ↔
      c.updated found = .ok updated ∧ HasContext updated := by
  simp only [prepare, Except.bind_eq_ok, Except.pure_eq_ok, recordable_eq_ok]
  constructor
  · rintro ⟨made, hmade, -, hcontext, rfl⟩
    exact ⟨hmade, hcontext⟩
  · rintro ⟨hmade, hcontext⟩
    exact ⟨updated, hmade, (), hcontext, rfl⟩

/-- A call that is refused has not found a tool of which it takes something for
granted that does not hold. -/
theorem Filed.expected_of_refused {r : ToolRegistry} (hr : Filed r) {c : Call} {e : LifecycleError}
    (h : c.prepare true (r.get c.toolId) = .error e) : Expected r c := by
  have hnever : ∀ updated, c.updated (r.get c.toolId) = .ok updated → ¬ HasContext updated := by
    intro updated hupdated hcontext
    rw [Call.prepare_eq_ok.2 ⟨hupdated, hcontext⟩] at h
    cases h
  -- only what was stored without a context can be refused for it
  cases c with
  | activate toolId actorId correlationId =>
      intro current hget hstate
      have hcontext := (hr toolId current hget).2
      refine absurd hcontext (hnever { current with lifecycleState := .active } ?_)
      exact (Call.updated_eq_ok rfl).2 ⟨current, hget, guard_eq_ok.2 hstate, rfl⟩
  | clearKillSwitch toolId actorId reason correlationId =>
      intro current hget hkill hreason
      have hcontext := (hr toolId current hget).2
      refine absurd hcontext (hnever { current with killSwitchActive := false } ?_)
      refine (Call.updated_eq_ok rfl).2 ⟨current, hget, ?_, rfl⟩
      exact Except.bind_eq_ok.2 ⟨(), guard_eq_ok.2 hkill, guard_eq_ok.2 hreason⟩
  | registerDraft | approve | suspend | retire | activateKillSwitch => trivial

theorem Filed.put {r : ToolRegistry} (hr : Filed r) {c : Call} {updated : ToolRegistration}
    (h : c.prepare true (r.get c.toolId) = .ok updated) : Filed (r.put c.toolId updated) := by
  have hid : updated.toolId = c.toolId :=
    (makes_of_prepare h).toolId fun current hget => (hr c.toolId current hget).1
  intro toolId registration hget
  by_cases htool : toolId = c.toolId
  · subst htool
    rw [ToolRegistry.get_put_self] at hget
    cases hget
    exact ⟨hid, (Call.prepare_eq_ok.1 h).2⟩
  · rw [ToolRegistry.get_put_of_ne _ htool] at hget
    exact hr toolId registration hget

/-! ## The last event -/

theorem Trailed.lastEvent_append_self (s : Trailed) (registry : ToolRegistry) {event : AuditEvent}
    {toolId : String} (h : event.entityId = toolId) :
    lastEvent ⟨registry, s.trail ++ [event]⟩ toolId = some event := by
  simp [lastEvent, h]

theorem Trailed.lastEvent_append_of_ne (s : Trailed) (registry : ToolRegistry)
    {event : AuditEvent} {toolId : String} (h : event.entityId ≠ toolId) :
    lastEvent ⟨registry, s.trail ++ [event]⟩ toolId = s.lastEvent toolId := by
  simp [lastEvent, h]

/-- A call that finds what it expects keeps the trail truthful, and no other does. -/
theorem Trailed.Steps.tells_iff {s s' : Trailed} {c : Call} (h : s.Steps c s')
    (hfiled : Filed s.registry) (htells : Tells s) : Tells s' ↔ Expected s.registry c := by
  cases h with
  | refused hrefused => exact ⟨fun _ => hfiled.expected_of_refused hrefused, fun _ => htells⟩
  | @stored updated hprepare =>
      have hmakes := makes_of_prepare hprepare
      have hid : (c.event updated).entityId = c.toolId := by
        rw [Call.event_entityId]
        exact hmakes.toolId fun current hget => (hfiled c.toolId current hget).1
      rw [← hmakes.tells_iff]
      constructor
      · intro hafter
        rcases hafter c.toolId updated (ToolRegistry.get_put_self ..) with ⟨event, hevent, houtcome⟩
        rw [lastEvent_append_self s _ hid] at hevent
        cases hevent
        exact houtcome
      · intro houtcome toolId registration hget
        by_cases htool : toolId = c.toolId
        · subst htool
          rw [ToolRegistry.get_put_self] at hget
          cases hget
          exact ⟨_, lastEvent_append_self s _ hid, houtcome⟩
        · -- the event is about another tool
          rw [ToolRegistry.get_put_of_ne _ htool] at hget
          rw [lastEvent_append_of_ne s _ (by rw [hid]; exact Ne.symm htool)]
          exact htells toolId registration hget

/-! ## Runs -/

theorem filed_callAll (calls : List Call) : Filed (Trailed.callAll calls).registry := by
  induction calls using List.reverseRecOn with
  | nil =>
      intro toolId registration hget
      cases hget
  | append_singleton calls c ih =>
      rw [Trailed.callAll_snoc]
      have hsteps := Trailed.call_steps (Trailed.callAll calls) c
      generalize (Trailed.callAll calls).call c = s' at hsteps
      cases hsteps with
      | refused => exact ih
      | stored hprepare => exact ih.put hprepare

/-- The trail tells the truth all along a run just when every call of the run
finds what it expects. -/
theorem tells_iff_expected (calls : List Call) :
    (∀ pre post, calls = pre ++ post → Tells (Trailed.callAll pre)) ↔
      ∀ pre c post, calls = pre ++ c :: post → Expected (Trailed.callAll pre).registry c := by
  have hstep : ∀ pre c, Tells (Trailed.callAll pre) →
      (Tells (Trailed.callAll (pre ++ [c])) ↔ Expected (Trailed.callAll pre).registry c) := by
    intro pre c htells
    rw [Trailed.callAll_snoc]
    exact (Trailed.call_steps _ c).tells_iff (filed_callAll pre) htells
  constructor
  · rintro h pre c post rfl
    exact (hstep pre c (h pre (c :: post) rfl)).1 (h (pre ++ [c]) post (by simp))
  · rintro h pre post rfl
    -- the trail has been truthful up to each point, so that the step lemma applies
    induction pre using List.reverseRecOn generalizing post with
    | nil =>
        intro toolId registration hget
        cases hget
    | append_singleton pre c ih =>
        have htells : Tells (Trailed.callAll pre) :=
          ih (c :: post) fun pre' c' post' hcalls => h pre' c' post' (by simpa using hcalls)
        exact (hstep pre c htells).2 (h pre c post (by simp))

/-- A tool is killed, suspended, and then its kill switch is cleared: the event of
the clearance says ACTIVE, the tool stays suspended. -/
theorem cleared_while_suspended : ¬ Tells (Trailed.callAll
    [.registerDraft
        { toolId := "tool_1", requiredPermission := "tools.run", requiredScopes := ∅,
          adapter := ⟨fun _ => none⟩, lifecycleState := .draft, ownerActorId := some "actor_1",
          tenantId := some "tenant_1", organizationId := some "org_1", workspaceId := some "ws_1" }
        "actor_1" "corr_1",
      .approve "tool_1" "actor_2" "corr_2",
      .activate "tool_1" "actor_2" "corr_3",
      .activateKillSwitch "tool_1" "actor_2" "incident" "corr_4",
      .suspend "tool_1" "actor_2" "corr_5",
      .clearKillSwitch "tool_1" "actor_2" "resolved" "corr_6"]) := by
  intro h
  rcases h "tool_1" _ rfl with ⟨event, hevent, houtcome⟩
  cases hevent
  revert houtcome
  decide

end Alos.Tools.Lifecycle
