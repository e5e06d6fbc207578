import Alos.Tools.Executor

/-! # The gates of the executor

What a call has to meet to get past the checks of `execute`, one field for
each check (`Gates`).

* `verdict_ok_iff`: the checks let exactly those calls pass;
* `verdict_error_status`: what they answer otherwise is a refusal.
-/

namespace Alos.Tools

/-- The call meets every gate, as the tool `registration` and the principal
`p` require. -/
structure Gates (x : ToolExecutor) (s : ToolState) (c : ToolCall) (registration : ToolRegistration)
    (p : Principal) : Prop where
  correlation : c.transportCorrelationId = none ∨
    c.transportCorrelationId = some c.request.executionContext.correlationId
  registered : s.registry.get c.request.toolId = some registration
  allowlisted : registration.allowlisted = true
  active : registration.lifecycleState = .active
  killSwitch : registration.killSwitchActive = false
  production : x.production = true → registration.productionEnabled = true
  declaredScopes : registration.requiredScopes ⊆ c.request.executionContext.scopeRefs.toFinset
  declaredPermission : registration.requiredPermission ∈ c.request.executionContext.permissionRefs
  authorized : AuthorizationPolicy.Holds c.principal c.request.executionContext.tenantId
    c.request.executionContext.organizationId c.request.executionContext.workspaceId
    registration.requiredPermission registration.requiredScopes p
  arguments : registration.adapter.validateArguments c.request.arguments = none
  keyed : registration.idempotencyPolicy = .required → ∃ key, c.request.key = some key

/-- The call passes the gates, and nothing is stored under its key. -/
structure Fresh (x : ToolExecutor) (s : ToolState) (c : ToolCall) : Prop where
  verdict : ∃ registration, c.verdict x s = .ok registration
  unrecorded : ∀ key, c.request.key = some key → s.records (cacheKey c.request key) = none

/-- The store holds a record of this very request. -/
def Recorded (x : ToolExecutor) (s : ToolState) (c : ToolCall) : Prop :=
  ∃ key existing, c.request.key = some key ∧
    s.records (cacheKey c.request key) = some existing ∧
      existing.requestDigest = requestDigest x c.request

variable {x : ToolExecutor} {s : ToolState} {c : ToolCall}

/-- Nothing passes but what meets every gate. -/
theorem gates_of_verdict {registration : ToolRegistration}
    (h : c.verdict x s = .ok registration) : ∃ p, Gates x s c registration p := by
  simp only [ToolCall.verdict, checks] at h
  -- one check after the other; each has passed
  split at h
  · cases h
  rename_i hcorrelation
  split at h
  · cases h
  rename_i found hregistered
  simp only [ite_not] at h
  split at h
  case isFalse => cases h
  rename_i hallowlisted
  split at h
  case isFalse => cases h
  rename_i hactive
  split at h
  · cases h
  rename_i hkill
  split at h
  · cases h
  rename_i hproduction
  split at h
  case isFalse => cases h
  rename_i hscopes
  split at h
  case isFalse => cases h
  rename_i hpermission
  split at h
  case isFalse => cases h
  rename_i hauthorized
  split at h
  · cases h
  rename_i harguments
  split at h
  · cases h
  rename_i hkeyed
  cases h
  -- the policy has let a principal pass
  rcases (AuthorizationPolicy.isAllowed_iff ..).1 hauthorized with ⟨p, hp⟩
  refine ⟨p, ?_, hregistered, hallowlisted, hactive, by simpa using hkill, ?_, hscopes, ?_, hp,
    harguments, ?_⟩
  · by_cases hnone : c.transportCorrelationId = none
    · exact .inl hnone
    · exact .inr (by simpa [hnone] using hcorrelation)
  · simpa using hproduction
  · simpa using hpermission
  · intro hrequired
    have hkey : ¬ c.request.key = none := by simpa [hrequired] using hkeyed
    exact Option.ne_none_iff_exists'.1 hkey

/-- What meets every gate passes. -/
theorem Gates.verdict {registration : ToolRegistration} {p : Principal}
    (h : Gates x s c registration p) : c.verdict x s = .ok registration := by
  -- the gates one by one, in the order of the source
  have hcorrelation : ¬ (c.transportCorrelationId ≠ none ∧
      c.transportCorrelationId ≠ some c.request.executionContext.correlationId) := by
    rcases h.correlation with hnone | hsame
    · simp [hnone]
    · simp [hsame]
  have hproduction : ¬ (x.production = true ∧ ¬ registration.productionEnabled = true) := by
    rintro ⟨hx, hr⟩
    exact hr (h.production hx)
  have hkeyed : ¬ (registration.idempotencyPolicy = .required ∧ c.request.key = none) := by
    rintro ⟨hrequired, hnone⟩
    rcases h.keyed hrequired with ⟨key, hkey⟩
    rw [hnone] at hkey
    cases hkey
  have hauthorized := (AuthorizationPolicy.isAllowed_iff ..).2 ⟨p, h.authorized⟩
  simp only [ToolCall.verdict, checks, if_neg hcorrelation, h.registered, h.allowlisted, h.active,
    h.killSwitch, if_neg hproduction, h.declaredScopes, List.mem_toFinset, h.declaredPermission,
    hauthorized, h.arguments, if_neg hkeyed]
  rfl

/-- The checks let exactly the calls pass that meet every gate. -/
theorem verdict_ok_iff {registration : ToolRegistration} :
    c.verdict x s = .ok registration ↔ ∃ p, Gates x s c registration p := by
  constructor
  · exact gates_of_verdict
  · rintro ⟨p, h⟩
    exact h.verdict

/-- A call that does not pass is denied or rejected. -/
theorem verdict_error_status {refusal : Refusal} (h : c.verdict x s = .error refusal) :
    refusal.status = .denied ∨ refusal.status = .rejected := by
  simp only [ToolCall.verdict, checks] at h
  split at h
  · cases h
    exact .inl rfl
  split at h
  · cases h
    exact .inl rfl
  -- the gates that read the registration
  iterate 7
    split at h
    · cases h
      exact .inl rfl
  split at h
  · cases h
    exact .inr rfl
  split at h
  · cases h
    exact .inr rfl
  cases h

end Alos.Tools
