import Alos.Tools.Lifecycle

/-! # The lifecycle of tools in sequential runs

Calls of the registry one after the other, by any actors, with an audit sink
that may be missing or fail.

* `Sound` is what every registration meets that is stored;
* `Persists` is what no call takes away from a registration;
* `governed`: a tool that has been active was approved by somebody else than its
  owner, a retired tool stays retired, a call that raises changes nothing, and a
  call that returns has been audited once.
-/

namespace Alos.Tools.Lifecycle

open Coop

/-- Approved by an actor who is not the owner. -/
def Independent (registration : ToolRegistration) : Prop :=
  ∃ owner approver, registration.ownerActorId = some owner ∧
    registration.approvedBy = some approver ∧ approver ≠ owner

def Retired (registration : ToolRegistration) : Prop :=
  registration.lifecycleState = .retired ∧ registration.allowlisted = false

structure Sound (registration : ToolRegistration) : Prop where
  owned : ∃ owner, registration.ownerActorId = some owner
  independent : registration.lifecycleState = .approved ∨ registration.lifecycleState = .active ∨
    registration.lifecycleState = .suspended → Independent registration
  retired : registration.lifecycleState = .retired → registration.allowlisted = false

/-! ## What one call does -/

/-- A sound registration is all that a call makes of one. -/
theorem Makes.sound {c : Call} {found : Option ToolRegistration} {updated : ToolRegistration}
    (h : Makes c found updated) (hfound : ∀ registration ∈ found, Sound registration) :
    Sound updated := by
  cases h with
  | drafted hstate howner =>
      refine ⟨⟨_, howner⟩, ?_, ?_⟩
      · simp [hstate]
      · simp [hstate]
  | approved hstate howner =>
      have hcurrent := hfound _ rfl
      obtain ⟨owner, howned⟩ := hcurrent.owned
      refine ⟨⟨owner, howned⟩, ?_, ?_⟩
      · -- the approver is not the owner
        intro _
        refine ⟨owner, _, howned, rfl, ?_⟩
        rintro rfl
        exact howner howned
      · simp
  | activated hstate =>
      have hcurrent := hfound _ rfl
      exact ⟨hcurrent.owned, fun _ => hcurrent.independent (.inl hstate), by simp⟩
  | suspended hstate =>
      have hcurrent := hfound _ rfl
      exact ⟨hcurrent.owned, fun _ => hcurrent.independent (.inr (.inl hstate)), by simp⟩
  | retired hstate =>
      have hcurrent := hfound _ rfl
      exact ⟨hcurrent.owned, by simp, fun _ => rfl⟩
  | killed hstate hreason =>
      have hcurrent := hfound _ rfl
      exact ⟨hcurrent.owned, hcurrent.independent, hcurrent.retired⟩
  | cleared hkill hreason =>
      have hcurrent := hfound _ rfl
      exact ⟨hcurrent.owned, hcurrent.independent, hcurrent.retired⟩

/-- Who approved a tool is settled once it has been approved by somebody else. -/
theorem Makes.independent {c : Call} {current updated : ToolRegistration}
    (h : Makes c (some current) updated) (hcurrent : Independent current) : Independent updated := by
  obtain ⟨owner, approver, howner, happrover, hne⟩ := hcurrent
  cases h with
  | approved hstate hmaker =>
      refine ⟨owner, _, howner, rfl, ?_⟩
      rintro rfl
      exact hmaker howner
  | activated => exact ⟨owner, approver, howner, happrover, hne⟩
  | suspended => exact ⟨owner, approver, howner, happrover, hne⟩
  | retired => exact ⟨owner, approver, howner, happrover, hne⟩
  | killed => exact ⟨owner, approver, howner, happrover, hne⟩
  | cleared => exact ⟨owner, approver, howner, happrover, hne⟩

/-- No call brings a retired tool back. -/
theorem Makes.stays_retired {c : Call} {current updated : ToolRegistration}
    (h : Makes c (some current) updated) (hcurrent : Retired current) : Retired updated := by
  obtain ⟨hretired, hallowlisted⟩ := hcurrent
  cases h with
  | approved hstate => simp [hstate] at hretired
  | activated hstate => simp [hstate] at hretired
  | suspended hstate => simp [hstate] at hretired
  | retired hstate => exact absurd hretired hstate
  | killed hstate => simp [hstate] at hretired
  | cleared => exact ⟨hretired, hallowlisted⟩

/-! ## Runs -/

section Runs

variable (audit : Bool)

/-- One call, run to its end. -/
def perform (r : ToolRegistry) (x : Call × Env Question Answer) :
    Proc.Finished ToolRegistry Question Answer LifecycleError ToolRegistration :=
  (x.1.prog audit).alone x.2 r

/-- The registry after calls that are made one after the other; it starts empty. -/
def performAll (steps : List (Call × Env Question Answer)) : ToolRegistry :=
  steps.foldl (fun r x => (perform audit r x).state) ⟨fun _ => none⟩

theorem performAll_snoc (steps : List (Call × Env Question Answer)) (x : Call × Env Question Answer) :
    performAll audit (steps ++ [x]) = (perform audit (performAll audit steps) x).state := by
  simp [performAll]

/-- How a call ends: it raises and changes nothing, or it returns what it has
stored, with one event appended. -/
inductive Ends (r : ToolRegistry) (c : Call) :
    Proc.Finished ToolRegistry Question Answer LifecycleError ToolRegistration → Prop where
  | raised {e log} : Ends r c ⟨r, .error e, log⟩
  | returned {updated event} (h : Makes c (r.get c.toolId) updated) :
      Ends r c ⟨r.put c.toolId updated, .ok updated, [⟨.append event, .returned⟩]⟩

theorem perform_ends (r : ToolRegistry) (x : Call × Env Question Answer) :
    Ends r x.1 (perform audit r x) := by
  rw [perform, Call.alone_eq]
  cases hprepare : x.1.prepare audit (r.get x.1.toolId) with
  | error e => exact .raised
  | ok updated =>
      simp only
      split
      · exact .raised
      · exact .returned (makes_of_prepare hprepare)

variable {audit}

theorem performAll_sound (steps : List (Call × Env Question Answer)) (toolId : String) :
    ∀ registration ∈ (performAll audit steps).get toolId, Sound registration := by
  induction steps using List.reverseRecOn generalizing toolId with
  | nil => simp [performAll, ToolRegistry.get]
  | append_singleton steps x ih =>
      rw [performAll_snoc]
      have hends := perform_ends audit (performAll audit steps) x
      generalize perform audit (performAll audit steps) x = finished at hends
      -- a call that raised has stored nothing; one that returned has stored what it makes
      cases hends with
      | raised => exact ih toolId
      | returned hmakes =>
          by_cases htool : toolId = x.1.toolId
          · subst htool
            intro registration hregistration
            rw [ToolRegistry.get_put_self] at hregistration
            cases hregistration
            exact hmakes.sound (ih x.1.toolId)
          · rw [ToolRegistry.get_put_of_ne _ htool]
            exact ih toolId

/-- What every call leaves of a registration, a run leaves of it. -/
theorem persists {P : ToolRegistration → Prop}
    (hP : ∀ c current updated, Makes c (some current) updated → P current → P updated)
    {pre : List (Call × Env Question Answer)} {toolId : String} {registration : ToolRegistration}
    (hget : (performAll audit pre).get toolId = some registration) (h : P registration)
    (post : List (Call × Env Question Answer)) :
    ∃ later, (performAll audit (pre ++ post)).get toolId = some later ∧ P later := by
  induction post using List.reverseRecOn with
  | nil => exact ⟨registration, by simpa using hget, h⟩
  | append_singleton post x ih =>
      obtain ⟨later, hlater, hkept⟩ := ih
      rw [← List.append_assoc, performAll_snoc]
      have hends := perform_ends audit (performAll audit (pre ++ post)) x
      generalize perform audit (performAll audit (pre ++ post)) x = finished at hends
      cases hends with
      | raised => exact ⟨later, hlater, hkept⟩
      | returned hmakes =>
          rename_i updated event
          -- only the registration of the call's own tool changes
          by_cases htool : toolId = x.1.toolId
          · subst htool
            rw [hlater] at hmakes
            exact ⟨updated, ToolRegistry.get_put_self .., hP _ _ _ hmakes hkept⟩
          · exact ⟨later, by rwa [ToolRegistry.get_put_of_ne _ htool], hkept⟩

/-- What the lifecycle promises of the run `steps`. -/
structure Governed (audit : Bool) (steps : List (Call × Env Question Answer)) : Prop where
  /-- A tool that is or has been active has an approver who is not its owner. -/
  approved : ∀ pre post, steps = pre ++ post → ∀ toolId registration,
    (performAll audit pre).get toolId = some registration →
    registration.lifecycleState = .active →
    ∃ later, (performAll audit steps).get toolId = some later ∧ Independent later
  /-- A retired tool stays retired, and is not allowlisted. -/
  retired : ∀ pre post, steps = pre ++ post → ∀ toolId registration,
    (performAll audit pre).get toolId = some registration →
    registration.lifecycleState = .retired →
    ∃ later, (performAll audit steps).get toolId = some later ∧ Retired later
  /-- A call that raises leaves the registry as it was. -/
  raising : ∀ pre x post, steps = pre ++ x :: post → ∀ e,
    (perform audit (performAll audit pre) x).result = .error e →
    performAll audit (pre ++ [x]) = performAll audit pre
  /-- A call that returns has appended one event, and asked for no other. -/
  returning : ∀ pre x post, steps = pre ++ x :: post → ∀ updated,
    (perform audit (performAll audit pre) x).result = .ok updated →
    ∃ event, (perform audit (performAll audit pre) x).log = [⟨.append event, .returned⟩]

theorem governed (audit : Bool) (steps : List (Call × Env Question Answer)) :
    Governed audit steps where
  approved := by
    rintro pre post rfl toolId registration hget hactive
    have hsound := performAll_sound pre toolId registration hget
    exact persists (fun _ _ _ => Makes.independent) hget (hsound.independent (.inr (.inl hactive)))
      post
  retired := by
    rintro pre post rfl toolId registration hget hretired
    have hsound := performAll_sound pre toolId registration hget
    exact persists (fun _ _ _ => Makes.stays_retired) hget ⟨hretired, hsound.retired hretired⟩ post
  raising := by
    rintro pre x post - e he
    rw [performAll_snoc]
    have hends := perform_ends audit (performAll audit pre) x
    generalize perform audit (performAll audit pre) x = finished at he hends
    cases hends with
    | raised => rfl
    | returned => cases he
  returning := by
    rintro pre x post - updated hok
    have hends := perform_ends audit (performAll audit pre) x
    generalize perform audit (performAll audit pre) x = finished at hok hends
    cases hends with
    | raised => cases hok
    | returned => exact ⟨_, rfl⟩

end Runs

end Alos.Tools.Lifecycle
