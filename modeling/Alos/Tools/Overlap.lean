import Alos.Coop.Since
import Alos.Tools.Gates
import Alos.Tools.MakerChecker

/-! # Lifecycle calls that overlap

A call stores what it has made of the registration that it read before its
append, whatever has been stored since.

* `Fresh` forbids just that: a call does not store when another call on its tool
  has returned since it started;
* `lasting_of_fresh`: then no effect is lost, neither of a retirement, nor of a
  kill switch, nor of a registration;
* `retired_and_active`: an activation that overlaps a retirement undoes it, and
  the executor runs the tool again.
-/

namespace Alos.Tools.Lifecycle

open Coop Staging

/-! ## Stages -/

/-- Where a call stands. -/
inductive Stage where
  | refused (e : LifecycleError)
  | waiting (updated : ToolRegistration)
  | stored (updated : ToolRegistration)
  | failed

/-- Where the first segment of a call leads to. -/
def Call.begun (audit : Bool) (c : Call) (r : ToolRegistry) : Stage :=
  match c.prepare audit (r.get c.toolId) with
  | .error e => .refused e
  | .ok updated => .waiting updated

/-- The state and the stage after the append. -/
def Call.ended (c : Call) (r : ToolRegistry) (updated : ToolRegistration) :
    Alos.Appended → ToolRegistry × Stage
  | .returned => (r.put c.toolId updated, .stored updated)
  | .raised => (r, .failed)

/-- The two stages of a call: refused, or waiting for the sink with the registration it will store.
-/
def staging (audit : Bool) :
    Staging Call ToolRegistry Question Answer LifecycleError ToolRegistration Stage where
  now c
    | .refused e => .raised e
    | .waiting updated => .awaiting (.append (c.event updated)) (c.finish updated)
    | .stored updated => .returned updated
    | .failed => .raised .audit
  Begins c r r' st := r' = r ∧ st = c.begun audit r
  Turn c r st x r' st' := ∃ updated, st = .waiting updated ∧
    match x with
    | ⟨.append _, appended⟩ => (r', st') = c.ended r updated appended

/-- The code takes the steps that the stages describe. -/
theorem follows (audit : Bool) : (staging audit).Follows (Call.prog audit) where
  begins := by
    intro c r
    refine ⟨r, c.begun audit r, ⟨rfl, rfl⟩, ?_⟩
    rw [Call.prog_eq, Proc.advance_read, Call.begun]
    cases c.prepare audit (r.get c.toolId) with
    | error e => rfl
    | ok updated => rfl
  turns := by
    intro c st q k hnow a r
    cases st with
    | waiting updated =>
        cases hnow
        refine ⟨_, _, ⟨updated, rfl, rfl⟩, ?_⟩
        cases a <;> rfl
    | refused e => cases hnow
    | stored updated => cases hnow
    | failed => cases hnow

/-! ## Overlapping calls -/

abbrev Lifecycles := Sys Call ToolRegistry Question Answer LifecycleError ToolRegistration

/-- What is recorded of one step. -/
abbrev LifecycleLabel := Label Call Question Answer LifecycleError ToolRegistration

/-- The call of the segment has returned with it. -/
def Returns (l : LifecycleLabel) : Prop :=
  match l.stop with
  | .returned _ => True
  | _ => False

instance (l : LifecycleLabel) : Decidable (Returns l) := by
  unfold Returns
  split <;> infer_instance

/-- A call on the tool has returned since thread `i` started. -/
def Overtaken (i : ℕ) (toolId : String) (tr : List LifecycleLabel) : Prop :=
  ∃ l ∈ since i tr, l.call.toolId = toolId ∧ Returns l

instance (i : ℕ) (toolId : String) (tr : List LifecycleLabel) :
    Decidable (Overtaken i toolId tr) :=
  inferInstanceAs (Decidable (∃ l ∈ _, _ ∧ _))

/-- The step does not let a call store that has been overtaken. -/
def Fresh (t : Lifecycles) : Step Call Question Answer → Prop
  | .call _ _ => True
  | .resume i reply =>
      match t.threads i with
      | some ⟨c, .awaiting (.append event) _⟩ =>
          reply (.append event) = .returned → ¬ Overtaken i c.toolId t.trace
      | _ => True

instance (t : Lifecycles) (x : Step Call Question Answer) : Decidable (Fresh t x) := by
  unfold Fresh
  split
  · infer_instance
  · split <;> infer_instance

/-! ## The invariant -/

/-- What a call waits to store is what it would make of the registration there is
now, unless it has been overtaken. -/
structure Current (audit : Bool)
    (w : World Call ToolRegistry Question Answer LifecycleError ToolRegistration)
    (pool : Pool Call Stage) : Prop where
  started : ∀ i c st, pool i = some (c, st) →
    ∃ l ∈ w.trace, l.thread = i ∧ l.call = c ∧ l.input = .start
  waiting : ∀ i c updated, pool i = some (c, .waiting updated) →
    ¬ Overtaken i c.toolId w.trace → c.prepare audit (w.shared.get c.toolId) = .ok updated

/-- Nothing is overtaken before the first call. -/
theorem current_init (audit : Bool) (r : ToolRegistry) :
    (staging audit).Staged (Current audit) (init r) := by
  refine ⟨fun _ => none, describes_init r, ?_, ?_⟩ <;> simp

/-- A segment of another call overtakes, or leaves the registration as it is. -/
theorem Current.other {audit : Bool} {t : Lifecycles} {pool : Pool Call Stage}
    (h : Current audit t.toWorld pool) {r' : ToolRegistry} {l : LifecycleLabel}
    (hstored : ∀ toolId, r'.get toolId = t.shared.get toolId ∨ l.call.toolId = toolId ∧ Returns l)
    {i : ℕ} {c : Call} {updated : ToolRegistration} (hi : pool i = some (c, .waiting updated))
    (hfree : ¬ Overtaken i c.toolId (t.trace ++ [l])) :
    c.prepare audit (r'.get c.toolId) = .ok updated := by
  have hstarted : ∃ l ∈ t.trace, l.thread = i := by
    obtain ⟨l, hl, hthread, -⟩ := h.started i c _ hi
    exact ⟨l, hl, hthread⟩
  unfold Overtaken at hfree
  rw [since_append hstarted] at hfree
  -- a returned call of the same tool is what overtaking means
  rcases hstored c.toolId with hsame | hreturned
  · rw [hsame]
    apply h.waiting i c updated hi
    rintro ⟨l', hl', hover⟩
    exact hfree ⟨l', List.mem_append_left _ hl', hover⟩
  · exact absurd ⟨l, by simp, hreturned⟩ hfree

/-- A call that has started stays among those recorded. -/
theorem Current.startedPut {audit : Bool} {t : Lifecycles} {pool : Pool Call Stage}
    (h : Current audit t.toWorld pool) {i : ℕ} {c : Call} {st : Stage} {l : LifecycleLabel}
    (hl : ∃ l' ∈ t.trace ++ [l], l'.thread = i ∧ l'.call = c ∧ l'.input = .start)
    (j : ℕ) (d : Call) (u : Stage) (hj : pool.put i c st j = some (d, u)) :
    ∃ l' ∈ t.trace ++ [l], l'.thread = j ∧ l'.call = d ∧ l'.input = .start := by
  rcases Pool.put_eq_some.1 hj with ⟨rfl, rfl, rfl⟩ | ⟨-, hj⟩
  · exact hl
  · obtain ⟨l', hl', hstart⟩ := h.started j d u hj
    exact ⟨l', List.mem_append_left _ hl', hstart⟩

/-- What is current is kept by every step. -/
theorem current_keeps (audit : Bool) :
    (staging audit).Keeps (fun _ _ => True) (Current audit) where
  start := by
    rintro t pool i c r' st hpool h - hi ⟨rfl, rfl⟩
    constructor
    · apply h.startedPut
      exact ⟨_, List.mem_append_right _ List.mem_cons_self, rfl, rfl, rfl⟩
    · intro j d updated hj hfree
      rcases Pool.put_eq_some.1 hj with ⟨rfl, rfl, hstage⟩ | ⟨-, hj⟩
      · -- it has just read the registration
        unfold Call.begun at hstage
        split at hstage
        · cases hstage
        · cases hstage
          assumption
      · exact h.other (fun _ => .inl rfl) hj hfree
  turn := by
    rintro t pool i reply c st q k a r' st' hpool h - hi hnow - ⟨updated, rfl, hturn⟩
    cases q with
    | append event =>
        simp only at hturn
        constructor
        · apply h.startedPut
          obtain ⟨l', hl', hstart⟩ := h.started i c _ hi
          exact ⟨l', List.mem_append_left _ hl', hstart⟩
        · intro j d updated' hj hfree
          rcases Pool.put_eq_some.1 hj with ⟨rfl, rfl, hstage⟩ | ⟨-, hj⟩
          · cases a <;> cases hturn <;> cases hstage
          · refine h.other ?_ hj hfree
            intro toolId
            cases a with
            | raised =>
                cases hturn
                exact .inl rfl
            | returned =>
                cases hturn
                by_cases htool : toolId = c.toolId
                · exact .inr ⟨htool.symm, trivial⟩
                · exact .inl (ToolRegistry.get_put_of_ne _ htool _)

/-! ## One step -/

/-- What a step that meets `Fresh` does to the world: nothing, or a segment that
stores nothing, or a call returns and stores what it makes of the registration
that there is. -/
inductive Advance (t : Lifecycles) :
    World Call ToolRegistry Question Answer LifecycleError ToolRegistration → Prop where
  | idle : Advance t t.toWorld
  | silent {l} (h : ¬ Returns l) : Advance t (t.toWorld.push t.shared l)
  | stored {l updated} (hreturns : Returns l)
      (hmakes : Makes l.call (t.shared.get l.call.toolId) updated)
      (hfree : ¬ Overtaken l.thread l.call.toolId t.trace)
      (hstarted : ∃ l' ∈ t.trace, l'.thread = l.thread ∧ l'.call = l.call ∧ l'.input = .start) :
      Advance t (t.toWorld.push (t.shared.put l.call.toolId updated) l)

/-- A step that is `Fresh` changes a tool by the rules of its lifecycle, or not at all. -/
theorem advance {audit : Bool} {t : Lifecycles} (h : (staging audit).Staged (Current audit) t)
    {x : Step Call Question Answer} (hfresh : Fresh t x) :
    Advance t (next (Call.prog audit) t x).toWorld := by
  obtain ⟨pool, hpool, hcurrent⟩ := h
  obtain ⟨pool', -, hmoved⟩ := hpool.next (follows audit) x
  generalize (next (Call.prog audit) t x).toWorld = w at hmoved
  cases hmoved with
  | idle => exact .idle
  | start hi hbegins =>
      rename_i i c r' st
      obtain ⟨rfl, rfl⟩ := hbegins
      apply Advance.silent
      unfold Call.begun
      cases c.prepare audit (t.shared.get c.toolId) <;> simp [label, staging, Yield.stop, Returns]
  | turn hi hnow hturn =>
      rename_i i reply c st q k r' st'
      obtain ⟨updated, rfl, hturn⟩ := hturn
      cases q with
      | append event =>
          simp only at hturn
          cases happended : reply (.append event) with
          | raised =>
              rw [happended] at hturn
              cases hturn
              apply Advance.silent
              simp [label, staging, Yield.stop, Returns]
          | returned =>
              rw [happended] at hturn
              cases hturn
              -- the append has returned, so nothing has overtaken the call
              have hfree : ¬ Overtaken i c.toolId t.trace := by
                have hthread : t.threads i = some ⟨c, .awaiting (.append event) k⟩ := by
                  rw [hpool.thread_some hi, hnow]
                simp only [Fresh, hthread] at hfresh
                exact hfresh happended
              have hprepare := hcurrent.waiting i c updated hi hfree
              exact .stored (l := (staging audit).label i c _ (.stored updated)) trivial
                (makes_of_prepare hprepare) hfree (hcurrent.started i c _ hi)

/-! ## No effect is lost -/

/-- The call retires the tool. -/
def Retires (toolId : String) (c : Call) : Prop :=
  ∃ actorId correlationId, c = .retire toolId actorId correlationId

/-- The call turns the kill switch of the tool on. -/
def Kills (toolId : String) (c : Call) : Prop :=
  ∃ actorId reason correlationId, c = .activateKillSwitch toolId actorId reason correlationId

/-- The call turns it off. -/
def Clears (toolId : String) (c : Call) : Prop :=
  ∃ actorId reason correlationId, c = .clearKillSwitch toolId actorId reason correlationId

/-- A call that clears the kill switch starts and returns within the segments. -/
def ClearedIn (toolId : String) (tr : List LifecycleLabel) : Prop :=
  ∃ l ∈ tr, ∃ l' ∈ tr, Clears toolId l.call ∧ l.input = .start ∧ l'.thread = l.thread ∧ Returns l'

/-- The registration of a tool whose retirement has returned. -/
def KeepsRetired (toolId : String)
    (w : World Call ToolRegistry Question Answer LifecycleError ToolRegistration) : Prop :=
  (∃ l ∈ w.trace, Retires toolId l.call ∧ Returns l) →
    ∃ registration, w.shared.get toolId = some registration ∧ Retired registration

/-- The kill flag after a kill switch has been activated. -/
def KeepsKilled (toolId : String)
    (w : World Call ToolRegistry Question Answer LifecycleError ToolRegistration) : Prop :=
  ∀ pre l post, w.trace = pre ++ l :: post → Kills toolId l.call → Returns l →
    (∃ registration, w.shared.get toolId = some registration ∧
      registration.killSwitchActive = true) ∨ ClearedIn toolId post

/-- Only a clearance takes the kill flag away. -/
theorem Makes.stays_killed {c : Call} {current updated : ToolRegistration}
    (h : Makes c (some current) updated) (hkill : current.killSwitchActive = true) :
    updated.killSwitchActive = true ∨ Clears c.toolId c := by
  cases h with
  | approved => exact .inl hkill
  | activated => exact .inl hkill
  | suspended => exact .inl hkill
  | retired => exact .inl hkill
  | killed => exact .inl rfl
  | cleared => exact .inr ⟨_, _, _, rfl⟩

/-- A retired tool stays retired. -/
theorem KeepsRetired.advance {toolId : String} {t : Lifecycles}
    {w : World Call ToolRegistry Question Answer LifecycleError ToolRegistration}
    (h : KeepsRetired toolId t.toWorld) (hw : Advance t w) : KeepsRetired toolId w := by
  cases hw with
  | idle => exact h
  | silent hsilent =>
      rintro ⟨l', hl', hretires, hreturns⟩
      rcases List.mem_append.1 hl' with hl' | hl'
      · exact h ⟨l', hl', hretires, hreturns⟩
      · rw [List.mem_singleton] at hl'
        subst hl'
        exact absurd hreturns hsilent
  | @stored l updated hreturns hmakes hfree hstarted =>
      rintro ⟨l', hl', hretires, hreturns'⟩
      by_cases htool : toolId = l.call.toolId
      · subst htool
        refine ⟨updated, ToolRegistry.get_put_self .., ?_⟩
        rcases List.mem_append.1 hl' with hl' | hl'
        · obtain ⟨current, hcurrent, hretired⟩ := h ⟨l', hl', hretires, hreturns'⟩
          rw [hcurrent] at hmakes
          -- it was retired before: no call takes that back
          exact hmakes.stays_retired hretired
        · rw [List.mem_singleton] at hl'
          subst hl'
          obtain ⟨actorId, correlationId, hcall⟩ := hretires
          rw [hcall] at hmakes
          generalize t.shared.get _ = found at hmakes
          cases hmakes with
          | retired hstate => exact ⟨rfl, rfl⟩
      · rw [World.push_shared, ToolRegistry.get_put_of_ne _ htool]
        rcases List.mem_append.1 hl' with hl' | hl'
        · exact h ⟨l', hl', hretires, hreturns'⟩
        · rw [List.mem_singleton] at hl'
          subst hl'
          obtain ⟨actorId, correlationId, hcall⟩ := hretires
          rw [hcall] at htool
          -- a call that retires the tool stores under its id
          exact absurd rfl htool

/-- A switch that was cleared has been cleared. -/
theorem ClearedIn.append {toolId : String} {tr : List LifecycleLabel} (h : ClearedIn toolId tr)
    (l : LifecycleLabel) : ClearedIn toolId (tr ++ [l]) := by
  obtain ⟨l₁, h₁, l₂, h₂, hclears⟩ := h
  exact ⟨l₁, List.mem_append_left _ h₁, l₂, List.mem_append_left _ h₂, hclears⟩

/-- A switch stays on until a call clears it. -/
theorem KeepsKilled.advance {toolId : String} {t : Lifecycles}
    {w : World Call ToolRegistry Question Answer LifecycleError ToolRegistration}
    (h : KeepsKilled toolId t.toWorld) (hw : Advance t w) : KeepsKilled toolId w := by
  cases hw with
  | idle => exact h
  | silent hsilent =>
      intro pre l' post htrace hkills hreturns
      rcases snoc_split_post htrace with ⟨-, rfl⟩ | ⟨post', htrace', rfl⟩
      · exact absurd hreturns hsilent
      · rcases h pre l' post' htrace' hkills hreturns with hkilled | hcleared
        · exact .inl hkilled
        · exact .inr (hcleared.append _)
  | @stored l updated hreturns hmakes hfree hstarted =>
      intro pre l' post htrace hkills hreturns'
      rcases snoc_split_post htrace with ⟨-, rfl⟩ | ⟨post', htrace', rfl⟩
      · -- the kill switch itself
        obtain ⟨actorId, reason, correlationId, hcall⟩ := hkills
        rw [World.push_shared, hcall]
        refine .inl ⟨updated, ToolRegistry.get_put_self .., ?_⟩
        rw [hcall] at hmakes
        generalize t.shared.get _ = found at hmakes
        cases hmakes with
        | killed hstate hreason => rfl
      · rw [World.push_shared]
        rcases h pre l' post' htrace' hkills hreturns' with hkilled | hcleared
        · obtain ⟨current, hcurrent, hflag⟩ := hkilled
          by_cases htool : toolId = l.call.toolId
          · rw [htool] at hcurrent hkills ⊢
            rw [ToolRegistry.get_put_self]
            rw [hcurrent] at hmakes
            rcases hmakes.stays_killed hflag with hstill | hclears
            · exact .inl ⟨updated, rfl, hstill⟩
            · -- the clearance has not been overtaken by the kill switch
              obtain ⟨l₀, hl₀, hthread, hcall, hstart⟩ := hstarted
              have hkilltool : l'.call.toolId = l.call.toolId := by
                obtain ⟨actorId, reason, correlationId, hcall'⟩ := hkills
                rw [hcall']
                rfl
              have hlater : l₀ ∈ post' := by
                rw [htrace', List.append_cons, List.mem_append] at hl₀
                rcases hl₀ with hl₀ | hl₀
                · refine absurd ⟨l', ?_, hkilltool, hreturns'⟩ hfree
                  rw [htrace']
                  exact mem_since ⟨l₀, hl₀, hthread⟩
                · exact hl₀
              exact .inr ⟨l₀, List.mem_append_left _ hlater, l, by simp, by rwa [hcall], hstart,
                hthread.symm, hreturns⟩
          · rw [ToolRegistry.get_put_of_ne _ htool]
            exact .inl ⟨current, hcurrent, hflag⟩
        · exact .inr (hcleared.append l)

/-! ## Every run -/

/-- The system after the steps `xs`, from the registry `r`. -/
def lifecycles (audit : Bool) (r : ToolRegistry) (xs : List (Step Call Question Answer)) :
    Lifecycles :=
  run (Call.prog audit) (init r) xs

/-- No effect of a call that has returned is lost along `xs`. -/
structure Lasting (audit : Bool) (r : ToolRegistry) (xs : List (Step Call Question Answer)) :
    Prop where
  /-- A tool stays retired, and the executor lets no call of it pass. -/
  retired : ∀ toolId, ∀ l ∈ (lifecycles audit r xs).trace, Retires toolId l.call → Returns l →
    (∃ registration, (lifecycles audit r xs).shared.get toolId = some registration ∧
      Retired registration) ∧
    ∀ (x : ToolExecutor) (s : ToolState) (c : ToolCall) (registration : ToolRegistration),
      s.registry = (lifecycles audit r xs).shared → c.request.toolId = toolId →
        c.verdict x s ≠ .ok registration
  /-- The kill flag stays, unless a clearance has been started and has returned since. -/
  killed : ∀ toolId pre l post, (lifecycles audit r xs).trace = pre ++ l :: post →
    Kills toolId l.call → Returns l →
    (∃ registration, (lifecycles audit r xs).shared.get toolId = some registration ∧
      registration.killSwitchActive = true) ∨ ClearedIn toolId post
  /-- A registration is stored where there is none. -/
  registered : ∀ pre x post, xs = pre ++ x :: post → ∀ f registration actorId correlationId,
    fire (Call.prog audit) (lifecycles audit r pre) x = some f → Returns f.label →
    f.call = .registerDraft registration actorId correlationId →
    (lifecycles audit r pre).shared.get registration.toolId = none

/-- All this holds after any run. -/
theorem lifecycles_current {audit : Bool} (r : ToolRegistry) (xs : List (Step Call Question Answer)) :
    (staging audit).Staged (Current audit) (lifecycles audit r xs) :=
  (current_keeps audit).run_inv (follows audit) (current_init audit r) xs fun _ _ _ _ => trivial

/-- What every step keeps that meets `Fresh`. -/
theorem advances {audit : Bool} {r : ToolRegistry}
    {P : World Call ToolRegistry Question Answer LifecycleError ToolRegistration → Prop}
    (hinit : P ⟨r, []⟩) (hP : ∀ (t : Lifecycles) w, P t.toWorld → Advance t w → P w)
    {xs : List (Step Call Question Answer)}
    (h : Along (Call.prog audit) Fresh (init r) xs) : P (lifecycles audit r xs).toWorld := by
  induction xs using List.reverseRecOn with
  | nil => exact hinit
  | append_singleton xs x ih =>
      rw [lifecycles, run_snoc]
      exact hP _ _ (ih h.of_append) (advance (lifecycles_current r xs) h.last)

/-- As long as no call stores that has been overtaken, nothing is lost. -/
theorem lasting_of_fresh (audit : Bool) (r : ToolRegistry) (xs : List (Step Call Question Answer))
    (h : Along (Call.prog audit) Fresh (init r) xs) : Lasting audit r xs where
  retired := by
    intro toolId l hl hretires hreturns
    have hkeeps : KeepsRetired toolId (lifecycles audit r xs).toWorld :=
      advances (by rintro ⟨l, hl, -⟩; cases hl) (fun _ _ => KeepsRetired.advance) h
    obtain ⟨registration, hget, hretired⟩ := hkeeps ⟨l, hl, hretires, hreturns⟩
    refine ⟨⟨registration, hget, hretired⟩, ?_⟩
    intro x s c passed hs hc hverdict
    obtain ⟨p, hgates⟩ := gates_of_verdict hverdict
    have hregistered := hgates.registered
    rw [hs, hc, hget] at hregistered
    cases hregistered
    -- a retired tool is not allowlisted
    have hallowlisted := hgates.allowlisted
    rw [hretired.2] at hallowlisted
    cases hallowlisted
  killed := by
    intro toolId
    exact advances (P := KeepsKilled toolId) (by intro pre l post htrace; simp at htrace)
      (fun _ _ => KeepsKilled.advance) h
  registered := by
    rintro pre x post rfl f registration actorId correlationId hfire hreturns hcall
    have hfresh := h pre x post rfl
    have hadvance := advance (lifecycles_current r pre) hfresh
    rw [next, hfire] at hadvance
    generalize hw : ((lifecycles audit r pre).land f).toWorld = w at hadvance
    have htrace : w.trace = (lifecycles audit r pre).trace ++ [f.label] := by
      rw [← hw]
      rfl
    cases hadvance with
    | idle => simp at htrace
    | silent hsilent =>
        rw [World.push_trace, List.append_cancel_left_eq, List.cons.injEq] at htrace
        rw [htrace.1] at hsilent
        -- a call that returns has stored
        exact absurd hreturns hsilent
    | stored hreturns' hmakes hfree hstarted =>
        rw [World.push_trace, List.append_cancel_left_eq, List.cons.injEq] at htrace
        rw [htrace.1] at hmakes
        have hlabel : f.label.call = .registerDraft registration actorId correlationId := hcall
        rw [hlabel] at hmakes
        generalize hfound : (lifecycles audit r pre).shared.get _ = found at hmakes
        cases hmakes with
        | drafted hstate howner => exact hfound

/-! ## An activation that overlaps a retirement -/

def drafted : ToolRegistration where
  toolId := "tool.report"
  requiredPermission := "permission.report"
  requiredScopes := {"scope.report"}
  adapter := ⟨fun _ => none⟩
  lifecycleState := .draft
  ownerActorId := some "actor_maker"
  tenantId := some "tenant"
  organizationId := some "organization"
  workspaceId := some "workspace"

/-- A sink that takes every event. -/
def appended : (q : Question) → Answer q
  | .append _ => .returned

/-- Registered and approved; then an activation starts before a retirement, and
returns after it. -/
def overlapping : List (Step Call Question Answer) :=
  [.call 0 (.registerDraft drafted "actor_maker" "corr"), .resume 0 appended,
    .call 1 (.approve "tool.report" "actor_checker" "corr"), .resume 1 appended,
    .call 2 (.activate "tool.report" "actor_release" "corr"),
    .call 3 (.retire "tool.report" "actor_owner" "corr"),
    .resume 3 appended, .resume 2 appended]

/-- The tool is active and allowlisted again after its retirement has returned. -/
theorem retired_and_active : ¬ Lasting true ⟨fun _ => none⟩ overlapping := by
  intro h
  have hretired : ∃ l ∈ (lifecycles true ⟨fun _ => none⟩ overlapping).trace,
      Retires "tool.report" l.call ∧ Returns l :=
    ⟨_, List.mem_cons_of_mem _ (List.mem_cons_of_mem _ (List.mem_cons_of_mem _
      (List.mem_cons_of_mem _ (List.mem_cons_of_mem _ (List.mem_cons_of_mem _
        List.mem_cons_self))))), ⟨_, _, rfl⟩, trivial⟩
  obtain ⟨l, hl, hretires, hreturns⟩ := hretired
  obtain ⟨⟨registration, hget, hretired⟩, -⟩ := h.retired "tool.report" l hl hretires hreturns
  have hactive : ((lifecycles true ⟨fun _ => none⟩ overlapping).shared.get "tool.report").map
      (fun registration => (registration.lifecycleState, registration.allowlisted)) =
        some (.active, true) := by
    decide +kernel
  rw [hget] at hactive
  simp [hretired.1] at hactive

/-- What the sink answers when it stores no event. -/
def refused : (q : Question) → Answer q
  | .append _ => .raised

/-- The same overlap, but the append of the activation raises, so that it does not store
over the retirement. -/
def unsettled : List (Step Call Question Answer) :=
  [.call 0 (.registerDraft drafted "actor_maker" "corr"), .resume 0 appended,
    .call 1 (.approve "tool.report" "actor_checker" "corr"), .resume 1 appended,
    .call 2 (.activate "tool.report" "actor_release" "corr"),
    .call 3 (.retire "tool.report" "actor_owner" "corr"),
    .resume 3 appended, .resume 2 refused]

/-- The retirement lasts, since the activation that it has overtaken is not stored. -/
theorem lasting_of_fresh_unsettled : Lasting true ⟨fun _ => none⟩ unsettled :=
  lasting_of_fresh true ⟨fun _ => none⟩ unsettled (by decide +kernel)

end Alos.Tools.Lifecycle
