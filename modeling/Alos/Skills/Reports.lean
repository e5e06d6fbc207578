import Alos.Skills.Frame

/-! # What an assignment reports

`assign` reports its draft in DRAFT whatever `register` has found, and two appends
after it was found.

* `Truthful` says of a run that every assignment that returns answers with a version
  that is in DRAFT then;
* `Careful` is the condition on the steps after the start of an assignment;
* `Turn.kept` and `Turn.inDraft`: what its own turns do, and those of others;
* `pending_keeps` carries them along a run, and `reports_truthful` is the result;
* `reported_active`: a version that is released is assigned again.
-/

namespace Alos.Skills

open Coop Py Registry Agents

section Reports

variable {κ : Type} [DecidableEq κ]

/-! ## Versions in DRAFT -/

def InDraft (s : Memory Subject κ) (key : RegistryKey) : Prop :=
  ∃ entry, (s.entries .agent).get? key = some entry ∧ entry.state = .draft

/-- Whenever an assignment returns, the version that it answers with is in DRAFT. -/
def Truthful (x : SkillAssignmentService κ) (xs : List RequestStep) : Prop :=
  ∀ pre step post, xs = pre ++ step :: post →
    ∀ f, fire (Request.prog x) (requested x pre) step = some f →
      ∀ a now response, f.call = .assign a now →
        f.landing.2.stop = .returned (.assigned response) →
          InDraft f.landing.1 (draftKey a response.draftAgentVersion)

/-! ## Careful runs -/

/-- The entry that an assignment registers if there is none yet. -/
def draftEntry (x : SkillAssignmentService κ) (a : Assignment) (now : Datetime)
    (s : Memory Subject κ) : Option RegistryEntry :=
  match draftPayload x a (s.entries .agent) (s.entries .skill) with
  | .error _ => none
  | .ok payload => (preparedDraft x a payload now).toOption

/-- The call is a transition of the version of an agent. -/
def Transits (key : RegistryKey) : Call Subject → Prop
  | .approve .agent key' .. | .activate .agent key' .. | .suspend .agent key' .. => key' = key
  | _ => False

/-- With this answer the call puts its transition of the version into the dict. -/
def Overwrites (key : RegistryKey) (c : Call Subject) :
    Exchange (Registry.Question Subject) Registry.Answer → Prop
  | ⟨.save, answer⟩ => answer = Registry.Stored.returned ∧ Transits key c
  | ⟨.close, _⟩ => Transits key c
  | _ => False

/-- The thread hydrates the agents, and has loaded these rows. -/
def Reloading (x : SkillAssignmentService κ) (loaded : List RegistryEntry)
    (th : Thread Request (Memory Subject κ) (Registry.Question Subject) Registry.Answer
      AssignmentError Reply) : Prop :=
  th.call = .call (.hydrate .agent) ∧
    th.now = (AssignmentStage.calling (.reloading loaded)).now x (.call (.hydrate .agent))

/-- A step after the start of the assignment `j`, which has prepared `draft`. When it
is handed the lock, a version that is there with the content of its draft is in
DRAFT; and while it awaits an append, that version is not overwritten, nor replaced by
rows in which it is not in DRAFT. -/
structure Careful (x : SkillAssignmentService κ) (j : ℕ) (draft : Option RegistryEntry)
    (t : RequestSys κ) (step : RequestStep) : Prop where
  registers : ∀ entry ∈ draft, ∀ reply, step = .resume j reply →
    ∀ own ∈ t.threads j, own.now.stop = .awaiting (.acquire .agent) →
      ∀ existing, (t.shared.entries .agent).get? entry.key = some existing →
        existing.digest = entry.digest → existing.state = .draft
  waits : ∀ entry ∈ draft, ∀ own ∈ t.threads j, ∀ event, own.now.stop = .awaiting (.append event) →
    ∀ i reply, step = .resume i reply → ∀ th ∈ t.threads i, ∀ c q, th.call = .call c →
      th.now.stop = .awaiting q → ¬ Overwrites entry.key c ⟨q, reply q⟩
  reloads : ∀ entry ∈ draft, ∀ own ∈ t.threads j, ∀ event, own.now.stop = .awaiting (.append event) →
    ∀ i reply, step = .resume i reply → ∀ th ∈ t.threads i, ∀ loaded, Reloading x loaded th →
      InDraft (t.shared.setEntries .agent (.ofList loaded)) entry.key

/-- The steps after the start of every assignment are careful. -/
def CarefulRun (x : SkillAssignmentService κ) (xs : List RequestStep) : Prop :=
  ∀ pre j a now rest, xs = pre ++ .call j (.assign a now) :: rest →
    (requested x pre).threads j = none →
      Along (Request.prog x) (Careful x j (draftEntry x a now (requested x pre).shared))
        (requested x (pre ++ [.call j (.assign a now)])) rest

/-! ## The turns of the assignment -/

/-- What the registration of `entry` has come to. -/
def Stage.Registers (entry : RegistryEntry) (s : Memory Subject κ) : Registry.Stage → Prop
  | .waiting u => u.key = entry.key ∧ u.decide = decideRegister entry
  | .saving _ e | .selecting _ e | .committing _ e _ | .closing _ e => e = entry
  | .recording _ e | .recorded _ e | .returned (some e) => e.key = entry.key ∧ InDraft s entry.key
  | .returned none | .raised _ => True
  | .loading | .reloading _ => False

/-- What an assignment has come to that has prepared `draft`. -/
def AssignmentStage.Kept (draft : Option RegistryEntry) (s : Memory Subject κ) :
    AssignmentStage → Prop
  | .calling _ => False
  | .rejecting .. | .raised _ => True
  | .registering st => ∃ entry ∈ draft, Stage.Registers entry s st
  | .recording e => ∃ entry ∈ draft, e.key = entry.key ∧ InDraft s entry.key
  | .replied (.assigned response) =>
      ∃ entry ∈ draft, response.draftAgentVersion = entry.version ∧ InDraft s entry.key
  | .replied (.found _) => False

variable {x : SkillAssignmentService κ} {a : Assignment} {now : Datetime}
  {s s' : Memory Subject κ} {entry : RegistryEntry} {draft : Option RegistryEntry}

omit [DecidableEq κ] in
theorem inDraft_putEntry (h : entry.state = .draft) :
    InDraft (s.putEntry .agent entry) entry.key :=
  ⟨entry, by rw [Memory.putEntry_entries, Function.update_self, Table.get?_put_self], h⟩

omit [DecidableEq κ] in
theorem prepared_draft_state {payload : Json.Fields}
    (h : preparedDraft x a payload now = .ok entry) : entry.state = .draft := by
  rcases prepare_ok h with ⟨subjectId, version, rfl⟩
  rfl

omit [DecidableEq κ] in
theorem mem_draftEntry (h : entry ∈ draftEntry x a now s) :
    ∃ payload, draftPayload x a (s.entries .agent) (s.entries .skill) = .ok payload ∧
      preparedDraft x a payload now = .ok entry := by
  unfold draftEntry at h
  -- there is a draft when the checks pass and the payload can be registered
  cases hpayload : draftPayload x a (s.entries .agent) (s.entries .skill) with
  | error e =>
      rw [hpayload] at h
      cases h
  | ok payload =>
      rw [hpayload] at h
      refine ⟨payload, rfl, ?_⟩
      cases hprepare : preparedDraft x a payload now with
      | error e =>
          simp only [hprepare] at h
          cases h
      | ok prepared =>
          simp only [hprepare] at h
          cases h
          rfl

/-- A turn of the registration of a draft. -/
theorem Stage.Registers.turn {st st' : Registry.Stage}
    {y : Exchange (Registry.Question Subject) Registry.Answer} (hdraft : entry.state = .draft)
    (hturn : Registry.Turn x.registries .agent s st y s' st') (hst : Stage.Registers entry s st)
    (hfound : y = ⟨.acquire .agent, ()⟩ → ∀ existing,
      (s.entries .agent).get? entry.key = some existing → existing.digest = entry.digest →
        existing.state = .draft) : Stage.Registers entry s' st' := by
  cases hturn with
  | stopped => trivial
  | found hdecide =>
      rcases hst with ⟨hkey, hdecides⟩
      rw [hkey, hdecides] at hdecide
      -- the version that was found is the one of the key
      rcases decideRegister_found hdecide with ⟨hexisting, hdigest⟩
      exact ⟨Table.key_of_get? hexisting, _, hexisting, hfound rfl _ hexisting hdigest⟩
  | stores hdecide =>
      rcases hst with ⟨hkey, hdecides⟩
      rw [hkey, hdecides] at hdecide
      rcases decideRegister_stored hdecide with ⟨-, rfl⟩
      unfold entering
      split
      · exact rfl
      · exact rfl
  | failed => trivial
  | saved =>
      cases hst
      exact ⟨rfl, inDraft_putEntry (s := s.putRow (x.registries.registry .agent).store entry) hdraft⟩
  | selected => exact hst
  | inserted => exact hst
  | updated => exact hst
  | closed =>
      cases hst
      exact ⟨rfl, inDraft_putEntry hdraft⟩
  | recorded => exact hst
  | unrecorded => trivial
  | unloaded => exact hst.elim
  | loaded => exact hst.elim
  | reloaded => exact hst.elim

omit [DecidableEq κ] in
theorem after_kept {st : Registry.Stage} (hentry : entry ∈ draft)
    (h : Stage.Registers entry s st) : (after x a st).Kept draft s := by
  -- what the registration gives back is the draft while it is in DRAFT
  have hover : ∀ e : RegistryEntry, e.key = entry.key ∧ InDraft s entry.key →
      (if x.audited then AssignmentStage.recording e
        else .replied (.assigned (respond a e))).Kept draft s := by
    intro e he
    split
    · exact ⟨entry, hentry, he⟩
    · exact ⟨entry, hentry, congrArg RegistryKey.version he.1, he.2⟩
  cases st with
  | recorded u e => exact hover e h
  | returned found =>
      cases found with
      | none => trivial
      | some e => exact hover e h
  | raised e => trivial
  | _ => exact ⟨entry, hentry, h⟩

omit [DecidableEq κ] in
/-- The first segment of an assignment. -/
theorem Begins.kept {st : AssignmentStage} (h : Begins x s (.assign a now) s' st) :
    s' = s ∧ st.Kept (draftEntry x a now s) s := by
  cases h with
  | rejects => exact ⟨rfl, trivial⟩
  | stops => exact ⟨rfl, trivial⟩
  | @registers a now payload s' st hpayload hst =>
      refine ⟨hst.moving.1, ?_⟩
      cases hst with
      | refused => trivial
      | loads hupdate => cases hupdate
      | opened hupdate =>
          -- the registration is of the draft
          cases Call.opens hupdate with
          | @register _ _ _ _ _ _ _ _ entry hprepare =>
              have hdraft : draftEntry x a now s = some entry := by
                unfold draftEntry preparedDraft
                rw [hpayload]
                simp only [hprepare]
                rfl
              exact ⟨entry, hdraft, rfl, rfl⟩

/-- A turn of the assignment. -/
theorem Turn.kept {st st' : AssignmentStage}
    {y : Exchange (Registry.Question Subject) Registry.Answer}
    (hdraft : ∀ entry ∈ draft, entry.state = .draft)
    (hturn : Turn x s (.assign a now) st y s' st') (hst : st.Kept draft s)
    (hfound : ∀ entry ∈ draft, y = ⟨.acquire .agent, ()⟩ → ∀ existing,
      (s.entries .agent).get? entry.key = some existing → existing.digest = entry.digest →
        existing.state = .draft) : st'.Kept draft s' := by
  cases hturn with
  | registered hturn =>
      rcases hst with ⟨entry, hentry, hst⟩
      exact after_kept hentry (hst.turn (hdraft entry hentry) hturn (hfound entry hentry))
  | rejected => trivial
  | drafted =>
      rcases hst with ⟨entry, hentry, hkey, hin⟩
      exact ⟨entry, hentry, congrArg RegistryKey.version hkey, hin⟩
  | unrecorded => trivial

/-! ## The turns of others -/

omit [DecidableEq κ] in
/-- A move of an agent is a registration, or a transition of the version. -/
theorem transits_of_moves {c : Call Subject} {found : Option RegistryEntry}
    (h : Moves x.registries c found entry) (hc : c.registry = .agent) :
    entry.state = .draft ∨ Transits entry.key c := by
  cases h with
  | registered hprepare =>
      rcases prepare_ok hprepare with ⟨subjectId, version, rfl⟩
      exact .inl rfl
  | approved hkey =>
      cases hc
      exact .inr hkey.symm
  | activated hkey =>
      cases hc
      exact .inr hkey.symm
  | suspended hkey =>
      cases hc
      exact .inr hkey.symm

omit [DecidableEq κ] in
theorem InDraft.putEntry {i : Subject} {key : RegistryKey} (h : InDraft s key)
    (hentry : i = .agent → entry.key = key → entry.state = .draft) :
    InDraft (s.putEntry i entry) key := by
  rcases h with ⟨found, hfound, hstate⟩
  by_cases hi : i = .agent
  · subst hi
    by_cases hkey : entry.key = key
    · subst hkey
      exact inDraft_putEntry (hentry rfl rfl)
    · refine ⟨found, ?_, hstate⟩
      rw [Memory.putEntry_entries, Function.update_self, Table.get?_put_of_ne _ hkey, hfound]
  · refine ⟨found, ?_, hstate⟩
    rw [Memory.putEntry_entries, Function.update_of_ne (Ne.symm hi), hfound]

/-- A version stays in DRAFT that is not overwritten. -/
theorem inDraft_turn {c : Call Subject} {st st' : Registry.Stage} {key : RegistryKey}
    {y : Exchange (Registry.Question Subject) Registry.Answer}
    (hturn : Registry.Turn x.registries c.registry s st y s' st')
    (hst : st.Moving x.registries c) (h : InDraft s key) (hfree : ¬ Overwrites key c y)
    (hreload : c = .hydrate .agent → ∀ loaded, st = .reloading loaded →
      InDraft (s.setEntries .agent (.ofList loaded)) key) : InDraft s' key := by
  -- only a transition of the version itself takes it out of DRAFT
  have hput : ∀ entry : RegistryEntry, (∃ found, Moves x.registries c found entry) →
      (Transits key c → False) → InDraft (s.putEntry c.registry entry) key := by
    rintro entry ⟨found, hmoves⟩ htransits
    apply h.putEntry
    rintro hc rfl
    exact (transits_of_moves hmoves hc).resolve_right htransits
  cases hturn with
  | saved => exact hput _ hst fun htransits => hfree ⟨rfl, htransits⟩
  | closed => exact hput _ hst hfree
  | reloaded =>
      have hc : c = .hydrate c.registry := Call.hydrate_of_update? hst
      generalize c.registry = i at hc
      subst hc
      by_cases hi : i = .agent
      · subst hi
        exact hreload rfl _ rfl
      · rcases h with ⟨found, hfound, hstate⟩
        refine ⟨found, ?_, hstate⟩
        rw [Memory.setLocked_entries, Memory.setEntries_entries,
          Function.update_of_ne (Ne.symm hi), hfound]
  | _ => exact h

/-- A registration overwrites no version. -/
theorem not_overwrites_draftCall {key : RegistryKey} {payload : Json.Fields}
    (y : Exchange (Registry.Question Subject) Registry.Answer) :
    ¬ Overwrites key (draftCall a payload now) y := by
  rcases y with ⟨q, answer⟩
  cases q with
  | save => exact fun h => h.2
  | close => exact id
  | _ => exact id

/-- A turn of another request. -/
theorem Turn.inDraft {r : Request} {st st' : AssignmentStage} {key : RegistryKey}
    {y : Exchange (Registry.Question Subject) Registry.Answer} (hturn : Turn x s r st y s' st')
    (hst : st.Within (Stage.Moving x.registries) r) (h : InDraft s key)
    (hfree : ∀ c, r = .call c → ¬ Overwrites key c y)
    (hreload : r = .call (.hydrate .agent) → ∀ loaded, st = .calling (.reloading loaded) →
      InDraft (s.setEntries .agent (.ofList loaded)) key) : InDraft s' key := by
  -- a turn of a registry call, or of an assignment, which transits nothing
  cases hturn with
  | called hturn =>
      apply inDraft_turn hturn hst h (hfree _ rfl)
      rintro rfl loaded rfl
      exact hreload rfl loaded rfl
  | @registered a now st y s' st' hturn =>
      rcases hst with ⟨payload, hst⟩
      apply inDraft_turn (c := draftCall a payload now) hturn hst h (not_overwrites_draftCall y)
      rintro ⟨⟩
  | rejected => exact h
  | drafted => exact h
  | unrecorded => exact h

/-- While an assignment is suspended, it needs its draft only if it awaits an append. -/
theorem AssignmentStage.Kept.frame {st : AssignmentStage} {q : Registry.Question Subject}
    {k : Registry.Answer q → AssignmentOp κ Reply} (h : st.Kept draft s)
    (hnow : st.now x (.assign a now) = .awaiting q k)
    (hframe : ∀ event, q = .append event → ∀ entry ∈ draft,
      InDraft s entry.key → InDraft s' entry.key) : st.Kept draft s' := by
  -- another request moves, so only the cache can change
  cases st with
  | registering st =>
      rcases h with ⟨entry, hentry, hst⟩
      refine ⟨entry, hentry, ?_⟩
      cases st with
      | recording u e =>
          cases hnow
          exact ⟨hst.1, hframe _ rfl entry hentry hst.2⟩
      | recorded u e => cases hnow
      | returned found => cases hnow
      | _ => exact hst
  | recording e =>
      rcases h with ⟨entry, hentry, hkey, hin⟩
      cases hnow
      exact ⟨entry, hentry, hkey, hframe _ rfl entry hentry hin⟩
  | replied reply => cases hnow
  | calling st => cases hnow
  | rejecting => trivial
  | raised e => trivial

/-! ## Along a run -/

/-- The assignment `j` of a run, while it is suspended. -/
structure Pending (x : SkillAssignmentService κ) (j : ℕ) (a : Assignment) (now : Datetime)
    (draft : Option RegistryEntry) (w : RequestWorld κ) (pool : RequestPool) : Prop extends
    Held (fun _ => True) (Stage.Moving x.registries) w pool where
  own : ∃ st, pool j = some (.assign a now, st) ∧
    ∀ q k, st.now x (.assign a now) = .awaiting q k → st.Kept draft w.shared

theorem moving_inductive : Inductive x (fun _ => True) (Stage.Moving x.registries) :=
  ⟨fun h => h.moving, fun h _ hst => ⟨trivial, h.moving hst⟩⟩

/-- What a careful answer lets the assignment do. -/
theorem Careful.turn {j : ℕ} {t : RequestSys κ} {pool : RequestPool} {st st' : AssignmentStage}
    {q : Registry.Question Subject} {k : Registry.Answer q → AssignmentOp κ Reply}
    {reply : (q : Registry.Question Subject) → Registry.Answer q}
    (hcareful : Careful x j draft t (.resume j reply)) (hpool : (staging x).Describes t pool)
    (hdraft : ∀ entry ∈ draft, entry.state = .draft) (hj : pool j = some (.assign a now, st))
    (hnow : st.now x (.assign a now) = .awaiting q k)
    (hturn : Turn x t.shared (.assign a now) st ⟨q, reply q⟩ s' st')
    (hst : st.Kept draft t.shared) : st'.Kept draft s' := by
  refine hturn.kept hdraft hst ?_
  intro entry hentry hanswer
  apply hcareful.registers entry hentry reply rfl _ (hpool.thread_some hj)
  change (st.now x (.assign a now)).stop = _
  rw [hnow]
  exact congrArg (fun y => Stop.awaiting (Sigma.fst y)) hanswer

theorem pending_keeps {j : ℕ} (hdraft : ∀ entry ∈ draft, entry.state = .draft) :
    (staging x).Keeps (Careful x j draft) (Pending x j a now draft) where
  start := by
    intro t pool i r s' st hpool hpending hcareful hi hbegins
    have hheld := moving_inductive.keeps.start t pool i r s' st hpool hpending.toHeld hcareful hi
      hbegins
    rcases moving_inductive.within_begins hbegins with ⟨rfl, -⟩
    rcases hpending.own with ⟨own, hown, hkept⟩
    refine ⟨hheld, own, ?_, hkept⟩
    have hne : j ≠ i := by
      rintro rfl
      rw [hi] at hown
      cases hown
    rw [Pool.put_of_ne _ hne, hown]
  turn := by
    intro t pool i reply r st q k answer s' st' hpool hpending hcareful hi hnow hreply hturn
    have hheld := moving_inductive.keeps.turn t pool i reply r st q k answer s' st' hpool
      hpending.toHeld hcareful hi hnow hreply hturn
    subst hreply
    rcases hpending.own with ⟨own, hown, hkept⟩
    -- the assignment that is pending moves, or another request does
    by_cases hj : j = i
    · subst hj
      rw [hi] at hown
      cases hown
      exact ⟨hheld, st', Pool.put_self .., fun _ _ _ =>
        hcareful.turn hpool hdraft hi hnow hturn (hkept q k hnow)⟩
    · refine ⟨hheld, own, (Pool.put_of_ne _ hj ..).trans hown, ?_⟩
      intro q' k' hawaits
      apply (hkept q' k' hawaits).frame hawaits
      rintro event rfl entry hentry hin
      have hstop := congrArg Yield.stop hawaits
      apply hturn.inDraft (hpending.stages i r st hi) hin
      · rintro c rfl
        exact hcareful.waits entry hentry _ (hpool.thread_some hown) event hstop i reply rfl _
          (hpool.thread_some hi) c q rfl (congrArg Yield.stop hnow)
      · rintro rfl loaded rfl
        exact hcareful.reloads entry hentry _ (hpool.thread_some hown) event hstop i reply rfl _
          (hpool.thread_some hi) loaded ⟨rfl, rfl⟩

/-- Where an assignment stands after its first segment. -/
theorem pending_start {pre : List RequestStep} {j : ℕ}
    (hnone : (requested x pre).threads j = none) :
    (staging x).Staged
      (Pending x j a now (draftEntry x a now (requested x pre).shared))
      (requested x (pre ++ [.call j (.assign a now)])) := by
  rcases moving_inductive (x := x).requested trivial pre with ⟨pool, hpool, hheld⟩
  obtain ⟨s', st, hbegins, hadvance⟩ :=
    (staging_follows x).begins (.assign a now) (requested x pre).shared
  rcases Begins.kept hbegins with ⟨rfl, hkept⟩
  -- the first step of the assignment, which writes nothing
  have hnext : requested x (pre ++ [.call j (.assign a now)]) =
      (requested x pre).land ⟨j, .assign a now, .start,
        (Request.prog x (.assign a now)).advance (requested x pre).shared⟩ := by
    rw [requested, run_snoc, ← requested, next, fire_call_eq_some.2 ⟨hnone, rfl⟩]
  refine ⟨pool.put j (.assign a now) st, ?_, ?_, st, Pool.put_self .., ?_⟩
  · rw [hnext]
    exact hpool.land hadvance
  · rw [hnext, Staging.land_toWorld hadvance]
    exact (moving_inductive.keeps (G := fun _ _ => True)).start _ pool j _ _ st hpool hheld trivial
      (hpool.thread_none.1 hnone) hbegins
  · rw [hnext, Staging.land_toWorld hadvance]
    exact fun _ _ _ => hkept

/-- Only the end of an assignment returns. -/
theorem returned_stage {st : AssignmentStage} {reply : Reply}
    (h : (st.now x (.assign a now)).stop = .returned reply) : st = .replied reply := by
  cases st with
  | replied reply' =>
      cases h
      rfl
  | registering st => cases st <;> cases h
  | _ => cases h

/-- Where an assignment of a careful run stands after any of its segments. -/
theorem landed_kept {pre : List RequestStep} {step : RequestStep} {post : List RequestStep}
    (hcareful : CarefulRun x (pre ++ step :: post))
    {f : Firing Request (Memory Subject κ) (Registry.Question Subject) Registry.Answer
      AssignmentError Reply}
    (hfire : fire (Request.prog x) (requested x pre) step = some f) (hcall : f.call = .assign a now) :
    ∃ earlier s', ∃ st : AssignmentStage, f.landing = (s', st.now x (.assign a now)) ∧
      st.Kept (draftEntry x a now (requested x earlier).shared) s' := by
  cases step with
  | call j c =>
      -- the first segment
      rcases fire_call_eq_some.1 hfire with ⟨-, rfl⟩
      cases hcall
      obtain ⟨s', st, hbegins, hadvance⟩ :=
        (staging_follows x).begins (.assign a now) (requested x pre).shared
      rcases Begins.kept hbegins with ⟨rfl, hkept⟩
      exact ⟨pre, _, st, hadvance, hkept⟩
  | resume j reply =>
      -- a later one: the call was started before, and every step since was careful
      rcases fire_resume_eq_some.1 hfire with ⟨c, q, k, hj, rfl⟩
      cases hcall
      rcases exists_start hj with ⟨earlier, rest, rfl, hnone⟩
      have halong := hcareful earlier j a now (rest ++ .resume j reply :: post) (by simp) hnone
      have hrun : run (Request.prog x) (requested x (earlier ++ [.call j (.assign a now)])) rest =
          requested x (earlier ++ .call j (.assign a now) :: rest) := by
        rw [requested, requested, ← run_append, List.append_assoc, List.singleton_append]
      have hdraft : ∀ entry ∈ draftEntry x a now (requested x earlier).shared,
          entry.state = .draft := by
        intro entry hentry
        rcases mem_draftEntry hentry with ⟨payload, -, hprepare⟩
        exact prepared_draft_state hprepare
      obtain ⟨pool, hpool, hpending⟩ := (pending_keeps hdraft).run_inv (staging_follows x)
        (pending_start hnone) rest halong.of_append
      have hstep := halong rest _ post rfl
      rw [hrun] at hpool hpending hstep
      rcases hpending.own with ⟨st, hst, hkept⟩
      have hnow : st.now x (.assign a now) = .awaiting q k := by
        have hthread := hpool.thread_some hst
        rw [hj] at hthread
        exact (congrArg Thread.now (Option.some.inj hthread)).symm
      rcases (staging_follows x).turns _ st q k hnow (reply q) _ with ⟨s', st', hturn, hadvance⟩
      exact ⟨earlier, s', st', hadvance,
        hstep.turn hpool hdraft hst hnow hturn (hkept q k hnow)⟩

/-! ## Reports -/

variable {contracts : CanonicalContractCatalog} {sha256 : String → String} {repr : Json → String}
  {store : Subject → κ} {kind : κ → StoreKind}

omit [DecidableEq κ] in
/-- The draft is a version of the agent. -/
theorem draftEntry_key (hx : x.registries = application contracts sha256 repr store kind)
    (hgenuine : AllGenuine x.registries s) (h : entry ∈ draftEntry x a now s) :
    entry.key = draftKey a entry.version := by
  rcases mem_draftEntry h with ⟨payload, hpayload, hprepare⟩
  unfold draftPayload at hpayload
  simp only [Except.bind_eq_ok, Except.pure_eq_ok] at hpayload
  rcases hpayload with ⟨⟨agent, values⟩, heligible, version, -, rfl⟩
  have hagent := eligible_agent heligible
  have hformed := hgenuine.dict .agent agent (Table.mem_of_get? hagent)
  have hsubject : agent.subjectId = a.agentId :=
    congrArg RegistryKey.subjectId (Table.key_of_get? hagent)
  rcases prepared_draft hx hformed.toFormed hsubject hprepare with ⟨hkey, hversion, -⟩
  rw [hkey, hversion]

/-- An assignment that returns leaves the version that it answers with in DRAFT, in
every careful run. -/
theorem reports_truthful (hx : x.registries = application contracts sha256 repr store kind)
    (xs : List RequestStep) (hcareful : CarefulRun x xs) : Truthful x xs := by
  rintro pre step post rfl f hfire a now response hcall hreturned
  rcases landed_kept hcareful hfire hcall with ⟨earlier, s', st, hlanding, hkept⟩
  rw [hlanding] at hreturned ⊢
  have hst : st = .replied (.assigned response) := returned_stage hreturned
  subst hst
  rcases hkept with ⟨entry, hentry, hversion, hin⟩
  have hsep : Separate x.registries := by
    rw [hx]
    exact separate_application
  rw [hversion, ← draftEntry_key hx (requested_genuine hsep earlier) hentry]
  exact hin

/-- An answer for the assignment itself. -/
theorem Careful.own {j : ℕ} {t : RequestSys κ} {y : AssignmentYield κ}
    {reply : (q : Registry.Question Subject) → Registry.Answer q}
    (hj : t.threads j = some ⟨.assign a now, y⟩)
    (hfound : y.stop = .awaiting (.acquire .agent) → ∀ entry ∈ draft, ∀ existing,
      (t.shared.entries .agent).get? entry.key = some existing →
        existing.digest = entry.digest → existing.state = .draft) :
    Careful x j draft t (.resume j reply) where
  registers := by
    intro entry hentry reply' _ own hown hstop
    rw [hj] at hown
    -- the assignment is new, so it has not been answered yet
    cases hown
    exact hfound hstop entry hentry
  waits := by
    rintro entry - own - event - i reply' hstep th hth c q hcall -
    cases hstep
    rw [hj] at hth
    cases hth
    cases hcall
  reloads := by
    rintro entry - own - event - i reply' hstep th hth loaded ⟨hcall, -⟩
    cases hstep
    rw [hj] at hth
    cases hth
    cases hcall

/-- The start of a call. -/
theorem Careful.start {i j : ℕ} {t : RequestSys κ} {c : Request} :
    Careful x j draft t (.call i c) where
  registers := by
    rintro entry - reply hstep
    cases hstep
  waits := by
    rintro entry - own - event - k reply hstep
    cases hstep
  reloads := by
    rintro entry - own - event - k reply hstep
    cases hstep

/-- An answer for another assignment. -/
theorem Careful.other {i j : ℕ} {t : RequestSys κ} {b : Assignment} {now' : Datetime}
    {y : AssignmentYield κ} {reply : (q : Registry.Question Subject) → Registry.Answer q}
    (hne : i ≠ j) (hi : t.threads i = some ⟨.assign b now', y⟩) :
    Careful x j draft t (.resume i reply) where
  registers := by
    -- the step starts a request, so it answers none
    rintro entry - reply' hstep
    cases hstep
    exact absurd rfl hne
  waits := by
    rintro entry - own - event - k reply' hstep th hth c q hcall -
    cases hstep
    rw [hi] at hth
    cases hth
    cases hcall
  reloads := by
    rintro entry - own - event - k reply' hstep th hth loaded ⟨hcall, -⟩
    cases hstep
    rw [hi] at hth
    cases hth
    cases hcall

end Reports

/-! ## A skill is assigned twice -/

theorem assign_notMem_summarySteps (j : ℕ) (a : Assignment) (now : Datetime) :
    .call j (.assign a now) ∉ summarySteps := by
  intro h
  have hcalls : ∀ step ∈ summarySteps, (match step with
      | .call _ (.assign ..) => false
      | _ => true) = true := List.all_eq_true.1 rfl
  cases hcalls _ h

/-- The skill is assigned, and while the draft awaits its event it is assigned again. -/
def overlappingAssignments : List RequestStep :=
  [.call 6 (.assign summaryAssignment 0), .resume 6 (returned 0), .resume 6 (returned 0),
    .call 7 (.assign summaryAssignment 0), .resume 7 (returned 0), .resume 6 (returned 0),
    .resume 7 (returned 0), .resume 6 (returned 0)]

/-- Where the assignments start. -/
theorem overlappingAssignments_split {pre rest : List RequestStep} {j : ℕ} {a : Assignment}
    {now : Datetime}
    (h : summarySteps ++ overlappingAssignments = pre ++ .call j (.assign a now) :: rest) :
    a = summaryAssignment ∧ now = 0 ∧
      (j = 6 ∧ pre = summarySteps ∧ rest = overlappingAssignments.drop 1 ∨
        j = 7 ∧ pre = summarySteps ++ overlappingAssignments.take 3 ∧
          rest = overlappingAssignments.drop 4) := by
  rcases List.append_eq_append_iff.1 h with ⟨middle, rfl, hrest⟩ | ⟨middle, hpre, hrest⟩
  · simp only [overlappingAssignments, List.cons_eq_append_iff, List.cons.injEq, Step.call.injEq,
      Request.assign.injEq, reduceCtorEq, false_and, and_false, false_or, List.nil_eq] at hrest
    rcases hrest with ⟨rfl, ⟨rfl, rfl, rfl⟩, rfl⟩ |
      ⟨_, rfl, _, rfl, _, rfl, ⟨rfl, ⟨rfl, rfl, rfl⟩, rfl⟩ | ⟨_, rfl, _, rfl, _, rfl, _, rfl, _, rfl, hnil⟩⟩
    · exact ⟨rfl, rfl, .inl ⟨rfl, List.append_nil _, rfl⟩⟩
    · exact ⟨rfl, rfl, .inr ⟨rfl, rfl, rfl⟩⟩
    · simp at hnil
  · cases middle with
    | nil =>
        cases hrest
        exact ⟨rfl, rfl, .inl ⟨rfl, (List.append_nil _).symm.trans hpre.symm, rfl⟩⟩
    | cons step middle =>
        -- the assignments are not among the steps before them
        cases hrest
        refine absurd ?_ (assign_notMem_summarySteps j a now)
        rw [hpre]
        simp

set_option maxRecDepth 4000 in
theorem careful_summary : CarefulRun summaryService (summarySteps ++ overlappingAssignments) := by
  intro pre j a now rest hsplit _
  rcases overlappingAssignments_split hsplit with ⟨rfl, rfl, ⟨rfl, rfl, rfl⟩ | ⟨rfl, rfl, rfl⟩⟩
  · -- the first one finds no version under the key of its draft
    refine .cons (.cons (.cons (.cons (.cons (.cons (.cons (along_nil _ _) ?_) ?_) ?_) ?_) ?_) ?_) ?_
    · exact Careful.own rfl fun h => by cases h
    · exact Careful.other (by decide) rfl
    · exact Careful.own rfl fun h => by cases h
    · exact Careful.other (by decide) rfl
    · exact Careful.start
    · exact Careful.own rfl fun h => by cases h
    · refine Careful.own rfl fun _ entry hentry existing hexisting => ?_
      cases hentry
      cases hexisting
  · -- the second one finds the draft of the first
    refine .cons (.cons (.cons (.cons (along_nil _ _) ?_) ?_) ?_) ?_
    · exact Careful.other (by decide) rfl
    · exact Careful.own rfl fun h => by cases h
    · exact Careful.other (by decide) rfl
    · refine Careful.own rfl fun _ entry hentry existing hexisting _ => ?_
      cases hentry
      cases hexisting
      rfl

set_option maxRecDepth 4000 in
/-- The second assignment answers first, with the draft of the other. -/
theorem reports_truthful_summary :
    InDraft (requested summaryService (summarySteps ++ overlappingAssignments.take 7)).shared
      (draftKey summaryAssignment "1.1.0") := by
  have hregistries : summaryService.registries = application ⟨fun _ => true, fun _ _ => none⟩
      summaryDigest (fun _ => "") (fun _ => ()) fun _ => .inMemory := rfl
  exact reports_truthful hregistries (summarySteps ++ overlappingAssignments) careful_summary
    (summarySteps ++ overlappingAssignments.take 6) (.resume 7 (returned 0))
    [.resume 6 (returned 0)] rfl _ rfl summaryAssignment 0
    ⟨"agent.summary", "1.0.0", "1.1.0", skillRefOf summaryAssignment, "corr"⟩ rfl rfl

/-- The draft is released, and assigned again. -/
def reassigningSteps : List RequestStep :=
  summarySteps ++ assigning 6 4 ++
    (published .agent "agent.summary" "1.1.0").zipIdx.flatMap
      (fun y => undisturbedCall (7 + y.2) y.1.1) ++
    assigning 9 1

set_option maxRecDepth 2000 in
theorem reported_active :
    ¬ Truthful summaryService (reassigningSteps ++ [.resume 9 (returned 0)]) := by
  intro h
  obtain ⟨entry, hentry, hstate⟩ := h reassigningSteps (.resume 9 (returned 0)) [] rfl _ rfl
    summaryAssignment 0
    ⟨"agent.summary", "1.0.0", "1.1.0", skillRefOf summaryAssignment, "corr"⟩ rfl rfl
  cases hentry
  cases hstate

end Alos.Skills
