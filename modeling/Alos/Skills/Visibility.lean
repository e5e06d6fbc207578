import Alos.Registry.Authorized
import Alos.Registry.Capabilities
import Alos.Skills.Service

/-! # What a principal does not see

Two states of a registry are the same to a principal if they differ only in
entries that the principal may not see. The reads of skills and capabilities then
return the same, the ones that take a latest version among them:

* `listAuthorizedEntries_seen`: unseen entries are not listed;
* `visible_eq`: whether a candidate is visible is told by the candidate itself;
* `unseen_irrelevant`: the five reads.
-/

namespace Alos.Skills

open Py Registry

/-- The principal may not see the entry: it stands in another place, it is a draft
of another actor, it is between stages, or it is not authorized. -/
def Unseen (principal : Principal) (entry : RegistryEntry) : Prop :=
  ¬ InPlace principal entry ∨
  (entry.state = .draft ∧ entry.createdBy ≠ principal.actorId) ∨
  entry.state = .approved ∨ entry.state = .suspended ∨ entry.state = .retired ∨
  (entry.state = .active ∧ authorized principal entry = .ok false)

instance (principal : Principal) (entry : RegistryEntry) : Decidable (InPlace principal entry) :=
  inferInstanceAs (Decidable (_ ∧ _))

instance (principal : Principal) (entry : RegistryEntry) : Decidable (Unseen principal entry) :=
  inferInstanceAs (Decidable (_ ∨ _))

/-- The states differ only in entries that the principal may not see. -/
def SameSeen (principal : Principal) (entries entries' : Table RegistryEntry.key) : Prop :=
  entries.values.filter (¬ Unseen principal ·) = entries'.values.filter (¬ Unseen principal ·)

section Reads

variable {entries entries' : Table RegistryEntry.key} {principal : Principal}

/-- The authorized entries are taken from those that are seen. -/
theorem listAuthorizedEntries_seen : listAuthorizedEntries entries (some principal) = (do
    let seen := entries.values.filter (¬ Unseen principal ·)
    let candidates := seen.filter fun entry =>
      entry.tenantId = principal.tenantId ∧ entry.organizationId = principal.organizationId ∧
        entry.workspaceId = principal.workspaceId ∧ entry.state = .active
    sorted (← candidates.filterM (authorized principal))) := by
  unfold listAuthorizedEntries
  dsimp only
  rw [Except.filterM_filter (r := authorized principal) (q := (¬ Unseen principal ·)),
    List.filter_comm]
  · intro entry hentry hseen
    rfl
  -- an entry that is not seen passes one of the filters only
  · intro entry hentry hunseen
    simp only [List.mem_filter, decide_eq_true_eq] at hentry
    obtain ⟨-, htenant, horganization, hworkspace, hactive⟩ := hentry
    simp only [decide_eq_false_iff_not, not_not] at hunseen
    rcases hunseen with hplace | ⟨hstate, -⟩ | hstate | hstate | hstate | ⟨-, hunauthorized⟩
    · exact absurd ⟨htenant, horganization, hworkspace⟩ hplace
    all_goals first
      | exact hunauthorized
      | rw [hactive] at hstate
        cases hstate

theorem listAuthorizedEntries_same (h : SameSeen principal entries entries') :
    listAuthorizedEntries entries (some principal) =
      listAuthorizedEntries entries' (some principal) := by
  rw [listAuthorizedEntries_seen, listAuthorizedEntries_seen, h]

/-- A listed entry is registered in the principal's place. -/
theorem mem_of_listed {listed : List RegistryEntry}
    (h : listAuthorizedEntries entries (some principal) = .ok listed) {entry : RegistryEntry}
    (hentry : entry ∈ listed) : entry ∈ entries.values ∧ InPlace principal entry := by
  simp only [listAuthorizedEntries, Except.bind_eq_ok] at h
  obtain ⟨selected, hselected, hsorted⟩ := h
  have hmem := ((Except.mem_filterM hselected).1 (mem_of_sorted hsorted hentry)).1
  simp only [List.mem_filter, decide_eq_true_eq] at hmem
  obtain ⟨hmem, htenant, horganization, hworkspace, -⟩ := hmem
  exact ⟨hmem, htenant, horganization, hworkspace⟩

theorem get_of_mem {entry : RegistryEntry} (hmem : entry ∈ entries.values)
    (hplace : InPlace principal entry) :
    get entries ⟨principal.tenantId, principal.workspaceId, entry.subjectId, entry.version⟩ =
      .ok entry := by
  rw [get_ok, ← hplace.1, ← hplace.2.2]
  exact ⟨hmem, rfl⟩

/-! ## Skills -/

theorem listSkills_same (h : SameSeen principal entries entries') :
    listSkills entries principal = listSkills entries' principal := by
  rw [listSkills, listSkills, listAuthorizedEntries_same h]

theorem getVersions_same (h : SameSeen principal entries entries') (skillId : String) :
    getVersions entries principal skillId = getVersions entries' principal skillId := by
  rw [getVersions, getVersions, listAuthorizedEntries_same h]

/-- The latest version is one that is listed. -/
theorem latestVersion_ok {skillId version : String}
    (h : latestVersion entries principal skillId = .ok version) :
    ∃ listed, listAuthorizedEntries entries (some principal) = .ok listed ∧
      ∃ entry ∈ listed, entry.subjectId = skillId ∧ entry.version = version := by
  simp only [latestVersion, getVersions, Except.bind_eq_ok, Except.pure_eq_ok] at h
  obtain ⟨versions, ⟨listed, hlisted, rfl⟩, hlast⟩ := h
  refine ⟨listed, hlisted, ?_⟩
  -- the last of the versions is that of an entry
  cases hversions : ((listed.filter (·.subjectId = skillId)).map (·.version)).getLast? with
  | none =>
      rw [hversions] at hlast
      cases hlast
  | some last =>
      rw [hversions] at hlast
      cases hlast
      obtain ⟨entry, hentry, hversion⟩ := List.mem_map.1 (List.mem_of_getLast? hversions)
      rw [List.mem_filter, decide_eq_true_eq] at hentry
      exact ⟨entry, hentry.1, hentry.2, hversion⟩

theorem getSkill_same (h : SameSeen principal entries entries') (skillId : String) :
    getSkill entries principal skillId none = getSkill entries' principal skillId none := by
  have hlatest : latestVersion entries principal skillId =
      latestVersion entries' principal skillId := by
    rw [latestVersion, latestVersion, getVersions_same h]
  unfold getSkill
  simp only [Option.filter_none]
  rw [hlatest]
  cases hversion : latestVersion entries' principal skillId with
  | error e => rfl
  | ok version =>
      -- the version belongs to an entry that both states have
      obtain ⟨listed, hlisted, entry, hentry, rfl, rfl⟩ := latestVersion_ok hversion
      obtain ⟨hmem', hplace⟩ := mem_of_listed hlisted hentry
      rw [← listAuthorizedEntries_same h] at hlisted
      have hmem := (mem_of_listed hlisted hentry).1
      have hget := get_of_mem hmem hplace
      have hget' := get_of_mem hmem' hplace
      simp only [bind, Except.bind, hget, hget', getAuthorized]

theorem catalogSnapshot_same (h : SameSeen principal entries entries') :
    catalogSnapshot entries principal = catalogSnapshot entries' principal := by
  rw [catalogSnapshot, catalogSnapshot, listAuthorizedEntries_same h]

/-! ## The skills of an agent -/

/-- Whether a candidate is visible, by the candidate alone. -/
def shown (principal : Principal) (candidate : RegistryEntry) : Except ReadError Bool :=
  if candidate.state = .draft ∧ candidate.createdBy = principal.actorId then .ok true
  else if candidate.state = .active then authorized principal candidate
  else .ok false

/-- The lookup of a candidate finds the candidate. -/
theorem visible_eq {candidate : RegistryEntry} (hmem : candidate ∈ entries.values)
    (hplace : InPlace principal candidate) :
    visible entries principal candidate = shown principal candidate := by
  unfold visible shown
  -- a draft of one's own is visible, then what is active and authorized
  by_cases hdraft : candidate.state = .draft ∧ candidate.createdBy = principal.actorId
  · rw [if_pos hdraft, if_pos hdraft]
  rw [if_neg hdraft, if_neg hdraft]
  by_cases hactive : candidate.state = .active
  swap
  · rw [if_neg hactive, if_neg hactive]
  rw [if_pos hactive, if_pos hactive]
  have hget := get_of_mem hmem hplace
  have horganization := hplace.2.1
  simp only [getAuthorized, authorized, bind, Except.bind, hget, Except.require,
    if_pos horganization, if_pos hactive]
  cases RegistryAuthorityView.fromEntry candidate with
  | error e => cases e <;> rfl
  | ok view =>
      dsimp only
      cases view.authorize principal with
      | error e => cases e <;> rfl
      | ok u => rfl

theorem shown_of_unseen {candidate : RegistryEntry} (hplace : InPlace principal candidate)
    (h : Unseen principal candidate) : shown principal candidate = .ok false := by
  unfold shown
  rcases h with hother | ⟨hstate, hactor⟩ | hstate | hstate | hstate | ⟨hstate, hauthorized⟩
  · exact absurd hplace hother
  · rw [if_neg (fun hown => hactor hown.2), if_neg (by simp [hstate])]
  · rw [if_neg (by simp [hstate]), if_neg (by simp [hstate])]
  · rw [if_neg (by simp [hstate]), if_neg (by simp [hstate])]
  · rw [if_neg (by simp [hstate]), if_neg (by simp [hstate])]
  · rw [if_neg (by simp [hstate]), if_pos hstate, hauthorized]

/-- The visible candidates are taken from those that are seen, although all of
them are sorted first. -/
theorem visible_seen (hversioned : ∀ entry ∈ entries.values, Versioned entry) (agentId : String) :
    (do (← listEntries entries principal.tenantId principal.organizationId principal.workspaceId
          (some agentId)).filterM (visible entries principal)) =
      (((entries.values.filter (¬ Unseen principal ·)).filter fun entry =>
        entry.tenantId = principal.tenantId ∧ entry.organizationId = principal.organizationId ∧
          entry.workspaceId = principal.workspaceId ∧
            (some agentId = none ∨ some agentId = some entry.subjectId)).insertionSort
              NotAfter).filterM (shown principal) := by
  -- an entry that passes the filter is in the principal's place
  have hmem : ∀ entry ∈ (entries.values.filter fun entry =>
      entry.tenantId = principal.tenantId ∧ entry.organizationId = principal.organizationId ∧
        entry.workspaceId = principal.workspaceId ∧
          (some agentId = none ∨ some agentId = some entry.subjectId)).insertionSort NotAfter,
      entry ∈ entries.values ∧ InPlace principal entry := by
    intro entry hentry
    rw [List.mem_insertionSort, List.mem_filter, decide_eq_true_eq] at hentry
    obtain ⟨hentry, htenant, horganization, hworkspace, -⟩ := hentry
    exact ⟨hentry, htenant, horganization, hworkspace⟩
  unfold listEntries
  rw [sorted_ok fun entry hentry => hversioned entry (List.mem_filter.1 hentry).1]
  simp only [bind, Except.bind]
  rw [Except.filterM_filter (r := shown principal) (q := (¬ Unseen principal ·)),
    filter_insertionSort, List.filter_comm]
  · intro entry hentry hseen
    exact visible_eq (hmem entry hentry).1 (hmem entry hentry).2
  · intro entry hentry hunseen
    rw [visible_eq (hmem entry hentry).1 (hmem entry hentry).2]
    exact shown_of_unseen (hmem entry hentry).2 (by simpa using hunseen)

theorem listAgentSkills_same (hversioned : ∀ entry ∈ entries.values, Versioned entry)
    (hversioned' : ∀ entry ∈ entries'.values, Versioned entry)
    (h : SameSeen principal entries entries') (agentId correlationId : String) :
    listAgentSkills entries principal agentId correlationId =
      listAgentSkills entries' principal agentId correlationId := by
  have hvisible := @visible_seen entries principal hversioned agentId
  rw [h, ← visible_seen hversioned' agentId] at hvisible
  unfold listAgentSkills
  simp only [← bind_assoc] at hvisible ⊢
  rw [hvisible]

end Reads

/-- What is returned to a principal does not depend on what the principal may not
see. -/
theorem unseen_irrelevant (principal : Principal)
    {skills skills' agents agents' capabilities capabilities' : Table RegistryEntry.key}
    (hversioned : ∀ entry ∈ agents.values, Versioned entry)
    (hversioned' : ∀ entry ∈ agents'.values, Versioned entry)
    (hskills : SameSeen principal skills skills') (hagents : SameSeen principal agents agents')
    (hcapabilities : SameSeen principal capabilities capabilities') :
    listSkills skills principal = listSkills skills' principal ∧
    (∀ skillId, getVersions skills principal skillId = getVersions skills' principal skillId) ∧
    (∀ skillId, getSkill skills principal skillId none = getSkill skills' principal skillId none) ∧
    (∀ agentId correlationId, listAgentSkills agents principal agentId correlationId =
      listAgentSkills agents' principal agentId correlationId) ∧
    catalogSnapshot capabilities principal = catalogSnapshot capabilities' principal :=
  ⟨listSkills_same hskills, getVersions_same hskills, getSkill_same hskills,
    listAgentSkills_same hversioned hversioned' hagents, catalogSnapshot_same hcapabilities⟩

/-- A version of another definition in the same place. -/
def scopedEntry (subjectType subjectId version : String) (state : RegistryState) : RegistryEntry :=
  { scopedAgent version state with subjectType := subjectType, subjectId := subjectId }

/-- The active version of the agent, with later versions that are not visible: a
draft of another actor and an approved one. -/
def laterVersions : Table RegistryEntry.key :=
  ⟨[scopedAgent "4.0.0" .draft, scopedAgent "2.0.0" .active, scopedAgent "3.0.0" .approved],
    by decide⟩

def skillVersions (state : RegistryState) : Table RegistryEntry.key :=
  ⟨[scopedEntry "skill" "skill.ledger" "1.0.0" .active,
    scopedEntry "skill" "skill.ledger" "2.0.0" state],
    by cases state <;> decide⟩

theorem unseen_irrelevant_versions :
    getSkill (skillVersions .approved) scopeHolder "skill.ledger" none =
        getSkill (skillVersions .suspended) scopeHolder "skill.ledger" none ∧
      listAgentSkills agentVersions scopeHolder "agent.ledger" "corr" =
        listAgentSkills laterVersions scopeHolder "agent.ledger" "corr" := by
  have hskills : SameSeen scopeHolder (skillVersions .approved) (skillVersions .suspended) := rfl
  have hagents : SameSeen scopeHolder agentVersions laterVersions := rfl
  have hcapabilities : SameSeen scopeHolder Table.empty Table.empty := rfl
  have h := unseen_irrelevant scopeHolder (by decide) (by decide) hskills hagents hcapabilities
  exact ⟨h.2.2.1 _, h.2.2.2.1 _ _⟩

end Alos.Skills
