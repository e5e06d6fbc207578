import Alos.Registry.Order
import Alos.Tools.Request

/-! # Authorized entries

A registry answers two ways what a principal may use: it selects the entries of
the principal's place, and it looks one version up. Both build the view of an
entry and authorize it.

* `Usable` is the rule that they share, on the fields of an entry;
* `fromEntry_eq` and `authorize_eq` read it off the view;
* `authorized_reads`: both ways find the same entries, each of them once.

Entries are `Typed`: their ref fields are lists of strings.
-/

namespace Alos.Registry

open Py Tools

/-! ## The refs of an entry -/

/-- The refs of a field that is a list of strings. -/
def refs (payload : Json.Fields) (key : String) : List String :=
  match payload.get? key with
  | some (.arr values) => values.filterMap fun
      | .str s => some s
      | _ => none
  | _ => []

/-- A list of texts is read as it stands. -/
theorem refs_eq {payload : Json.Fields} {key : String} {rs : List String}
    (h : Refs payload key rs) : refs payload key = rs := by
  unfold refs
  rcases h with h | ⟨h, rfl⟩
  · rw [h]
    simp [List.filterMap_map]
  · rw [h]

/-- The fields of a definition that hold refs. -/
def refFields : List String :=
  ["tool_ids", "backing_tool_ids", "required_tool_ids", "permission_refs", "scope_refs"]

/-- The ref fields of the payload are lists of strings, where they are present. -/
def Typed (entry : RegistryEntry) : Prop :=
  ∀ key ∈ refFields, ∃ rs, Refs entry.payload key rs

/-- The reference fields of a typed entry are lists of texts. -/
theorem Typed.refs {entry : RegistryEntry} (h : Typed entry) (key : String)
    (hkey : key ∈ refFields) : Refs entry.payload key (refs entry.payload key) := by
  obtain ⟨rs, hrs⟩ := h key hkey
  rwa [refs_eq hrs]

/-- The tools that an entry needs: a skill requires them, another definition
names them or is backed by them. -/
def toolRefs (entry : RegistryEntry) : List String :=
  if entry.subjectType = "skill" then refs entry.payload "required_tool_ids"
  else if refs entry.payload "tool_ids" ≠ [] then refs entry.payload "tool_ids"
  else refs entry.payload "backing_tool_ids"

/-- `payload.get(key) or []`. -/
theorem or_of_refs {payload : Json.Fields} {key : String} {rs : List String}
    (h : Refs payload key rs) :
    Py.or (RegistryAuthorityView.field payload key) (.arr []) = .arr (rs.map .str) := by
  unfold RegistryAuthorityView.field
  rcases h with h | ⟨h, rfl⟩
  · rw [h, Option.getD_some]
    cases rs <;> rfl
  · rw [h]
    rfl

/-- `payload.get(key) or value`. -/
theorem or_of_refs_ne {payload : Json.Fields} {key : String} {rs : List String}
    (h : Refs payload key rs) (value : Json) :
    Py.or (RegistryAuthorityView.field payload key) value =
      if rs ≠ [] then .arr (rs.map .str) else value := by
  unfold RegistryAuthorityView.field
  rcases h with h | ⟨h, rfl⟩
  · rw [h, Option.getD_some]
    cases rs <;> rfl
  · rw [h]
    rfl

/-- The view has the tools of the entry. -/
theorem tools_of_typed {entry : RegistryEntry} (h : Typed entry) :
    RegistryAuthorityView.tools entry = .arr ((toolRefs entry).map .str) := by
  unfold RegistryAuthorityView.tools toolRefs
  by_cases hskill : entry.subjectType = "skill"
  · rw [if_pos hskill, if_pos hskill]
    rcases h.refs "required_tool_ids" (by decide) with hrefs | ⟨hrefs, hnil⟩
    · rw [hrefs, Option.getD_some]
    · rw [hrefs, hnil]
      rfl
  · rw [if_neg hskill, if_neg hskill]
    have htools := h.refs "tool_ids" (by decide)
    have hbacking := h.refs "backing_tool_ids" (by decide)
    by_cases hne : refs entry.payload "tool_ids" ≠ []
    · -- the named tools are truthy, and so is what the first `or` gives
      rw [or_of_refs_ne htools, if_pos hne, if_pos hne]
      cases hrefs : refs entry.payload "tool_ids" with
      | nil => exact absurd hrefs hne
      | cons r rs => rfl
    · rw [or_of_refs_ne htools, if_neg hne, if_neg hne, or_of_refs hbacking]

/-! ## The view of an entry -/

/-- The value is a text that is not blank. -/
def IsText (value : Json) : Prop := ∃ s, value = .str s ∧ ¬ Blank s

/-- Reading a text fails on anything that is none. -/
theorem text?_eq_none {value : Json} : RegistryAuthorityView.text? value = none ↔ ¬ IsText value := by
  cases value with
  | str s =>
      simp only [RegistryAuthorityView.text?, IsText]
      by_cases hblank : Blank s <;> simp [hblank]
  | _ => simp [RegistryAuthorityView.text?, IsText]

/-- The refs are returned unless one of them is blank. -/
theorem references_strings (rs : List String) :
    RegistryAuthorityView.references (.arr (rs.map .str)) =
      .ok (if ∀ ref ∈ rs, ¬ Blank ref then some rs else none) := by
  -- reading fails at the first ref that is blank
  have hmapM : (rs.map Json.str).mapM RegistryAuthorityView.text? =
      if ∀ ref ∈ rs, ¬ Blank ref then some rs else none := by
    induction rs with
    | nil => rfl
    | cons r rs ih =>
        rw [List.map_cons, List.mapM_cons, ih]
        by_cases hr : Blank r
        · simp [RegistryAuthorityView.text?, hr]
        · by_cases hrs : ∀ ref ∈ rs, ¬ Blank ref
          · simp [RegistryAuthorityView.text?, hr, if_pos hrs]
          · simp [RegistryAuthorityView.text?, hr, if_neg hrs]
  unfold RegistryAuthorityView.references
  rw [iter]
  exact congrArg Except.ok hmapM

/-- The definition has an owner, a risk and sound refs. -/
structure Sound (entry : RegistryEntry) : Prop where
  owner : IsText (RegistryAuthorityView.owner entry)
  risk : IsText (RegistryAuthorityView.risk entry)
  tools : ∀ ref ∈ toolRefs entry, ¬ Blank ref
  permissions : ∀ ref ∈ refs entry.payload "permission_refs", ¬ Blank ref
  scope : ∀ ref ∈ refs entry.payload "scope_refs", ¬ Blank ref

/-- The view that the service builds of an entry. -/
def viewOf (entry : RegistryEntry) : RegistryAuthorityView where
  subjectType := entry.subjectType
  tenantId := entry.tenantId
  organizationId := entry.organizationId
  workspaceId := entry.workspaceId
  toolRefs := toolRefs entry
  permissions := refs entry.payload "permission_refs"
  scope := refs entry.payload "scope_refs"

/-- A sound definition has a view; another one is not authorized. -/
theorem fromEntry_eq {entry : RegistryEntry} (h : Typed entry) :
    (Sound entry ∧ RegistryAuthorityView.fromEntry entry = .ok (viewOf entry)) ∨
      (¬ Sound entry ∧
        ∃ message, RegistryAuthorityView.fromEntry entry = .error (.unauthorized message)) := by
  unfold RegistryAuthorityView.fromEntry
  -- the checks in the order of `from_entry`; the first one that fails is raised
  by_cases howner : IsText (RegistryAuthorityView.owner entry)
  swap
  · right
    rw [if_pos (text?_eq_none.2 howner)]
    exact ⟨fun hsound => howner hsound.owner, _, rfl⟩
  rw [if_neg (mt text?_eq_none.1 (not_not_intro howner))]
  by_cases hrisk : IsText (RegistryAuthorityView.risk entry)
  swap
  · right
    rw [if_pos (text?_eq_none.2 hrisk)]
    exact ⟨fun hsound => hrisk hsound.risk, _, rfl⟩
  rw [if_neg (mt text?_eq_none.1 (not_not_intro hrisk)), tools_of_typed h,
    or_of_refs (h.refs "permission_refs" (by decide)),
    or_of_refs (h.refs "scope_refs" (by decide))]
  simp only [references_strings]
  by_cases htools : ∀ ref ∈ toolRefs entry, ¬ Blank ref
  swap
  · right
    rw [if_neg htools]
    exact ⟨fun hsound => htools hsound.tools, _, rfl⟩
  by_cases hpermissions : ∀ ref ∈ refs entry.payload "permission_refs", ¬ Blank ref
  swap
  · right
    rw [if_pos htools, if_neg hpermissions]
    exact ⟨fun hsound => hpermissions hsound.permissions, _, rfl⟩
  by_cases hscope : ∀ ref ∈ refs entry.payload "scope_refs", ¬ Blank ref
  swap
  · right
    rw [if_pos htools, if_pos hpermissions, if_neg hscope]
    exact ⟨fun hsound => hscope hsound.scope, _, rfl⟩
  · left
    rw [if_pos htools, if_pos hpermissions, if_pos hscope]
    exact ⟨⟨howner, hrisk, htools, hpermissions, hscope⟩, rfl⟩

/-- The principal has the authority that a view names. -/
structure Authorizes (principal : Principal) (view : RegistryAuthorityView) : Prop where
  active : principal.active = true
  tenantId : principal.tenantId = view.tenantId
  organizationId : principal.organizationId = view.organizationId
  workspaceId : principal.workspaceId = view.workspaceId
  hasScope : view.scope ≠ [] ∨ view.subjectType = "skill"
  permissions : ∀ permission ∈ view.permissions, permission ∈ principal.permissions
  scope : ∀ ref ∈ view.scope, ref ∈ principal.scopes

/-- The check of the view passes when the view authorizes the principal, and raises otherwise. -/
theorem authorize_eq (view : RegistryAuthorityView) (principal : Principal) :
    (Authorizes principal view ∧ view.authorize principal = .ok ()) ∨
      (¬ Authorizes principal view ∧
        ∃ message, view.authorize principal = .error (.unauthorized message)) := by
  unfold RegistryAuthorityView.authorize
  -- the checks in the order of `authorize`
  by_cases hactive : principal.active = true
  swap
  · right
    rw [if_pos hactive]
    exact ⟨fun h => hactive h.active, _, rfl⟩
  rw [if_neg (not_not_intro hactive)]
  by_cases houtside : principal.tenantId ≠ view.tenantId ∨
      principal.organizationId ≠ view.organizationId ∨ principal.workspaceId ≠ view.workspaceId
  · right
    rw [if_pos houtside]
    refine ⟨?_, _, rfl⟩
    intro h
    rcases houtside with hne | hne | hne
    · exact hne h.tenantId
    · exact hne h.organizationId
    · exact hne h.workspaceId
  rw [if_neg houtside]
  simp only [ne_eq, not_or, not_not] at houtside
  by_cases hunscoped : view.scope = [] ∧ view.subjectType ≠ "skill"
  · right
    rw [if_pos hunscoped]
    refine ⟨?_, _, rfl⟩
    intro h
    rcases h.hasScope with hne | hskill
    · exact hne hunscoped.1
    · exact hunscoped.2 hskill
  rw [if_neg hunscoped]
  by_cases hpermissions : ∀ permission ∈ view.permissions, permission ∈ principal.permissions
  swap
  · right
    rw [if_pos hpermissions]
    exact ⟨fun h => hpermissions h.permissions, _, rfl⟩
  rw [if_neg (not_not_intro hpermissions)]
  by_cases hscope : ∀ ref ∈ view.scope, ref ∈ principal.scopes
  swap
  · right
    rw [if_pos hscope]
    exact ⟨fun h => hscope h.scope, _, rfl⟩
  · left
    rw [if_neg (not_not_intro hscope)]
    have hscoped : view.scope ≠ [] ∨ view.subjectType = "skill" := by
      by_cases hscopes : view.scope = []
      · exact .inr (not_not.1 fun hne => hunscoped ⟨hscopes, hne⟩)
      · exact .inl hscopes
    exact ⟨⟨hactive, houtside.1, houtside.2.1, houtside.2.2, hscoped, hpermissions, hscope⟩, rfl⟩

/-! ## What a principal may use -/

/-- The principal may use the entry, were it active. -/
structure Granted (principal : Principal) (entry : RegistryEntry) : Prop where
  sound : Sound entry
  authorizes : Authorizes principal (viewOf entry)

/-- The view of an entry is authorized, or it is not; nothing else is raised. -/
theorem authorized_eq {entry : RegistryEntry} (h : Typed entry) (principal : Principal)
    [Decidable (Granted principal entry)] :
    authorized principal entry = .ok (decide (Granted principal entry)) := by
  unfold authorized
  rcases fromEntry_eq h with ⟨hsound, hview⟩ | ⟨hunsound, message, hview⟩
  · rw [hview]
    simp only [bind, Except.bind]
    rcases authorize_eq (viewOf entry) principal with ⟨hholds, hok⟩ | ⟨hholds, message, herror⟩
    · rw [hok, decide_eq_true ⟨hsound, hholds⟩]
    · rw [herror, decide_eq_false fun hgranted => hholds hgranted.authorizes]
  · rw [hview, decide_eq_false fun hgranted => hunsound hgranted.sound]
    rfl

/-- The entry stands in the principal's place. -/
def InPlace (principal : Principal) (entry : RegistryEntry) : Prop :=
  entry.tenantId = principal.tenantId ∧ entry.organizationId = principal.organizationId ∧
    entry.workspaceId = principal.workspaceId

/-- An entry that a principal may use: it is active and in the principal's place,
its owner, risk and refs are sound, it has a scope unless it is a skill, and the
principal is active and holds its permissions and its scope. -/
structure Usable (principal : Principal) (entry : RegistryEntry) : Prop where
  place : InPlace principal entry
  active : entry.state = .active
  sound : Sound entry
  hasScope : refs entry.payload "scope_refs" ≠ [] ∨ entry.subjectType = "skill"
  principalActive : principal.active = true
  permissions : ∀ ref ∈ refs entry.payload "permission_refs", ref ∈ principal.permissions
  scope : ∀ ref ∈ refs entry.payload "scope_refs", ref ∈ principal.scopes

/-- An entry is usable when it stands active in the principal's place and is granted to him. -/
theorem usable_iff {principal : Principal} {entry : RegistryEntry} :
    Usable principal entry ↔
      (InPlace principal entry ∧ entry.state = .active) ∧ Granted principal entry := by
  constructor
  · intro h
    obtain ⟨htenant, horganization, hworkspace⟩ := h.place
    exact ⟨⟨h.place, h.active⟩, h.sound, h.principalActive, htenant.symm, horganization.symm,
      hworkspace.symm, h.hasScope, h.permissions, h.scope⟩
  · rintro ⟨⟨hplace, hactive⟩, hsound, hauthorizes⟩
    exact ⟨hplace, hactive, hsound, hauthorizes.hasScope, hauthorizes.active, hauthorizes.permissions,
      hauthorizes.scope⟩

section Reads

variable {entries : Table RegistryEntry.key} {principal : Principal}

/-- A version is found under its key, where it is the only one. -/
theorem get_ok {key : RegistryKey} {entry : RegistryEntry} :
    get entries key = .ok entry ↔ entry ∈ entries.values ∧ entry.key = key := by
  rw [← Table.get?_eq_some]
  unfold get
  cases entries.get? key <;> simp

/-- The selected entries are the usable ones, in order. -/
theorem listAuthorizedEntries_eq [DecidablePred (Usable principal)]
    (hversioned : ∀ entry ∈ entries.values, Versioned entry)
    (htyped : ∀ entry ∈ entries.values, Typed entry) :
    listAuthorizedEntries entries (some principal) =
      .ok ((entries.values.filter (Usable principal ·)).insertionSort NotAfter) := by
  classical
  unfold listAuthorizedEntries
  -- the first filter looks at place and state, the second at the definition
  have hselected : (entries.values.filter fun entry =>
      entry.tenantId = principal.tenantId ∧ entry.organizationId = principal.organizationId ∧
        entry.workspaceId = principal.workspaceId ∧ entry.state = .active).filterM
          (authorized principal) = .ok _ :=
    Except.filterM_eq_ok fun entry hentry =>
      authorized_eq (htyped entry (List.mem_filter.1 hentry).1) principal
  have hfilter : (entries.values.filter fun entry =>
      entry.tenantId = principal.tenantId ∧ entry.organizationId = principal.organizationId ∧
        entry.workspaceId = principal.workspaceId ∧ entry.state = .active).filter
          (fun entry => decide (Granted principal entry)) =
      entries.values.filter (Usable principal ·) := by
    rw [List.filter_filter]
    apply List.filter_congr
    intro entry hentry
    rw [Bool.eq_iff_iff]
    simp only [Bool.and_eq_true, decide_eq_true_eq, usable_iff, InPlace]
    tauto
  simp only [hselected, hfilter, bind, Except.bind]
  exact sorted_ok fun entry hentry => hversioned entry (List.mem_filter.1 hentry).1

/-- A lookup succeeds for a usable entry only. -/
theorem getAuthorized_ok (htyped : ∀ entry ∈ entries.values, Typed entry)
    {subjectId version : String} {view : RegistryAuthorityView} :
    getAuthorized entries (some principal) subjectId version = .ok view ↔
      ∃ entry ∈ entries.values, entry.subjectId = subjectId ∧ entry.version = version ∧
        Usable principal entry ∧ view = viewOf entry := by
  simp only [getAuthorized, Except.bind_eq_ok, Except.require_eq_ok, Except.pure_eq_ok, get_ok]
  constructor
  · rintro ⟨entry, ⟨hmem, hkey⟩, u, horganization, u', hactive, view', hview, u'', hauthorize, rfl⟩
    obtain ⟨htenant, hworkspace, hsubject, hversion⟩ := RegistryKey.mk.inj hkey
    refine ⟨entry, hmem, hsubject, hversion, ?_⟩
    -- the definition can be read, or the look-up raises
    rcases fromEntry_eq (htyped entry hmem) with ⟨hsound, hok⟩ | ⟨-, message, herror⟩
    · rw [hok] at hview
      cases hview
      rcases authorize_eq (viewOf entry) principal with ⟨hholds, -⟩ | ⟨-, message, herror⟩
      · exact ⟨usable_iff.2 ⟨⟨⟨htenant, horganization, hworkspace⟩, hactive⟩, hsound, hholds⟩, rfl⟩
      · rw [herror] at hauthorize
        cases hauthorize
    · rw [herror] at hview
      cases hview
  · rintro ⟨entry, hmem, rfl, rfl, husable, rfl⟩
    obtain ⟨⟨⟨htenant, horganization, hworkspace⟩, hactive⟩, hsound, hholds⟩ := usable_iff.1 husable
    have hview : RegistryAuthorityView.fromEntry entry = .ok (viewOf entry) := by
      rcases fromEntry_eq (htyped entry hmem) with ⟨-, hok⟩ | ⟨hunsound, -⟩
      · exact hok
      · exact absurd hsound hunsound
    have hauthorize : (viewOf entry).authorize principal = .ok () := by
      rcases authorize_eq (viewOf entry) principal with ⟨-, hok⟩ | ⟨hfails, -⟩
      · exact hok
      · exact absurd hholds hfails
    exact ⟨entry, ⟨hmem, by rw [← htenant, ← hworkspace]; rfl⟩, (), horganization, (), hactive, _,
      hview, (), hauthorize, rfl⟩

/-- Two entries of one place, subject and version are one. -/
theorem eq_of_place {a b : RegistryEntry} (ha : a ∈ entries.values) (hb : b ∈ entries.values)
    (hplace : InPlace principal a) (hplace' : InPlace principal b)
    (hsubject : a.subjectId = b.subjectId) (hversion : a.version = b.version) : a = b := by
  have hkey : a.key = b.key := by
    unfold RegistryEntry.key
    rw [hplace.1, hplace'.1, hplace.2.2, hplace'.2.2, hsubject, hversion]
  have hfound := Table.get?_of_mem ha
  rw [hkey, Table.get?_of_mem hb] at hfound
  exact (Option.some.inj hfound).symm

end Reads

/-- The entry is the version `version` of `subjectId`. -/
def IsVersion (subjectId version : String) (entry : RegistryEntry) : Prop :=
  entry.subjectId = subjectId ∧ entry.version = version

instance (subjectId version : String) (entry : RegistryEntry) :
    Decidable (IsVersion subjectId version entry) := inferInstanceAs (Decidable (_ ∧ _))

/-- What the two reads of a registry return to a principal. -/
structure Reads (entries : Table RegistryEntry.key) (principal : Principal)
    (listed : List RegistryEntry) : Prop where
  list : listAuthorizedEntries entries (some principal) = .ok listed
  /-- A version is listed if and only if it is found. -/
  found : ∀ subjectId version, (∃ entry ∈ listed, IsVersion subjectId version entry) ↔
    ∃ view, getAuthorized entries (some principal) subjectId version = .ok view
  /-- It is found if and only if a usable entry of that version is registered. -/
  usable : ∀ subjectId version,
    (∃ view, getAuthorized entries (some principal) subjectId version = .ok view) ↔
      ∃ entry ∈ entries.values, IsVersion subjectId version entry ∧ Usable principal entry
  /-- A usable entry is listed, and no other one of its version. -/
  once : ∀ entry ∈ entries.values, Usable principal entry →
    listed.filter (IsVersion entry.subjectId entry.version ·) = [entry]

/-- The list and the look-up by key agree with the condition, and the list has each entry once. -/
theorem authorized_reads (entries : Table RegistryEntry.key) (principal : Principal)
    (hversioned : ∀ entry ∈ entries.values, Versioned entry)
    (htyped : ∀ entry ∈ entries.values, Typed entry) :
    ∃ listed, Reads entries principal listed := by
  classical
  have husable : ∀ subjectId version,
      (∃ view, getAuthorized entries (some principal) subjectId version = .ok view) ↔
        ∃ entry ∈ entries.values, IsVersion subjectId version entry ∧ Usable principal entry := by
    intro subjectId version
    simp only [getAuthorized_ok htyped]
    constructor
    · rintro ⟨view, entry, hmem, hsubject, hversion, husable, -⟩
      exact ⟨entry, hmem, ⟨hsubject, hversion⟩, husable⟩
    · rintro ⟨entry, hmem, ⟨hsubject, hversion⟩, husable⟩
      exact ⟨_, entry, hmem, hsubject, hversion, husable, rfl⟩
  refine ⟨_, listAuthorizedEntries_eq hversioned htyped, ?_, husable, ?_⟩
  · intro subjectId version
    rw [husable]
    simp only [List.mem_insertionSort, List.mem_filter, decide_eq_true_eq]
    constructor
    · rintro ⟨entry, ⟨hmem, husable⟩, hversion⟩
      exact ⟨entry, hmem, hversion, husable⟩
    · rintro ⟨entry, hmem, hversion, husable⟩
      exact ⟨entry, ⟨hmem, husable⟩, hversion⟩
  · intro entry hmem hentry
    rw [filter_insertionSort, List.filter_filter]
    -- what is selected has the key of the entry, which the dict has once
    have hselected : entries.values.filter (fun other =>
        decide (IsVersion entry.subjectId entry.version other) && decide (Usable principal other)) =
          [entry] := by
      apply Table.filter_eq_singleton hmem
      intro other hother
      simp only [Bool.and_eq_true, decide_eq_true_eq]
      constructor
      · rintro ⟨⟨hsubject, hversion⟩, husable'⟩
        exact eq_of_place hother hmem husable'.place hentry.place hsubject hversion
      · rintro rfl
        exact ⟨⟨rfl, rfl⟩, hentry⟩
    rw [hselected]
    rfl

/-! ## A registry of two versions -/

/-- A version of an agent that anyone in its scope may use. -/
def scopedAgent (version : String) (state : RegistryState) : RegistryEntry where
  subjectType := "agent"
  subjectId := "agent.ledger"
  version := version
  tenantId := "tenant"
  organizationId := "organization"
  workspaceId := "workspace"
  payload := [("owner", .str "finance"), ("risk_level", .str "LOW"),
    ("scope_refs", .arr [.str "scope.ledger"])]
  digest := "digest"
  state := state
  createdBy := "actor_maker"
  correlationId := "corr"
  createdAt := 0

/-- Two versions of an agent, of which the later one is active. -/
def agentVersions : Table RegistryEntry.key :=
  ⟨[scopedAgent "2.0.0" .active, scopedAgent "1.0.0" .suspended], by decide⟩

/-- A principal with the scope of the agent. -/
def scopeHolder : Principal where
  actorId := "actor"
  tenantId := "tenant"
  organizationId := "organization"
  workspaceId := "workspace"
  scopes := {"scope.ledger"}

/-- The references of the agent are lists of texts. -/
theorem scopedAgent_typed (version : String) (state : RegistryState) :
    Typed (scopedAgent version state) := by
  intro key hkey
  simp only [refFields, List.mem_cons, List.not_mem_nil, or_false] at hkey
  rcases hkey with rfl | rfl | rfl | rfl | rfl
  · exact ⟨[], .inr ⟨rfl, rfl⟩⟩
  · exact ⟨[], .inr ⟨rfl, rfl⟩⟩
  · exact ⟨[], .inr ⟨rfl, rfl⟩⟩
  · exact ⟨[], .inr ⟨rfl, rfl⟩⟩
  · exact ⟨["scope.ledger"], .inl rfl⟩

/-- The reads of the two versions. -/
theorem authorized_reads_versions : ∃ listed, Reads agentVersions scopeHolder listed := by
  apply authorized_reads
  · decide
  · intro entry hentry
    rcases List.mem_cons.1 hentry with rfl | hentry
    · exact scopedAgent_typed _ _
    · rw [List.mem_singleton.1 hentry]
      exact scopedAgent_typed _ _

end Alos.Registry
