import Mathlib.Data.List.Induction
import Alos.Sources.Isolation

/-! # What stays of a source version

Calls of `SourceRegistry` one after the other, with a sink that stores every event.

* `exec` is one call, `after` a run; `exec_effect` says in three shapes what a call
  does to the two dicts, and everything else is read off it;
* `Sound` is the invariant: a version has the hash of its content and the one
  classification of its source, and it is verified by somebody who may;
* `versions_are_immutable` puts the results together;
* `registration_faithful_iff`: a registration answers for the record it was asked to
  store, exactly when a version that is found is the same in more than its content.
-/

namespace Alos.Sources

open Coop Py Tools

section Immutable

variable (registry : SourceRegistry)

/-- A call, and the state that it leaves; the sink stores its events. -/
def exec (s : State) (c : Call) : Except SourceError Reply × State :=
  let f := (c.prog registry).alone calm s
  (f.result, f.state)

/-- The state after the calls. -/
def after (s : State) (cs : List Call) : State := cs.foldl (fun s c => (exec registry s c).2) s

/-- The registry as it is created; the evidence registry is one that there is. -/
def created (evidence : EvidenceTable) : State := ⟨.empty, .empty, evidence⟩

/-! ## One registration -/

/-- What is checked before the version is looked up. -/
def Admitted (command : SourceRegistration) (access : KnowledgeAccessContext) (s : State) : Prop :=
  "scope.sources.write" ∈ access.scopeRefs.val ∧ ¬ Blank command.content ∧
    ∀ item ∈ s.classifications.get? ⟨access.tenantId.val, access.workspaceId.val, command.sourceId⟩,
      item.2 = command.dataClassification

/-- The place of the version. -/
def versionKey (command : SourceRegistration) (access : KnowledgeAccessContext) : VersionKey :=
  ⟨⟨access.tenantId.val, access.workspaceId.val, command.sourceId⟩, command.sourceVersion⟩

/-- The state with the new version. -/
def State.receive (s : State) (record : SourceVersionRecord) : State :=
  { s with
    classifications := s.classifications.put (record.key.source, record.dataClassification)
    versions := s.versions.put record }

variable {registry} {command : SourceRegistration} {access : KnowledgeAccessContext}
  {now : Datetime} {env : Env Question Answer} {s : State}

theorem received_key : (received registry command access now).key = versionKey command access := rfl

/-- A registration that is not admitted raises, and leaves the state as it is. -/
theorem register_of_not_admitted (h : ¬ Admitted command access s) :
    ∃ e, (register registry command access now).alone env s = ⟨s, .error e, []⟩ := by
  unfold register requireScope
  simp only [Proc.bind_def]
  by_cases hscope : "scope.sources.write" ∈ access.scopeRefs.val
  · rw [if_pos hscope]
    simp only [Proc.ofExcept, Proc.ret_bind]
    by_cases hblank : Blank command.content
    · refine ⟨.source "source content must not be blank", ?_⟩
      simp only [Proc.raiseIf, if_pos hblank]
      rfl
    · simp only [Proc.raiseIf, if_neg hblank, Proc.pure_def, Proc.ret_bind, Proc.get_bind,
        Proc.alone]
      -- the source has another classification
      have hclass : ∃ item, s.classifications.get? (received registry command access now).key.source =
          some item ∧ item.2 ≠ command.dataClassification := by
        by_contra hnone
        refine h ⟨hscope, hblank, fun item hitem => ?_⟩
        by_contra hne
        exact hnone ⟨item, hitem, hne⟩
      rcases hclass with ⟨⟨key, classification⟩, hitem, hne⟩
      refine ⟨.source "source classification is immutable", ?_⟩
      rw [hitem]
      simp only [if_pos hne]
      rfl
  · rw [if_neg hscope]
    exact ⟨_, rfl⟩

/-- What is left of a registration that is admitted. -/
theorem register_of_admitted (h : Admitted command access s) :
    (register registry command access now).alone env s =
      (match s.versions.get? (versionKey command access) with
      | some existing =>
          if existing.contentHash = contentHash registry command.content then .ret existing
          else .raise (.source "immutable source version already exists")
      | none =>
          .write (s.receive (received registry command access now))
            ((record access command.sourceId "source.version.registered" "RECEIVED").bind fun _ =>
              .ret (received registry command access now)) :
        Op SourceVersionRecord).alone env s := by
  rcases h with ⟨hscope, hblank, hclass⟩
  unfold register requireScope
  simp only [Proc.bind_def, if_pos hscope, Proc.ofExcept, Proc.ret_bind, Proc.raiseIf,
    if_neg hblank, Proc.pure_def, Proc.get_bind, Proc.alone]
  have hsource : (received registry command access now).key.source =
      ⟨access.tenantId.val, access.workspaceId.val, command.sourceId⟩ := rfl
  rw [hsource, received_key]
  -- the source is new, or has the classification that is registered
  cases hitem : s.classifications.get? ⟨access.tenantId.val, access.workspaceId.val, command.sourceId⟩ with
  | none =>
      cases s.versions.get? (versionKey command access) with
      | none => rfl
      | some existing => rfl
  | some item =>
      have hsame := hclass item hitem
      simp only [hsame, ne_eq, not_true_eq_false, if_false, Proc.ret_bind]
      cases s.versions.get? (versionKey command access) with
      | none => rfl
      | some existing => rfl

/-! ## What a call does -/

/-- The two dicts are as they were. -/
def State.Kept (s s' : State) : Prop :=
  s'.versions = s.versions ∧ s'.classifications = s.classifications

/-- The record of a source version that somebody has verified. -/
def SourceVersionRecord.verifiedAs (record : SourceVersionRecord) (access : KnowledgeAccessContext)
    (now : Datetime) : SourceVersionRecord :=
  { record with status := .verified, verifiedBy := some access.actorId.val, verifiedAt := some now }

variable (registry) in
/-- What a call comes to, and does to the two dicts. -/
inductive Effect (s : State) : Call → Except SourceError Reply → State → Prop where
  | refused {c : Call} {e : SourceError} {s' : State} (hkept : s.Kept s') :
      Effect s c (.error e) s'
  | replayed {command : SourceRegistration} {access : KnowledgeAccessContext} {now : Datetime}
      {existing : SourceVersionRecord} :
      Effect s (.register command access now) (.ok (.record existing)) s
  | received {command : SourceRegistration} {access : KnowledgeAccessContext} {now : Datetime}
      (hadmitted : Admitted command access s)
      (hnew : s.versions.get? (versionKey command access) = none) :
      Effect s (.register command access now)
        (.ok (.record (Sources.received registry command access now)))
        (s.receive (Sources.received registry command access now))
  | verified {sourceId sourceVersion : String} {access : KnowledgeAccessContext} {now : Datetime}
      {current : SourceVersionRecord} (hscope : "scope.sources.verify" ∈ access.scopeRefs.val)
      (hcurrent : s.versions.get?
        ⟨⟨access.tenantId.val, access.workspaceId.val, sourceId⟩, sourceVersion⟩ = some current)
      (horganization : current.organizationId = access.organizationId.val) :
      Effect s (.verify sourceId sourceVersion access now)
        (.ok (.record (current.verifiedAs access now)))
        { s with versions := s.versions.put (current.verifiedAs access now) }
  | retrieved {query : String} {access : KnowledgeAccessContext} {now : Datetime}
      {limit maxCharacters : Int} {validated : Json.Fields} {s' : State} (hkept : s.Kept s') :
      Effect s (.searchContext query access now limit maxCharacters) (.ok (.context validated)) s'

/-- What a registration may do. -/
theorem register_effect (command : SourceRegistration) (access : KnowledgeAccessContext)
    (now : Datetime) (s : State) : Effect registry s (.register command access now)
      (exec registry s (.register command access now)).1
      (exec registry s (.register command access now)).2 := by
  simp only [exec, Call.prog, Proc.alone_bind]
  by_cases hadmitted : Admitted command access s
  · rw [register_of_admitted hadmitted]
    cases hexisting : s.versions.get? (versionKey command access) with
    | none => exact .received hadmitted hexisting
    | some existing =>
        -- a version that is there is given back, or is a conflict
        by_cases hhash : existing.contentHash = contentHash registry command.content
        · simp only [if_pos hhash]
          exact .replayed
        · simp only [if_neg hhash]
          exact .refused ⟨rfl, rfl⟩
  · obtain ⟨e, he⟩ : ∃ e, (register registry command access now).alone calm s = ⟨s, .error e, []⟩ :=
      register_of_not_admitted hadmitted
    rw [he]
    exact .refused ⟨rfl, rfl⟩

/-- What a verification may do. -/
theorem verify_effect (sourceId sourceVersion : String) (access : KnowledgeAccessContext)
    (now : Datetime) (s : State) : Effect registry s (.verify sourceId sourceVersion access now)
      (exec registry s (.verify sourceId sourceVersion access now)).1
      (exec registry s (.verify sourceId sourceVersion access now)).2 := by
  simp only [exec, Call.prog, Proc.alone_bind]
  unfold verify requireScope
  by_cases hscope : "scope.sources.verify" ∈ access.scopeRefs.val
  · simp only [Proc.bind_def, if_pos hscope, Proc.ofExcept, Proc.ret_bind, Proc.get_bind, Proc.alone]
    cases hcurrent : s.versions.get?
        ⟨⟨access.tenantId.val, access.workspaceId.val, sourceId⟩, sourceVersion⟩ with
    | none => exact .refused ⟨rfl, rfl⟩
    | some current =>
        -- the organization is compared after the look-up, since it is not in the key
        by_cases horganization : current.organizationId ≠ access.organizationId.val
        · simp only [Proc.raiseIf, if_pos horganization]
          exact .refused ⟨rfl, rfl⟩
        · simp only [Proc.raiseIf, if_neg horganization, Proc.pure_def, Proc.ret_bind]
          by_cases hretired : current.status = .retired
          · simp only [if_pos hretired]
            exact .refused ⟨rfl, rfl⟩
          · simp only [if_neg hretired, Proc.ret_bind]
            exact .verified hscope hcurrent (not_not.1 horganization)
  · rw [if_neg hscope]
    exact .refused ⟨rfl, rfl⟩

/-- A search adds evidence and changes no source. -/
theorem searchContext_effect (query : String) (access : KnowledgeAccessContext) (now : Datetime)
    (limit maxCharacters : Int) (s : State) :
    Effect registry s (.searchContext query access now limit maxCharacters)
      (exec registry s (.searchContext query access now limit maxCharacters)).1
      (exec registry s (.searchContext query access now limit maxCharacters)).2 := by
  simp only [exec, Call.prog, Proc.alone_bind]
  simp only [searchContext, Proc.bind_def, Proc.get_bind, Proc.alone, Proc.modify_bind]
  cases (search registry query access limit maxCharacters now s).1 with
  | error e => exact .refused ⟨rfl, rfl⟩
  | ok validated => exact .retrieved ⟨rfl, rfl⟩

variable (registry) in
/-- What any call does. -/
theorem exec_effect (s : State) (c : Call) :
    Effect registry s c (exec registry s c).1 (exec registry s c).2 := by
  cases c with
  | register command access now => exact register_effect command access now s
  | verify sourceId sourceVersion access now =>
      exact verify_effect sourceId sourceVersion access now s
  | searchContext query access now limit maxCharacters =>
      exact searchContext_effect query access now limit maxCharacters s

/-! ## The versions that stay -/

/-- Nothing but the status and who verified it, and when, is different. -/
def SourceVersionRecord.Alike (r r' : SourceVersionRecord) : Prop :=
  r' = { r with status := r'.status, verifiedBy := r'.verifiedBy, verifiedAt := r'.verifiedAt }

/-- A record is alike itself. -/
theorem SourceVersionRecord.Alike.refl (r : SourceVersionRecord) : r.Alike r := rfl

/-- Being alike is passed on. -/
theorem SourceVersionRecord.Alike.trans {r r' r'' : SourceVersionRecord} (h : r.Alike r')
    (h' : r'.Alike r'') : r.Alike r'' := by
  rw [Alike] at h h' ⊢
  rw [h', h]

/-- Verification changes nothing but its own three fields. -/
theorem SourceVersionRecord.alike_verifiedAs (r : SourceVersionRecord)
    (access : KnowledgeAccessContext) (now : Datetime) : r.Alike (r.verifiedAs access now) := rfl

/-- The versions of the one state are in the other. -/
def State.Keeps (s s' : State) : Prop :=
  ∀ k r, s.versions.get? k = some r → ∃ r', s'.versions.get? k = some r' ∧ r.Alike r'

/-- A state keeps its versions. -/
theorem State.Keeps.refl (s : State) : s.Keeps s :=
  fun _ r hr => ⟨r, hr, .refl r⟩

/-- What is kept is kept on. -/
theorem State.Keeps.trans {s s' s'' : State} (h : s.Keeps s') (h' : s'.Keeps s'') : s.Keeps s'' := by
  intro k r hr
  rcases h k r hr with ⟨r', hr', halike⟩
  rcases h' k r' hr' with ⟨r'', hr'', halike'⟩
  exact ⟨r'', hr'', halike.trans halike'⟩

/-- A call that touches no version keeps them all. -/
theorem State.Kept.keeps {s s' : State} (h : s.Kept s') : s.Keeps s' := by
  intro k r hr
  exact ⟨r, by rwa [h.1], .refl r⟩

/-- A call keeps the versions. -/
theorem exec_keeps (s : State) (c : Call) : s.Keeps (exec registry s c).2 := by
  have heffect := exec_effect registry s c
  generalize (exec registry s c).1 = result at heffect
  generalize (exec registry s c).2 = s' at heffect ⊢
  cases heffect with
  | refused hkept => exact hkept.keeps
  | replayed => exact .refl s
  | @received command access now hadmitted hnew =>
      intro k r hr
      refine ⟨r, ?_, .refl r⟩
      -- the version that is put is new
      exact Table.get?_put_of_none (received_key ▸ hnew) hr
  | @verified sourceId sourceVersion access now current hscope hcurrent horganization =>
      intro k r hr
      have hkey := Table.key_of_get? hcurrent
      by_cases hk : (current.verifiedAs access now).key = k
      · refine ⟨current.verifiedAs access now, ?_, ?_⟩
        · rw [← hk]
          exact Table.get?_put_self _ _
        · have hcurrent' : current.key = k := hk
          rw [← hcurrent', hkey, hcurrent] at hr
          cases hr
          exact current.alike_verifiedAs access now
      · exact ⟨r, (Table.get?_put_of_ne _ hk).trans hr, .refl r⟩
  | retrieved hkept => exact hkept.keeps

/-- A run keeps the versions. -/
theorem after_keeps (s : State) (cs : List Call) : s.Keeps (after registry s cs) := by
  induction cs generalizing s with
  | nil => exact .refl s
  | cons c cs ih => exact (exec_keeps s c).trans (ih _)

/-! ## The invariant -/

/-- Somebody of the organization of the record, who may, has verified it in the run. -/
def VerifiedIn (registry : SourceRegistry) (s : State) (cs : List Call) (r : SourceVersionRecord) :
    Prop :=
  ∃ pre access now post, cs = pre ++ .verify r.sourceId r.sourceVersion access now :: post ∧
    "scope.sources.verify" ∈ access.scopeRefs.val ∧ access.tenantId.val = r.tenantId ∧
    access.workspaceId.val = r.workspaceId ∧ access.organizationId.val = r.organizationId ∧
    (exec registry (after registry s pre) (.verify r.sourceId r.sourceVersion access now)).1.isOk

/-- What a call of the run has verified is verified later too. -/
theorem VerifiedIn.snoc {s : State} {cs : List Call} {r : SourceVersionRecord}
    (h : VerifiedIn registry s cs r) (c : Call) : VerifiedIn registry s (cs ++ [c]) r := by
  rcases h with ⟨pre, access, now, post, rfl, h⟩
  exact ⟨pre, access, now, post ++ [c], by simp, h⟩

/-- The state of a run from `start`. -/
structure Sound (registry : SourceRegistry) (start : State) (cs : List Call) (s : State) : Prop where
  hashed : ∀ r ∈ s.versions.values, r.contentHash = contentHash registry r.content
  classified : ∀ r ∈ s.versions.values,
    s.classifications.get? r.key.source = some (r.key.source, r.dataClassification)
  verified : ∀ r ∈ s.versions.values, r.status = .verified → VerifiedIn registry start cs r

/-- Nothing is stored yet, so nothing is wrong. -/
theorem sound_created (evidence : EvidenceTable) :
    Sound registry (created evidence) [] (created evidence) where
  hashed := by
    intro r hr
    cases hr
  classified := by
    intro r hr
    cases hr
  verified := by
    intro r hr
    cases hr

/-- A call that touches no version keeps the state sound. -/
theorem Sound.kept {start s s' : State} {cs : List Call} (h : Sound registry start cs s)
    (hkept : s.Kept s') (c : Call) : Sound registry start (cs ++ [c]) s' := by
  refine ⟨?_, ?_, ?_⟩
  all_goals rw [hkept.1]
  · exact h.hashed
  · rw [hkept.2]
    exact h.classified
  · exact fun r hr hstatus => (h.verified r hr hstatus).snoc c

/-- The state after one more call. -/
theorem after_snoc (s : State) (cs : List Call) (c : Call) :
    after registry s (cs ++ [c]) = (exec registry (after registry s cs) c).2 := by
  simp [after]

/-- A call keeps the invariant. -/
theorem Sound.exec {start : State} {cs : List Call}
    (h : Sound registry start cs (after registry start cs)) (c : Call) :
    Sound registry start (cs ++ [c]) (exec registry (after registry start cs) c).2 := by
  generalize hs : after registry start cs = s at h
  have heffect := exec_effect registry s c
  generalize hresult : (Sources.exec registry s c).1 = result at heffect
  generalize (Sources.exec registry s c).2 = s' at heffect
  cases heffect with
  | refused hkept => exact h.kept hkept c
  | replayed => exact h.kept ⟨rfl, rfl⟩ _
  | retrieved hkept => exact h.kept hkept _
  | @received command access now hadmitted hnew =>
      refine ⟨?_, ?_, ?_⟩
      all_goals simp only [State.receive]
      · intro r hr
        rcases Table.mem_put.1 hr with rfl | ⟨hr, -⟩
        · rfl
        · exact h.hashed r hr
      · intro r hr
        rcases Table.mem_put.1 hr with rfl | ⟨hr, -⟩
        · exact Table.get?_put_self _ _
        · rw [Table.get?_put]
          -- a version of the same source has the classification that was admitted
          by_cases hsource : (received registry command access now).key.source = r.key.source
          · have hclass := h.classified r hr
            have hsame : r.dataClassification = command.dataClassification := by
              rw [← hsource] at hclass
              exact hadmitted.2.2 _ hclass
            rw [if_pos hsource, hsource, hsame]
            rfl
          · rw [if_neg hsource]
            exact h.classified r hr
      · intro r hr hstatus
        rcases Table.mem_put.1 hr with rfl | ⟨hr, -⟩
        · cases hstatus
        · exact (h.verified r hr hstatus).snoc _
  | @verified sourceId sourceVersion access now current hscope hcurrent horganization =>
      have hkey := Table.key_of_get? hcurrent
      have hmem := Table.mem_of_get? hcurrent
      refine ⟨?_, ?_, ?_⟩
      · intro r hr
        rcases Table.mem_put.1 hr with rfl | ⟨hr, -⟩
        · exact h.hashed current hmem
        · exact h.hashed r hr
      · intro r hr
        rcases Table.mem_put.1 hr with rfl | ⟨hr, -⟩
        · exact h.classified current hmem
        · exact h.classified r hr
      · intro r hr hstatus
        rcases Table.mem_put.1 hr with rfl | ⟨hr, -⟩
        · simp only [SourceVersionRecord.key, VersionKey.mk.injEq, SourceKey.mk.injEq] at hkey
          rcases hkey with ⟨⟨htenant, hworkspace, hid⟩, hversion⟩
          subst hid hversion
          refine ⟨cs, access, now, [], rfl, hscope, htenant.symm, hworkspace.symm,
            horganization.symm, ?_⟩
          simp only [SourceVersionRecord.verifiedAs]
          rw [hs, hresult]
          rfl
        · exact (h.verified r hr hstatus).snoc _

/-- The state is sound after any calls. -/
theorem sound_after (evidence : EvidenceTable) (cs : List Call) :
    Sound registry (created evidence) cs (after registry (created evidence) cs) := by
  induction cs using List.reverseRecOn with
  | nil => exact sound_created evidence
  | append_singleton cs c ih =>
      rw [after_snoc]
      exact ih.exec c

/-- A run keeps what it has stored, and verifies a version only for its own
organization; a registration that raises stores nothing. -/
theorem versions_are_immutable (registry : SourceRegistry) (evidence : EvidenceTable)
    (cs ds : List Call) :
    let s := after registry (created evidence) cs
    s.Keeps (after registry s ds) ∧
      (∀ r ∈ s.versions.values, r.contentHash = contentHash registry r.content) ∧
      (∀ r ∈ s.versions.values, ∀ r' ∈ s.versions.values, r.key.source = r'.key.source →
        r.dataClassification = r'.dataClassification) ∧
      (∀ r ∈ s.versions.values, r.status = .verified →
        VerifiedIn registry (created evidence) cs r) ∧
      (∀ sourceId sourceVersion access now reply,
        (exec registry s (.verify sourceId sourceVersion access now)).1 = .ok reply →
          ∃ current, s.versions.get?
              ⟨⟨access.tenantId.val, access.workspaceId.val, sourceId⟩, sourceVersion⟩ = some current ∧
            (exec registry s (.verify sourceId sourceVersion access now)).2 =
              { s with versions := s.versions.put { current with
                  status := .verified
                  verifiedBy := some access.actorId.val
                  verifiedAt := some now } }) ∧
      (∀ command access now e, (exec registry s (.register command access now)).1 = .error e →
        s.Kept (exec registry s (.register command access now)).2) := by
  intro s
  -- the run up to here has stored sound records only
  have hsound : Sound registry (created evidence) cs s := sound_after evidence cs
  refine ⟨after_keeps s ds, hsound.hashed, ?_, hsound.verified, ?_, ?_⟩
  · intro r hr r' hr' hsource
    have hclass := hsound.classified r hr
    rw [hsource, hsound.classified r' hr'] at hclass
    exact (congrArg Prod.snd (Option.some.inj hclass)).symm
  · intro sourceId sourceVersion access now reply hreply
    have heffect := exec_effect registry s (.verify sourceId sourceVersion access now)
    rw [hreply] at heffect
    generalize (exec registry s (.verify sourceId sourceVersion access now)).2 = s' at heffect ⊢
    cases heffect with
    | verified hscope hcurrent horganization => exact ⟨_, hcurrent, rfl⟩
  · intro command access now e he
    have heffect := exec_effect registry s (.register command access now)
    rw [he] at heffect
    generalize (exec registry s (.register command access now)).2 = s' at heffect ⊢
    cases heffect with
    | refused hkept => exact hkept

/-! ## A version that is registered again -/

/-- The record is of the command and the context. -/
structure Carries (command : SourceRegistration) (access : KnowledgeAccessContext)
    (r : SourceVersionRecord) : Prop where
  title : r.title = command.title
  sourceType : r.sourceType = command.sourceType
  dataClassification : r.dataClassification = command.dataClassification
  storageUri : r.storageUri = command.storageUri
  documentId : r.documentId = command.documentId
  content : r.content = command.content
  tenantId : r.tenantId = access.tenantId.val
  organizationId : r.organizationId = access.organizationId.val
  workspaceId : r.workspaceId = access.workspaceId.val

/-- The record a registration makes carries what was registered. -/
theorem carries_received (registry : SourceRegistry) (command : SourceRegistration)
    (access : KnowledgeAccessContext) (now : Datetime) :
    Carries command access (received registry command access now) :=
  ⟨rfl, rfl, rfl, rfl, rfl, rfl, rfl, rfl, rfl⟩

/-- A registration returns what it was asked to store, and rejects another record
of the same content. -/
structure Faithful (registry : SourceRegistry) (command : SourceRegistration)
    (access : KnowledgeAccessContext) (now : Datetime) (env : Env Question Answer) (s : State) :
    Prop where
  carries : ∀ r, ((register registry command access now).alone env s).result = .ok r →
    Carries command access r
  rejects : ∀ existing, s.versions.get? (versionKey command access) = some existing →
    existing.content = command.content → ¬ Carries command access existing →
      ∃ e, ((register registry command access now).alone env s).result = .error e

/-- A version that is found with the hash of the content is the same in the fields
that the code does not compare. -/
def SameAgain (registry : SourceRegistry) (command : SourceRegistration)
    (access : KnowledgeAccessContext) (s : State) : Prop :=
  ∀ existing, s.versions.get? (versionKey command access) = some existing →
    Admitted command access s → existing.contentHash = contentHash registry command.content →
      existing.organizationId = access.organizationId.val ∧ existing.title = command.title ∧
        existing.sourceType = command.sourceType ∧
        existing.dataClassification = command.dataClassification ∧
        existing.storageUri = command.storageUri ∧ existing.documentId = command.documentId ∧
        existing.content = command.content

/-- What is returned is stored under the key, or it is the new record. -/
theorem register_returns {r : SourceVersionRecord}
    (h : ((register registry command access now).alone env s).result = .ok r) :
    Admitted command access s ∧
      (s.versions.get? (versionKey command access) = none ∧ r = received registry command access now ∨
        s.versions.get? (versionKey command access) = some r ∧
          r.contentHash = contentHash registry command.content) := by
  -- past the checks on the caller the version is new, or there with the same hash
  by_cases hadmitted : Admitted command access s
  · refine ⟨hadmitted, ?_⟩
    rw [register_of_admitted hadmitted] at h
    cases hexisting : s.versions.get? (versionKey command access) with
    | none =>
        simp only [hexisting, Proc.alone] at h
        rcases Proc.alone_bind_ok h with ⟨_, -, h⟩
        cases h
        exact .inl ⟨rfl, rfl⟩
    | some existing =>
        simp only [hexisting] at h
        by_cases hhash : existing.contentHash = contentHash registry command.content
        · simp only [if_pos hhash] at h
          cases h
          exact .inr ⟨rfl, hhash⟩
        · simp only [if_neg hhash] at h
          cases h
  · obtain ⟨e, he⟩ : ∃ e, (register registry command access now).alone env s = ⟨s, .error e, []⟩ :=
      register_of_not_admitted hadmitted
    rw [he] at h
    cases h

/-- A version that is found with the hash of the content is returned as it is. -/
theorem register_replays {existing : SourceVersionRecord} (hadmitted : Admitted command access s)
    (hexisting : s.versions.get? (versionKey command access) = some existing)
    (hhash : existing.contentHash = contentHash registry command.content) :
    ((register registry command access now).alone env s).result = .ok existing := by
  rw [register_of_admitted hadmitted]
  simp only [hexisting, if_pos hhash]
  rfl

/-- A registration is faithful exactly when no other version was stored under its key. -/
theorem registration_faithful_iff (registry : SourceRegistry) (command : SourceRegistration)
    (access : KnowledgeAccessContext) (now : Datetime) (env : Env Question Answer) (s : State) :
    Faithful registry command access now env s ↔ SameAgain registry command access s := by
  constructor
  · intro h existing hexisting hadmitted hhash
    have hcarries := h.carries existing (register_replays hadmitted hexisting hhash)
    exact ⟨hcarries.organizationId, hcarries.title, hcarries.sourceType,
      hcarries.dataClassification, hcarries.storageUri, hcarries.documentId, hcarries.content⟩
  · intro h
    have hcarries : ∀ r, ((register registry command access now).alone env s).result = .ok r →
        Carries command access r := by
      intro r hr
      rcases register_returns hr with ⟨hadmitted, ⟨-, rfl⟩ | ⟨hexisting, hhash⟩⟩
      · exact carries_received registry command access now
      · obtain ⟨horganization, htitle, htype, hclass, huri, hdocument, hcontent⟩ :=
          h r hexisting hadmitted hhash
        -- the tenant and the workspace are in the key
        have hkey := Table.key_of_get? hexisting
        simp only [SourceVersionRecord.key, versionKey, VersionKey.mk.injEq, SourceKey.mk.injEq] at hkey
        exact ⟨htitle, htype, hclass, huri, hdocument, hcontent, hkey.1.1, horganization, hkey.1.2.1⟩
    refine ⟨hcarries, fun existing hexisting _ hdiffers => ?_⟩
    cases hresult : ((register registry command access now).alone env s).result with
    | error e => exact ⟨e, rfl⟩
    | ok r =>
        rcases register_returns hresult with ⟨-, ⟨hnew, -⟩ | ⟨hfound, -⟩⟩
        · rw [hnew] at hexisting
          cases hexisting
        · rw [hfound] at hexisting
          cases hexisting
          exact absurd (hcarries _ hresult) hdiffers

end Immutable

/-- A caller of another organization in the workspace. -/
def stranger : KnowledgeAccessContext := { tenantA with organizationId := ⟨"other", by decide⟩ }

/-- It is answered with the record of the first organization. -/
theorem answered_with_the_record_of_others :
    ¬ Faithful plain { manual with title := "Pumps" } stranger 0 calm registered := by
  intro h
  have hcarries := h.carries _ rfl
  exact absurd hcarries.title (by decide)

end Alos.Sources
