import Alos.Sources.Service

/-! # What a search sees of others

Two states that agree on what a tenant and a workspace have of their own. A
search reads their sources only, but registers its excerpts in the dict that
all tenants share.

* `Agree` relates the states; any run of others' calls leads from one to another
  (`agree_of_run`);
* `offered` is what a search stores when nothing is in its way, `HeldByOthers` says
  that others store something under an id of it;
* `search_isolated_iff`: the outcomes differ exactly when they do so in one of the
  states only;
* `copied_source`: that happens when two tenants register the same source.
-/

namespace Alos.Sources

open Coop Py Tools

/-! ## Calls -/

/-- A call of the registry. -/
inductive Call where
  | register (command : SourceRegistration) (access : KnowledgeAccessContext) (now : Datetime)
  | verify (sourceId sourceVersion : String) (access : KnowledgeAccessContext) (now : Datetime)
  | searchContext (query : String) (access : KnowledgeAccessContext) (now : Datetime)
      (limit maxCharacters : Int)

/-- What a call returns. -/
inductive Reply where
  | record (record : SourceVersionRecord)
  | context (validated : Json.Fields)

/-- The tenant, the workspace and the scopes that a call is made with. -/
def Call.access : Call → KnowledgeAccessContext
  | .register _ access _ => access
  | .verify _ _ access _ => access
  | .searchContext _ access _ _ _ => access

/-- The coroutine of a call, for the caller it names. -/
def Call.prog (registry : SourceRegistry) : Call → Op Reply
  | .register command access now =>
      (Sources.register registry command access now).bind fun r => .ret (.record r)
  | .verify sourceId sourceVersion access now =>
      (Sources.verify sourceId sourceVersion access now).bind fun r => .ret (.record r)
  | .searchContext query access now limit maxCharacters =>
      (Sources.searchContext registry query access now limit maxCharacters).bind fun v =>
        .ret (.context v)

section Isolation

variable (registry : SourceRegistry) (access : KnowledgeAccessContext)

/-- The record is of the tenant and the workspace. -/
def Own (record : SourceVersionRecord) : Prop :=
  record.tenantId = access.tenantId.val ∧ record.workspaceId = access.workspaceId.val

instance (record : SourceVersionRecord) : Decidable (Own access record) :=
  inferInstanceAs (Decidable (_ ∧ _))

/-- The evidence is of the tenant and the workspace. -/
def OwnEvidence (evidence : Json.Fields) : Prop :=
  evidence.get? "tenant_id" = some (.str access.tenantId.val) ∧
    evidence.get? "workspace_id" = some (.str access.workspaceId.val)

instance (evidence : Json.Fields) : Decidable (OwnEvidence access evidence) :=
  inferInstanceAs (Decidable (_ ∧ _))

/-- The same own evidence under every id. -/
def SameEvidence (m m' : EvidenceTable) : Prop :=
  ∀ item : String × Json.Fields, OwnEvidence access item.2 →
    (m.get? item.1 = some item ↔ m'.get? item.1 = some item)

/-- Two states that differ in what others have done only. -/
structure Agree (s s' : State) : Prop where
  versions : (s.versions.values.filter fun record => Own access record) =
    s'.versions.values.filter fun record => Own access record
  evidence : SameEvidence access s.evidence s'.evidence

variable {access} in
/-- Agreement is mutual. -/
theorem Agree.symm {s s' : State} (h : Agree access s s') : Agree access s' s :=
  ⟨h.versions.symm, fun item hown => (h.evidence item hown).symm⟩

/-! ## The passages of a search -/

/-- The passages that the loop comes to; `n` have been taken. -/
def select (limit : Int) : List Candidate → ℕ → Int → List Passage
  | [], _, _ => []
  | candidate :: rest, n, remaining =>
      if limit ≤ n ∨ remaining ≤ 0 then []
      else
        let excerpt := rstrip (candidate.chunk.text.take remaining.toNat)
        if excerpt = [] then []
        else ⟨candidate.source, candidate.chunk, String.ofList excerpt⟩ ::
          select limit rest (n + 1) (remaining - excerpt.length)

/-- The payloads are registered one after the other. -/
def registerAll : List Json.Fields → EvidenceTable → Except EvidenceError Unit
  | [], _ => .ok ()
  | payload :: rest, m =>
      match registry.toEvidenceRegistry.register m payload with
      | .error e => .error e
      | .ok (_, m') => registerAll rest m'

variable {registry access} in
/-- The loop registers the passages that it selects, and collects them. -/
theorem collect_eq (limit : Int) (cs : List Candidate) (remaining : Int) (collected : Collected)
    (m : EvidenceTable) :
    (collect registry access limit cs remaining collected m).1 =
      let passages := select limit cs collected.items.length remaining
      match registerAll registry (passages.map fun p => p.payload registry access) m with
      | .error e => .error (.evidence e)
      | .ok () => .ok ⟨collected.items ++ passages.map fun p => p.item registry,
          collected.evidenceRefs ++ passages.map fun p => .obj (p.payload registry access)⟩ := by
  induction cs generalizing remaining collected m with
  | nil => simp [collect, select, registerAll]
  | cons candidate rest ih =>
      simp only [collect, select]
      by_cases hdone : limit ≤ collected.items.length ∨ remaining ≤ 0
      · simp [if_pos hdone, registerAll]
      · rw [if_neg hdone, if_neg hdone]
        -- a passage that is cut to nothing ends the loop
        by_cases hempty : rstrip (candidate.chunk.text.take remaining.toNat) = []
        · simp [if_pos hempty, registerAll]
        · rw [if_neg hempty, if_neg hempty]
          simp only [List.map_cons, registerAll, EvidenceRegistry.register_eq]
          generalize hpayload : Passage.payload registry
            ⟨candidate.source, candidate.chunk, String.ofList
              (rstrip (candidate.chunk.text.take remaining.toNat))⟩ access = payload
          cases registry.evidenceId payload with
          | error e => rfl
          | ok evidenceId =>
              simp only
              by_cases hdiffers : registry.Differs m evidenceId payload
              · rw [if_pos hdiffers]
              · rw [if_neg hdiffers]
                simp only [ih]
                simp

/-! ## What is in the way -/

/-- The payloads under the ids that they are registered by, up to the first one
that the contract refuses. -/
def entries : List Json.Fields → List (String × Json.Fields)
  | [] => []
  | payload :: rest =>
      match registry.evidenceId payload with
      | .error _ => []
      | .ok evidenceId => (evidenceId, payload) :: entries rest

/-- What the contract says of the payloads, one after the other. -/
def checkAll : List Json.Fields → Except EvidenceError Unit
  | [] => .ok ()
  | payload :: rest =>
      match registry.evidenceId payload with
      | .error e => .error e
      | .ok _ => checkAll rest

/-- One of the entries is not what is stored, or what another entry stores, under
its id. -/
def Clash (entries : List (String × Json.Fields)) (m : EvidenceTable) : Prop :=
  ∃ x ∈ entries, registry.Differs m x.1 x.2 ∨
    ∃ y ∈ entries, y.1 = x.1 ∧ ¬ registry.Alike y.2 x.2

instance (entries : List (String × Json.Fields)) (m : EvidenceTable) :
    Decidable (Clash registry entries m) :=
  inferInstanceAs (Decidable (∃ x ∈ entries, _ ∨ ∃ y ∈ entries, _))

variable {registry access}

/-- Each entry comes from one of the payloads. -/
theorem mem_entries {payloads : List Json.Fields} {x : String × Json.Fields}
    (h : x ∈ entries registry payloads) : x.2 ∈ payloads := by
  induction payloads with
  | nil => cases h
  | cons payload rest ih =>
      simp only [entries] at h
      cases hid : registry.evidenceId payload with
      | error e =>
          rw [hid] at h
          cases h
      | ok evidenceId =>
          rw [hid] at h
          rcases List.mem_cons.1 h with rfl | h
          · exact List.mem_cons_self
          · exact List.mem_cons_of_mem _ (ih h)

/-- The checks on a payload itself never speak of a conflict. -/
theorem checkAll_ne_conflict (payloads : List Json.Fields) (message : String) :
    checkAll registry payloads ≠ .error (.conflict message) := by
  induction payloads with
  | nil => simp [checkAll]
  | cons payload rest ih =>
      simp only [checkAll]
      cases hid : registry.evidenceId payload with
      | error e =>
          intro hconflict
          cases hconflict
          exact registry.evidenceId_ne_conflict payload message hid
      | ok evidenceId => exact ih

/-- An entry that is stored is compared with the later ones. -/
theorem differs_put {m : EvidenceTable} {x : String × Json.Fields} {evidenceId : String}
    {payload : Json.Fields} : registry.Differs (m.put x) evidenceId payload ↔
      if x.1 = evidenceId then ¬ registry.Alike x.2 payload
      else registry.Differs m evidenceId payload := by
  unfold EvidenceRegistry.Differs
  rw [Table.get?_put]
  split
  · simp
  · exact Iff.rfl

/-- An entry that does not differ may as well be stored before the others. -/
theorem clash_cons {m : EvidenceTable} {x : String × Json.Fields}
    {rest : List (String × Json.Fields)} (hx : ¬ registry.Differs m x.1 x.2) :
    Clash registry (x :: rest) m ↔ Clash registry rest (m.put x) := by
  constructor
  · rintro ⟨y, hy, hclash⟩
    rcases List.mem_cons.1 hy with rfl | hy
    · -- `x` itself clashes with a later entry
      rcases hclash with hdiffers | ⟨z, hz, hid, hne⟩
      · exact absurd hdiffers hx
      · rcases List.mem_cons.1 hz with rfl | hz
        · exact absurd (Equal.refl _) hne
        · refine ⟨z, hz, .inl (differs_put.2 ?_)⟩
          rw [if_pos hid.symm]
          exact fun halike => hne halike.symm
    · by_cases hid : x.1 = y.1
      · -- a later entry has the id of `x`: it clashes with it, or what is like it
        by_cases halike : registry.Alike x.2 y.2
        · rcases hclash with ⟨existing, hexisting, hne⟩ | ⟨z, hz, hzid, hne⟩
          · refine absurd ⟨existing, hid ▸ hexisting, fun h => hne (h.trans halike)⟩ hx
          · rcases List.mem_cons.1 hz with rfl | hz
            · exact absurd halike hne
            · exact ⟨y, hy, .inr ⟨z, hz, hzid, hne⟩⟩
        · refine ⟨y, hy, .inl (differs_put.2 ?_)⟩
          rwa [if_pos hid]
      · rcases hclash with hdiffers | ⟨z, hz, hzid, hne⟩
        · refine ⟨y, hy, .inl (differs_put.2 ?_)⟩
          rwa [if_neg hid]
        · rcases List.mem_cons.1 hz with rfl | hz
          · exact absurd hzid hid
          · exact ⟨y, hy, .inr ⟨z, hz, hzid, hne⟩⟩
  · rintro ⟨y, hy, hclash⟩
    refine ⟨y, List.mem_cons_of_mem _ hy, ?_⟩
    rcases hclash with hdiffers | ⟨z, hz, hzid, hne⟩
    · rw [differs_put] at hdiffers
      split at hdiffers
      · rename_i hid
        exact .inr ⟨x, List.mem_cons_self, hid, hdiffers⟩
      · exact .inl hdiffers
    · exact .inr ⟨z, List.mem_cons_of_mem _ hz, hzid, hne⟩

/-- Without entries there is no clash. -/
theorem not_clash_nil (m : EvidenceTable) : ¬ Clash registry [] m := by
  rintro ⟨x, hx, -⟩
  exact List.not_mem_nil hx

/-- What registering the payloads comes to: a clash of any of them, else what the
contract says. -/
theorem registerAll_eq (payloads : List Json.Fields) (m : EvidenceTable) :
    (Clash registry (entries registry payloads) m ∧ registerAll registry payloads m =
        .error (.conflict "immutable evidence_id already has different content")) ∨
      (¬ Clash registry (entries registry payloads) m ∧
        registerAll registry payloads m = checkAll registry payloads) := by
  induction payloads generalizing m with
  | nil => exact .inr ⟨not_clash_nil _, rfl⟩
  | cons payload rest ih =>
      simp only [registerAll, entries, checkAll, EvidenceRegistry.register_eq]
      cases hid : registry.evidenceId payload with
      | error e => exact .inr ⟨not_clash_nil _, rfl⟩
      | ok evidenceId =>
          simp only
          -- the payload clashes with what is stored, or is stored before the rest
          by_cases hdiffers : registry.Differs m evidenceId payload
          · rw [if_pos hdiffers]
            exact .inl ⟨⟨_, List.mem_cons_self, .inl hdiffers⟩, rfl⟩
          · rw [if_neg hdiffers, clash_cons hdiffers]
            exact ih _

/-! ## Evidence of others and of one's own -/

/-- Evidence of another tenant or workspace is stored under the id. -/
def HeldByOthers (access : KnowledgeAccessContext) (m : EvidenceTable) (evidenceId : String) :
    Prop :=
  ∃ existing ∈ m.get? evidenceId, ¬ OwnEvidence access existing.2

instance (m : EvidenceTable) (evidenceId : String) :
    Decidable (HeldByOthers access m evidenceId) := by
  unfold HeldByOthers
  infer_instance

/-- What is the context's own contradicts the entries: its evidence under the id of
one of them, or another one with the same id. -/
def Contradicted (registry : SourceRegistry) (access : KnowledgeAccessContext)
    (entries : List (String × Json.Fields)) (m : EvidenceTable) : Prop :=
  ∃ x ∈ entries, (∃ existing ∈ m.get? x.1, OwnEvidence access existing.2 ∧
      ¬ registry.Alike existing.2 x.2) ∨ ∃ y ∈ entries, y.1 = x.1 ∧ ¬ registry.Alike y.2 x.2

/-- What is equal to own evidence is own evidence. -/
theorem OwnEvidence.of_alike {a b : Json.Fields} (h : OwnEvidence access a)
    (halike : registry.Alike a b) (hb : b.Nodup) : OwnEvidence access b :=
  ⟨get?_str_of_equal halike hb h.1, get?_str_of_equal halike hb h.2⟩

theorem Passage.payload_nodup (passage : Passage) : (passage.payload registry access).Nodup := by
  change (List.map Prod.fst (passage.payload registry access)).Nodup
  simp [Passage.payload]

/-- Own entries clash with what others hold, whatever it says, or with what is own. -/
theorem clash_iff {xs : List (String × Json.Fields)} {m : EvidenceTable}
    (hown : ∀ x ∈ xs, OwnEvidence access x.2 ∧ x.2.Nodup) : Clash registry xs m ↔
      Contradicted registry access xs m ∨ ∃ x ∈ xs, HeldByOthers access m x.1 := by
  constructor
  · rintro ⟨x, hx, ⟨existing, hexisting, hne⟩ | hother⟩
    · by_cases hmine : OwnEvidence access existing.2
      · exact .inl ⟨x, hx, .inl ⟨existing, hexisting, hmine, hne⟩⟩
      · exact .inr ⟨x, hx, existing, hexisting, hmine⟩
    · exact .inl ⟨x, hx, .inr hother⟩
  · rintro (⟨x, hx, ⟨existing, hexisting, -, hne⟩ | hother⟩ | ⟨x, hx, existing, hexisting, hnot⟩)
    · exact ⟨x, hx, .inl ⟨existing, hexisting, hne⟩⟩
    · exact ⟨x, hx, .inr hother⟩
    · -- the tenant or the workspace of what others hold differs
      have ⟨hmine, hnodup⟩ := hown x hx
      refine ⟨x, hx, .inl ⟨existing, hexisting, fun halike => hnot ?_⟩⟩
      exact hmine.of_alike halike.symm (nodup_of_equal halike hnodup)

/-- Own evidence that contradicts the entries is in both dicts. -/
theorem SameEvidence.contradicted {m m' : EvidenceTable} (h : SameEvidence access m m')
    {xs : List (String × Json.Fields)} (hclash : Contradicted registry access xs m) :
    Contradicted registry access xs m' := by
  rcases hclash with ⟨x, hx, ⟨existing, hexisting, hown, hne⟩ | hother⟩
  · have hkey : existing.1 = x.1 := Table.key_of_get? hexisting
    refine ⟨x, hx, .inl ⟨existing, ?_, hown, hne⟩⟩
    rw [Option.mem_def, ← hkey] at hexisting ⊢
    exact (h existing hown).1 hexisting
  · exact ⟨x, hx, .inr hother⟩

/-! ## What others do -/

section Others

variable {other : KnowledgeAccessContext}

/-- Of another tenant or workspace. -/
def Foreign (access other : KnowledgeAccessContext) : Prop :=
  ¬ (other.tenantId.val = access.tenantId.val ∧ other.workspaceId.val = access.workspaceId.val)

instance (access other : KnowledgeAccessContext) : Decidable (Foreign access other) :=
  inferInstanceAs (Decidable (¬ (_ ∧ _)))

/-- Every state agrees with itself. -/
theorem Agree.refl (s : State) : Agree access s s :=
  ⟨rfl, fun _ _ => Iff.rfl⟩

/-- So is agreement about the evidence. -/
theorem SameEvidence.trans {m m' m'' : EvidenceTable} (h : SameEvidence access m m')
    (h' : SameEvidence access m' m'') : SameEvidence access m m'' :=
  fun item hown => (h item hown).trans (h' item hown)

/-- A record of others is put where no own record is. -/
theorem own_put (versions : Table SourceVersionRecord.key) {record : SourceVersionRecord}
    (h : ¬ Own access record) : ((versions.put record).values.filter fun r => Own access r) =
      versions.values.filter fun r => Own access r := by
  rw [Table.put_values, assign_filter_not]
  intro y hkey
  simp only [SourceVersionRecord.key, VersionKey.mk.injEq, SourceKey.mk.injEq] at hkey
  -- records under one key are of one tenant and workspace
  have hown : Own access y ↔ Own access record := by
    rw [Own, Own, hkey.1.1, hkey.1.2.1]
  simpa [hown] using h

/-- A record of another place is not seen. -/
theorem Agree.put {s s' : State} (h : Agree access s s') {record : SourceVersionRecord}
    (hrecord : ¬ Own access record)
    (classifications : Table (Prod.fst : SourceKey × DataClassification → SourceKey)) :
    Agree access s ⟨s'.versions.put record, classifications, s'.evidence⟩ :=
  ⟨h.versions.trans (own_put s'.versions hrecord).symm, h.evidence⟩

/-- Evidence of others does not take the place of own evidence. -/
theorem SameEvidence.of_register {m : EvidenceTable} {evidenceId : String} {payload : Json.Fields}
    (hdiffers : ¬ registry.Differs m evidenceId payload)
    (hforeign : ¬ OwnEvidence access payload) (hpayload : payload.Nodup) :
    SameEvidence access m (m.put (evidenceId, payload)) := by
  intro item hown
  by_cases hid : evidenceId = item.1
  · subst hid
    rw [Table.get?_put_self]
    constructor
    · intro hget
      -- own evidence under the id would differ in its tenant or workspace
      exact absurd ⟨item, hget, fun hsame => hforeign (hown.of_alike hsame hpayload)⟩ hdiffers
    · intro hget
      have hpayload : payload = item.2 := congrArg Prod.snd (Option.some.inj hget)
      exact absurd (hpayload ▸ hown) hforeign
  · rw [Table.get?_put_of_ne _ hid]

/-- A search of others registers evidence of theirs only. -/
theorem SameEvidence.of_collect (hforeign : Foreign access other) (limit : Int)
    (cs : List Candidate) (remaining : Int) (collected : Collected) (m : EvidenceTable) :
    SameEvidence access m (collect registry other limit cs remaining collected m).2 := by
  induction cs generalizing remaining collected m with
  | nil => exact fun _ _ => Iff.rfl
  | cons candidate rest ih =>
      simp only [collect]
      split
      · exact fun _ _ => Iff.rfl
      split
      · exact fun _ _ => Iff.rfl
      generalize Passage.mk candidate.source candidate.chunk _ = passage
      simp only [EvidenceRegistry.register_eq]
      cases registry.evidenceId (passage.payload registry other) with
      | error e => exact fun _ _ => Iff.rfl
      | ok evidenceId =>
          simp only
          by_cases hdiffers : registry.Differs m evidenceId (passage.payload registry other)
          · rw [if_pos hdiffers]
            exact fun _ _ => Iff.rfl
          · rw [if_neg hdiffers]
            have hpayload : (passage.payload registry other).Nodup := passage.payload_nodup
            -- a payload names the tenant and the workspace of its caller
            have hothers : ¬ OwnEvidence access (passage.payload registry other) := by
              rintro ⟨htenant, hworkspace⟩
              exact hforeign ⟨Json.str.inj (Option.some.inj htenant),
                Json.str.inj (Option.some.inj hworkspace)⟩
            exact (SameEvidence.of_register hdiffers hothers hpayload).trans (ih _ _ _)

/-- Recording an event changes no source. -/
theorem record_state (entityId eventType result : String) (env : Env Question Answer) (s : State) :
    ((record other entityId eventType result).alone env s).state = s := by
  simp only [record, Proc.bind_def, Proc.ask_bind, Proc.alone]
  cases env 0 (.append (auditEvent other entityId eventType result)) <;> rfl

/-- What a call of others leaves is a state that agrees. -/
theorem agree_of_register (hforeign : Foreign access other) (command : SourceRegistration)
    (now : Datetime) (env : Env Question Answer) (s : State) :
    Agree access s ((register registry command other now).alone env s).state := by
  have hrefl : Agree access s s := .refl s
  refine Proc.alone_bind_keeps (by rwa [Proc.alone_ofExcept_state]) fun _ env s' h => ?_
  refine Proc.alone_bind_keeps (by rwa [Proc.alone_raiseIf_state]) fun _ env s' h => ?_
  simp only [Proc.bind_def, Proc.get_bind, Proc.alone]
  have hreceived : ¬ Own access (received registry command other now) := hforeign
  have hreplayed : ∀ (existing : SourceVersionRecord) (env : Env Question Answer) (s' : State),
      Agree access s s' → Agree access s (Proc.alone
        (if existing.contentHash = (received registry command other now).contentHash then
          pure existing
        else .raise (SourceError.source "immutable source version already exists")) env s').state := by
    intro existing env s' h
    split
    · exact h
    · exact h
  -- what is put is a record of the caller
  have hput : ∀ (env : Env Question Answer) (s' : State),
      Agree access s s' → Agree access s (Proc.alone ((Proc.modify fun s => { s with
        classifications := s.classifications.put
          ((received registry command other now).key.source, command.dataClassification)
        versions := s.versions.put (received registry command other now) }).bind fun _ =>
          (record other command.sourceId "source.version.registered" "RECEIVED").bind fun _ =>
            pure (received registry command other now)) env s').state := by
    intro env s' h
    exact Proc.alone_bind_keeps (h.put hreceived _) fun _ _ _ h =>
      Proc.alone_bind_keeps (by rwa [record_state]) fun _ _ _ h => h
  split
  · refine Proc.alone_bind_keeps (by rwa [Proc.alone_raiseIf_state]) fun _ env s' h => ?_
    split
    · exact hreplayed _ _ _ h
    · exact hput _ _ h
  · split
    · exact hreplayed _ _ _ h
    · exact hput _ _ h

/-- A verification in another place is not seen. -/
theorem agree_of_verify (hforeign : Foreign access other) (sourceId sourceVersion : String)
    (now : Datetime) (env : Env Question Answer) (s : State) :
    Agree access s ((verify sourceId sourceVersion other now).alone env s).state := by
  have hrefl : Agree access s s := .refl s
  refine Proc.alone_bind_keeps (by rwa [Proc.alone_ofExcept_state]) fun _ env s' h => ?_
  simp only [Proc.bind_def, Proc.get_bind, Proc.alone]
  split
  · exact h
  · rename_i current hcurrent
    have hkey := Table.key_of_get? hcurrent
    simp only [SourceVersionRecord.key, VersionKey.mk.injEq, SourceKey.mk.injEq] at hkey
    refine Proc.alone_bind_keeps (by rwa [Proc.alone_raiseIf_state]) fun _ env s' h => ?_
    refine Proc.alone_bind_keeps (by rwa [Proc.alone_raiseIf_state]) fun _ env s' h => ?_
    refine Proc.alone_bind_keeps (h.put ?_ _) fun _ env s' h => ?_
    · -- the record was found in the place of the caller
      rintro ⟨htenant, hworkspace⟩
      exact hforeign ⟨hkey.1.1.symm.trans htenant, hkey.1.2.1.symm.trans hworkspace⟩
    · exact Proc.alone_bind_keeps (by rwa [record_state]) fun _ _ _ h => h

/-- A search in another place adds evidence of that place only. -/
theorem agree_of_search (hforeign : Foreign access other) (query : String) (now : Datetime)
    (limit maxCharacters : Int) (env : Env Question Answer) (s : State) :
    Agree access s ((searchContext registry query other now limit maxCharacters).alone env s).state := by
  have hevidence : SameEvidence access s.evidence
      (search registry query other limit maxCharacters now s).2 := by
    -- what the loop has stored before it raised is evidence of the other caller too
    have hcollect : SameEvidence access s.evidence (collect registry other limit
        (candidates registry query other s.versions.values) maxCharacters {} s.evidence).2 :=
      SameEvidence.of_collect hforeign limit _ maxCharacters {} s.evidence
    unfold search
    split
    · exact fun _ _ => Iff.rfl
    · cases hc : collect registry other limit (candidates registry query other s.versions.values)
          maxCharacters {} s.evidence with
      | mk result m' =>
          rw [hc] at hcollect
          cases result with
          | error e => exact hcollect
          | ok collected => exact hcollect
  simp only [searchContext, Proc.bind_def, Proc.get_bind, Proc.alone]
  refine Proc.alone_bind_keeps ⟨rfl, hevidence⟩ fun _ env s' h => ?_
  refine Proc.alone_bind_keeps (by rwa [Proc.alone_ofExcept_state]) fun _ env s' h => ?_
  exact Proc.alone_bind_keeps (by rwa [record_state]) fun _ _ _ h => h

/-- The state after a call, whatever the sink answers it. -/
def Call.next (registry : SourceRegistry) (s : State) (c : Call × Env Question Answer) : State :=
  ((c.1.prog registry).alone c.2 s).state

/-- One call of another place, whichever it is. -/
theorem agree_of_call {c : Call} (hforeign : Foreign access c.access) (env : Env Question Answer)
    (s : State) : Agree access s (Call.next registry s (c, env)) := by
  cases c with
  | register command other now =>
      exact Proc.alone_bind_keeps (agree_of_register hforeign command now env s) fun _ _ _ h => h
  | verify sourceId sourceVersion other now =>
      exact Proc.alone_bind_keeps (agree_of_verify hforeign sourceId sourceVersion now env s)
        fun _ _ _ h => h
  | searchContext query other now limit maxCharacters =>
      exact Proc.alone_bind_keeps (agree_of_search hforeign query now limit maxCharacters env s)
        fun _ _ _ h => h

/-- Agreement is passed on. -/
theorem Agree.trans {s s' s'' : State} (h : Agree access s s') (h' : Agree access s' s'') :
    Agree access s s'' :=
  ⟨h.versions.trans h'.versions, h.evidence.trans h'.evidence⟩

/-- A run of others' calls, however many, leaves a state that agrees. -/
theorem agree_of_run {calls : List (Call × Env Question Answer)}
    (hforeign : ∀ c ∈ calls, Foreign access c.1.access) (s : State) :
    Agree access s (calls.foldl (Call.next registry) s) := by
  induction calls generalizing s with
  | nil => exact .refl s
  | cons c rest ih =>
      have hfirst : Agree access s (Call.next registry s c) :=
        agree_of_call (hforeign c List.mem_cons_self) c.2 s
      exact hfirst.trans (ih (fun d hd => hforeign d (List.mem_cons_of_mem _ hd)) _)

end Others

/-! ## The outcome -/

section Outcome

variable (registry access) (query : String) (limit maxCharacters : Int) (now : Datetime)

/-- What a search comes to in a state. -/
def outcome (env : Env Question Answer) (s : State) : Except SourceError Json.Fields :=
  ((searchContext registry query access now limit maxCharacters).alone env s).result

/-- The passages of the search. -/
def passages (s : State) : List Passage :=
  select limit (candidates registry query access s.versions.values) 0 maxCharacters

/-- What the search stores in the dict unless something is in its way: ids and
payloads of its passages, which are of own sources. -/
def offered (s : State) : List (String × Json.Fields) :=
  match checkSearch query access limit maxCharacters with
  | .error _ => []
  | .ok () => entries registry ((passages registry access query limit maxCharacters s).map fun p =>
      p.payload registry access)

/-- The bundle of the passages, when it is valid. -/
def found (passages : List Passage) : Except SourceError Json.Fields :=
  (registry.contracts.validate contextBundleSchema
    (bundle registry query access ⟨passages.map fun p => p.item registry,
      passages.map fun p => .obj (p.payload registry access)⟩ now)).mapError .contract

/-- What a search ends with: a bundle is audited before it is returned. -/
def retrieved (env : Env Question Answer) :
    Except SourceError Json.Fields → Except SourceError Json.Fields
  | .error e => .error e
  | .ok validated =>
      match env 0 (.append (auditEvent access
        (Py.str registry.repr ((validated.get? "context_id").getD .null))
        "source.context.retrieved" "SUCCESS")) with
      | .returned => .ok validated
      | .raised => .error .audit

/-- What a search comes to when nothing is in its way. -/
def unhindered (s : State) : Except SourceError Json.Fields :=
  match checkSearch query access limit maxCharacters with
  | .error e => .error e
  | .ok () =>
      match checkAll registry ((passages registry access query limit maxCharacters s).map fun p =>
        p.payload registry access) with
      | .error e => .error (.evidence e)
      | .ok () => found registry access query now
          (passages registry access query limit maxCharacters s)

variable {registry access query limit maxCharacters now} {env : Env Question Answer}

/-- What a search offers is the context's own. -/
theorem own_of_offered {s : State} {x : String × Json.Fields}
    (hx : x ∈ offered registry access query limit maxCharacters s) :
    OwnEvidence access x.2 ∧ x.2.Nodup := by
  unfold offered at hx
  split at hx
  · cases hx
  · obtain ⟨p, -, hp⟩ := List.mem_map.1 (mem_entries hx)
    rw [← hp]
    exact ⟨⟨rfl, rfl⟩, p.payload_nodup⟩

/-- A search ends with a conflict when what it offers clashes, and is unhindered
otherwise. -/
theorem search_eq (s : State) :
    (Clash registry (offered registry access query limit maxCharacters s) s.evidence ∧
        (search registry query access limit maxCharacters now s).1 =
          .error (.evidence (.conflict "immutable evidence_id already has different content"))) ∨
      (¬ Clash registry (offered registry access query limit maxCharacters s) s.evidence ∧
        (search registry query access limit maxCharacters now s).1 =
          unhindered registry access query limit maxCharacters now s) := by
  unfold search offered unhindered
  cases checkSearch query access limit maxCharacters with
  | error e => exact .inr ⟨not_clash_nil _, rfl⟩
  | ok u =>
      -- the loop stores the evidence of the passages it comes to
      have hcollect := @collect_eq registry access limit
        (candidates registry query access s.versions.values) maxCharacters {} s.evidence
      simp only [List.length_nil, List.nil_append] at hcollect
      simp only [passages]
      generalize hpassages : select limit (candidates registry query access s.versions.values) 0
        maxCharacters = ps at hcollect ⊢
      cases hc : collect registry access limit
          (candidates registry query access s.versions.values) maxCharacters {} s.evidence with
      | mk result m' =>
          rw [hc] at hcollect
          simp only at hcollect
          subst hcollect
          rcases @registerAll_eq registry
            (ps.map fun p => p.payload registry access) s.evidence with
            ⟨hclash, hall⟩ | ⟨hfree, hall⟩
          · exact .inl ⟨hclash, by simp only [hall]⟩
          · refine .inr ⟨hfree, ?_⟩
            simp only [hall]
            cases checkAll registry (ps.map fun p => p.payload registry access) with
            | error e => rfl
            | ok u => rfl

/-- What a caller is told is what the search returns, once the event is recorded. -/
theorem outcome_eq (s : State) :
    outcome registry access query limit maxCharacters now env s =
      retrieved registry access env
        (search registry query access limit maxCharacters now s).1 := by
  simp only [outcome, searchContext, Proc.bind_def, Proc.get_bind, Proc.alone, Proc.modify_bind]
  cases (search registry query access limit maxCharacters now s).1 with
  | error e => rfl
  | ok validated =>
      simp only [retrieved, Proc.ofExcept, Proc.ret_bind, record, Proc.bind_def, Proc.ask_bind,
        Proc.bind, Proc.alone]
      cases env 0 (.append (auditEvent access
        (Py.str registry.repr ((validated.get? "context_id").getD .null))
        "source.context.retrieved" "SUCCESS")) <;> rfl

/-- The checks on the arguments of a search say nothing of evidence. -/
theorem checkSearch_ne_evidence {e : SourceError}
    (h : checkSearch query access limit maxCharacters = .error e) (evidence : EvidenceError) :
    e ≠ .evidence evidence := by
  unfold checkSearch requireScope at h
  repeat' split at h
  all_goals cases h
  all_goals simp

/-- An unhindered search ends otherwise than with a conflict. -/
theorem unhindered_ne_conflict (s : State) (message : String) :
    unhindered registry access query limit maxCharacters now s ≠
      .error (.evidence (.conflict message)) := by
  unfold unhindered
  cases hcheck : checkSearch query access limit maxCharacters with
  | error e =>
      intro heq
      cases heq
      exact checkSearch_ne_evidence hcheck _ rfl
  | ok u =>
      -- a payload that is refused is refused for itself
      have hfree := @checkAll_ne_conflict registry
        ((passages registry access query limit maxCharacters s).map fun p =>
          p.payload registry access) message
      simp only
      cases hall : checkAll registry ((passages registry access query limit maxCharacters s).map
          fun p => p.payload registry access) with
      | error e =>
          intro heq
          cases heq
          exact hfree hall
      | ok u =>
          simp only [found]
          cases registry.contracts.validate contextBundleSchema _ <;> simp [Except.mapError]

/-- The append that follows raises no conflict. -/
theorem retrieved_ne_conflict {r : Except SourceError Json.Fields} {e : EvidenceError}
    (h : r ≠ .error (.evidence e)) : retrieved registry access env r ≠ .error (.evidence e) := by
  intro heq
  cases r with
  | error e' => exact h heq
  | ok validated =>
      simp only [retrieved] at heq
      split at heq <;> cases heq

/-- Own sources are all that a search reads. -/
theorem passages_congr {s s' : State} (hagree : Agree access s s') :
    passages registry access query limit maxCharacters s =
      passages registry access query limit maxCharacters s' := by
  -- what is visible is own
  have hvisible : ∀ records : List SourceVersionRecord,
      (records.filter fun record => Visible access record) =
        (records.filter fun record => Own access record).filter fun record =>
          Visible access record := by
    intro records
    rw [List.filter_filter]
    refine List.filter_congr fun record _ => ?_
    by_cases h : Visible access record
    · have hown : Own access record := ⟨h.1, h.2.2.1⟩
      simp [h, hown]
    · simp [h]
  unfold passages candidates
  rw [hvisible s.versions.values, hvisible s'.versions.values, hagree.versions]

/-- What a search offers as evidence is the same in states that agree. -/
theorem offered_congr {s s' : State} (hagree : Agree access s s') :
    offered registry access query limit maxCharacters s =
      offered registry access query limit maxCharacters s' := by
  unfold offered
  rw [passages_congr hagree]

/-- So is what it returns when nothing hinders it. -/
theorem unhindered_congr {s s' : State} (hagree : Agree access s s') :
    unhindered registry access query limit maxCharacters now s =
      unhindered registry access query limit maxCharacters now s' := by
  unfold unhindered
  rw [passages_congr hagree]

/-- A clash is the one thing that the caller is told of it. -/
theorem outcome_of_clash {s : State}
    (h : Clash registry (offered registry access query limit maxCharacters s) s.evidence) :
    outcome registry access query limit maxCharacters now env s =
      .error (.evidence (.conflict "immutable evidence_id already has different content")) := by
  rw [outcome_eq]
  rcases @search_eq registry access query limit maxCharacters now s with ⟨-, hsearch⟩ | ⟨hfree, -⟩
  · rw [hsearch]
    rfl
  · exact absurd h hfree

/-- Without a clash the evidence that is held has no say. -/
theorem outcome_of_free {s : State}
    (h : ¬ Clash registry (offered registry access query limit maxCharacters s) s.evidence) :
    outcome registry access query limit maxCharacters now env s =
      retrieved registry access env
        (unhindered registry access query limit maxCharacters now s) := by
  rw [outcome_eq]
  rcases @search_eq registry access query limit maxCharacters now s with ⟨hclash, -⟩ | ⟨-, hsearch⟩
  · exact absurd hclash h
  · rw [hsearch]

/-- Outcomes are equal exactly when what is offered clashes in both states or in none. -/
theorem outcome_eq_iff {s s' : State} (hagree : Agree access s s') :
    outcome registry access query limit maxCharacters now env s =
        outcome registry access query limit maxCharacters now env s' ↔
      (Clash registry (offered registry access query limit maxCharacters s) s.evidence ↔
        Clash registry (offered registry access query limit maxCharacters s) s'.evidence) := by
  -- a conflict is told, and nothing else is told in these words
  have hne : ∀ t : State, retrieved registry access env
      (unhindered registry access query limit maxCharacters now t) ≠
        .error (.evidence (.conflict "immutable evidence_id already has different content")) :=
    fun t => retrieved_ne_conflict (unhindered_ne_conflict t _)
  by_cases h : Clash registry (offered registry access query limit maxCharacters s) s.evidence
  · rw [outcome_of_clash h]
    by_cases h' : Clash registry (offered registry access query limit maxCharacters s) s'.evidence
    · rw [outcome_of_clash (by rwa [← offered_congr hagree])]
      exact iff_of_true rfl (iff_of_true h h')
    · rw [outcome_of_free (by rwa [← offered_congr hagree])]
      exact iff_of_false (fun heq => hne s' heq.symm) fun hiff => h' (hiff.1 h)
  · rw [outcome_of_free h]
    by_cases h' : Clash registry (offered registry access query limit maxCharacters s) s'.evidence
    · rw [outcome_of_clash (by rwa [← offered_congr hagree])]
      exact iff_of_false (hne s) fun hiff => h (hiff.2 h')
    · rw [outcome_of_free (by rwa [← offered_congr hagree]), unhindered_congr hagree]
      exact iff_of_true rfl (iff_of_false h h')

/-- What others have done makes no difference to a search exactly when they hold an id
of what it offers in both states or in none, unless what it offers is contradicted by
what is its own. -/
theorem search_isolated_iff {s s' : State} (hagree : Agree access s s') :
    outcome registry access query limit maxCharacters now env s =
        outcome registry access query limit maxCharacters now env s' ↔
      Contradicted registry access (offered registry access query limit maxCharacters s)
          s.evidence ∨
        ((∃ x ∈ offered registry access query limit maxCharacters s,
            HeldByOthers access s.evidence x.1) ↔
          ∃ x ∈ offered registry access query limit maxCharacters s,
            HeldByOthers access s'.evidence x.1) := by
  -- the evidence that is offered is the caller's own
  have hown : ∀ x ∈ offered registry access query limit maxCharacters s,
      OwnEvidence access x.2 ∧ x.2.Nodup := fun x hx => own_of_offered hx
  have hsame : Contradicted registry access
        (offered registry access query limit maxCharacters s) s'.evidence ↔
      Contradicted registry access
        (offered registry access query limit maxCharacters s) s.evidence :=
    ⟨hagree.symm.evidence.contradicted, hagree.evidence.contradicted⟩
  rw [outcome_eq_iff hagree, clash_iff hown, clash_iff hown, hsame]
  -- a contradiction within one's own evidence is found in both states
  by_cases hcontra : Contradicted registry access
      (offered registry access query limit maxCharacters s) s.evidence
  · simp only [hcontra, true_or]
  · simp only [hcontra, false_or]

end Outcome

end Isolation

/-! ## Two tenants with the same source -/

/-- An actor of the tenant. -/
def member (tenantId : Identifier) : KnowledgeAccessContext where
  tenantId := tenantId
  organizationId := ⟨"org", by decide⟩
  workspaceId := ⟨"workspace", by decide⟩
  actorId := ⟨"actor", by decide⟩
  correlationId := ⟨"correlation", by decide⟩
  scopeRefs := ⟨{"scope.sources.write", "scope.sources.verify", "scope.sources.read"}, by decide⟩
  dataClassification := .internal

/-- The caller whose search is observed. -/
def tenantA : KnowledgeAccessContext := member ⟨"tenant-a", by decide⟩

/-- A caller of another tenant. -/
def tenantB : KnowledgeAccessContext := member ⟨"tenant-b", by decide⟩

/-- SHA-256 of the texts that the sources below and the searches of them hash. -/
def digests : List (String × String) :=
  [("pumps", "102909870fa6a753906f4beade91a7df067dfb65014a1ad816362404331af265"),
    ("pumps and valves", "9549abc6920a3ee7526d7c6c8163c0f890981ca5afc2ba1d9d787ff7de02f232"),
    ("manual@1.0.0#L1-L1:102909870fa6a753906f4beade91a7df067dfb65014a1ad816362404331af265",
      "2a29ca79e303c53aae4e20db0a10e9ce383962de607f5eb4ce2c9fabc42406c3"),
    ("handbook@2.0.0#L1-L1:9549abc6920a3ee7526d7c6c8163c0f890981ca5afc2ba1d9d787ff7de02f232",
      "0b600ae2b21cf083bbe477e7a50ad37336fa592d34b2fc4acf33e59ac6f6e50f"),
    ("correlation:pumps:1", "38e24b536e77e370a85f4af1b7ce66f9d3a36f444f3473bf2ad7cd965761f0a6"),
    ("correlation:pumps:2", "912bdfa0771a0a871987d6a87e8d67e4a9cdd1699bf013d9c4f0148f343df878"),
    ("correlation:valves:1", "b6e0391ffe7173fcf3e3c5847fd8068bc1cc6e87a0c58ab21a295178e6db3359"),
    ("valves", "baa1f4c572070d5cb4d20357688550f241b54549720a74628ca11e9bdc941428"),
    ("val", "97dfc65f74283f60c606bda3f75a6a6bec3fc1e513b8b40797b5ecb86c824ee2"),
    ("valve-list@1.0.0#L1-L1:97dfc65f74283f60c606bda3f75a6a6bec3fc1e513b8b40797b5ecb86c824ee2",
      "17e9418c712653333d194343081d662f738d9c4b367775c6dee07b5203c01f05"),
    ("correlation:pumps valves:2",
      "374ac05fd652bb7321d4c118cca4fe80f4c82433bce6d3d1fc4ce9a6ec4b4e7a")]

/-- Every payload is valid; the texts are in lower case already. -/
def plain : SourceRegistry where
  contracts := ⟨fun _ => true, fun _ _ => none⟩
  repr := fun _ => ""
  whole := fun _ => none
  sha256 := fun text => ((digests.find? fun entry => entry.1 = text).map Prod.snd).getD ""
  casefold := id

def manual : SourceRegistration where
  sourceId := "manual"
  sourceVersion := "1.0.0"
  title := "Manual"
  storageUri := "https://sources/manual"
  content := "pumps"

def handbook : SourceRegistration where
  sourceId := "handbook"
  sourceVersion := "2.0.0"
  title := "Handbook"
  storageUri := "https://sources/handbook"
  content := "pumps and valves"

/-- A sink that takes every event. -/
def calm : Env Question Answer
  | _, .append _ => .returned

/-- The calls one after the other, the events of which are stored. -/
def follow (s : State) (calls : List Call) : State :=
  (calls.map fun c => (c, calm)).foldl (Call.next plain) s

/-- Both tenants have registered and verified the manual, the second one the handbook
as well. -/
def registered : State :=
  follow ⟨.empty, .empty, .empty⟩
    [.register manual tenantA 0, .verify "manual" "1.0.0" tenantA 0,
      .register manual tenantB 0, .verify "manual" "1.0.0" tenantB 0,
      .register handbook tenantB 0, .verify "handbook" "2.0.0" tenantB 0]

/-- The second tenant has searched for what is in the handbook only. -/
def browsed : State := follow registered [.searchContext "valves" tenantB 0 12 12000]

/-- The second tenant has searched for what is in the manual too. -/
def searched : State := follow registered [.searchContext "pumps" tenantB 0 12 12000]

/-- What the second tenant does is done by others. -/
theorem agree_follow {calls : List Call} (h : ∀ c ∈ calls, Foreign tenantA c.access) (s : State) :
    Agree tenantA s (follow s calls) := by
  refine agree_of_run (fun d hd => ?_) s
  obtain ⟨c, hc, rfl⟩ := List.mem_map.1 hd
  exact h c hc

/-- What `tenantB` has done in between is none of `tenantA`'s own. -/
theorem registered_agrees_browsed : Agree tenantA registered browsed :=
  agree_follow (by decide) registered

/-- The search of the first tenant succeeds, unless the second one has searched its
copy of the source. -/
theorem copied_source : Agree tenantA registered searched ∧
    (outcome plain tenantA "pumps" 12 12000 0 calm registered).isOk ∧
    outcome plain tenantA "pumps" 12 12000 0 calm searched =
      .error (.evidence (.conflict "immutable evidence_id already has different content")) := by
  refine ⟨agree_follow (by decide) registered, ?_, ?_⟩
  · decide +kernel
  · -- the other tenant's evidence stands under the id of the passage
    have hheld : ∃ x ∈ offered plain tenantA "pumps" 12 12000 searched,
        HeldByOthers tenantA searched.evidence x.1 := by
      decide +kernel
    exact outcome_of_clash ((clash_iff fun x hx => own_of_offered hx).2 (.inr hheld))

/-- Evidence of another source is not in the way. -/
theorem copied_source_isolated :
    browsed.evidence.values.length = 1 ∧
      outcome plain tenantA "pumps" 12 12000 0 calm registered =
        outcome plain tenantA "pumps" 12 12000 0 calm browsed := by
  refine ⟨by decide +kernel, (search_isolated_iff registered_agrees_browsed).2 (.inr ?_)⟩
  decide +kernel

end Alos.Sources
