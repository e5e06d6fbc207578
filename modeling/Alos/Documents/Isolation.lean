import Mathlib.Data.List.Induction
import Mathlib.Data.List.Nodup
import Alos.Documents.Service

/-! # Who may touch a document

Documents are filed by tenant and workspace, so that organizations share the keys.
Calls one after the other: a call that overlaps others changes the dicts in its one
step under the lock, so `after` is what any overlap comes to, with the calls in the
order of these steps.

* `exec_register`, `exec_addVersion` and `exec_get` say what each method comes to;
* `exec_keeps`: what is stored is not changed;
* `lawful_iff`: documents are isolated, and `get` returns what was added, exactly
  in the runs whose additions are all `Careful`.
-/

namespace Alos.Documents

open Coop Py Sources Tools

/-- The calls of the registry. -/
inductive Call where
  | register (documentId title category : String) (dataClassification : DataClassification)
      (access : KnowledgeAccessContext) (now : Datetime)
  | addVersion (version : DocumentVersion) (access : KnowledgeAccessContext)
  | get (documentId : String) (access : KnowledgeAccessContext)

/-- What a call returns. -/
inductive Reply where
  | document (document : DocumentMetadata)
  | version (version : DocumentVersion)
  | found (document : DocumentMetadata) (versions : List DocumentVersion)

namespace Call

/-- The coroutine of a call. -/
def prog : Call → Op Reply
  | .register documentId title category dataClassification access now =>
      (Documents.register documentId title category dataClassification access now).bind fun d =>
        .ret (.document d)
  | .addVersion version access => (Documents.addVersion version access).bind fun v => .ret (.version v)
  | .get documentId access =>
      (Documents.get documentId access).bind fun found => .ret (.found found.1 found.2)

/-- Who makes the call. -/
def access : Call → KnowledgeAccessContext
  | .register _ _ _ _ access _ => access
  | .addVersion _ access => access
  | .get _ access => access

/-- The document that the call is about. -/
def key : Call → DocumentKey
  | .register documentId _ _ _ access _ => documentKey access documentId
  | .addVersion version access => documentKey access version.documentId
  | .get documentId access => documentKey access documentId

end Call

/-- A call, and how the audit sink answers it. -/
abbrev Step := Call × Env AuditEvent fun _ => Appended

/-- One call that nobody else comes between. -/
def exec (s : State) (x : Step) : Except DocumentError Reply × State :=
  let f := x.1.prog.alone x.2 s
  (f.result, f.state)

/-- The state after the steps. -/
def after (s : State) (xs : List Step) : State := xs.foldl (fun s x => (exec s x).2) s

/-- The state after one more call. -/
theorem after_snoc (s : State) (xs : List Step) (x : Step) :
    after s (xs ++ [x]) = (exec (after s xs) x).2 := by
  simp [after]

/-! ## What a call comes to -/

section Calls

variable (s : State) (access : KnowledgeAccessContext) (env : Env AuditEvent fun _ => Appended)

/-- A document is filed in the place of the caller. -/
theorem documentMetadata_key {documentId title category : String}
    {dataClassification : DataClassification} {now : Datetime} {document : DocumentMetadata}
    {access : KnowledgeAccessContext}
    (h : documentMetadata documentId title category dataClassification access now = some document) :
    document.key = documentKey access documentId ∧
      document.organizationId = access.organizationId := by
  unfold documentMetadata at h
  simp only [Option.bind_eq_bind, Option.bind_eq_some_iff] at h
  rcases h with ⟨identifier, hid, title, -, category, -, h⟩
  cases h
  refine ⟨?_, rfl⟩
  rw [DocumentMetadata.key, documentKey, Identifier.val_of_parse hid]

/-- A registration is refused, finds the document of its organization, or stores a
new one. -/
theorem exec_register (documentId title category : String) (dataClassification : DataClassification)
    (now : Datetime) :
    let x : Step := (.register documentId title category dataClassification access now, env)
    (∃ e, exec s x = (.error e, s)) ∨
      (∃ existing, s.documents.get? (documentKey access documentId) = some existing ∧
        existing.organizationId = access.organizationId ∧
        exec s x = (.ok (.document existing), s)) ∨
      ∃ document, s.documents.get? (documentKey access documentId) = none ∧
        document.key = documentKey access documentId ∧
        (exec s x).2 = { s with documents := s.documents.put document } := by
  intro x
  simp only [x, exec, Call.prog, Proc.alone_bind]
  unfold register requireScope
  simp only [Proc.bind_def]
  by_cases hscope : "scope.documents.write" ∈ access.scopeRefs.val
  · rw [if_pos hscope]
    simp only [Proc.ofExcept, Proc.ret_bind]
    cases hdocument : documentMetadata documentId title category dataClassification access now with
    | none => exact .inl ⟨_, rfl⟩
    | some document =>
        rcases documentMetadata_key hdocument with ⟨hkey, horganization⟩
        simp only [Proc.get_bind, Proc.alone, hkey]
        -- the id is free, or holds the same document, or another one
        cases hexisting : s.documents.get? (documentKey access documentId) with
        | none =>
            refine .inr (.inr ⟨document, rfl, hkey, ?_⟩)
            simp only [Proc.modify_bind, Proc.alone, record, Proc.bind_def, Proc.ask_bind,
              Proc.bind]
            cases env 0 (auditEvent access documentId "document.registered" "DRAFT") <;> rfl
        | some existing =>
            by_cases hsame : SameDocument existing document
            · simp only [if_pos hsame]
              exact .inr (.inl ⟨existing, rfl, hsame.1.trans horganization, rfl⟩)
            · simp only [if_neg hsame]
              exact .inl ⟨_, rfl⟩
  · rw [if_neg hscope]
    exact .inl ⟨_, rfl⟩

/-- The version, filed for the context. -/
def file (version : DocumentVersion) (access : KnowledgeAccessContext) : Filed :=
  ⟨access.tenantId.val, access.workspaceId.val, version⟩

/-- The event of a version that was registered. -/
def versionEvent (version : DocumentVersion) (access : KnowledgeAccessContext) : AuditEvent :=
  auditEvent access version.documentId "document.version.registered" version.version

/-- An addition by a caller who may write to a document that is stored. -/
theorem exec_addVersion {version : DocumentVersion} {document : DocumentMetadata}
    (hscope : "scope.documents.write" ∈ access.scopeRefs.val)
    (hdocument : s.documents.get? (documentKey access version.documentId) = some document) :
    exec s (.addVersion version access, env) =
      match s.versions.get? (file version access).key with
      | some existing =>
          if existing.version = version then (.ok (.version version), s)
          else (.error (.registry "immutable document version already exists"), s)
      | none =>
          (match env 0 (versionEvent version access) with
            | .returned => .ok (.version version)
            | .raised => .error .audit,
            { s with versions := s.versions.put (file version access) }) := by
  have hfile : (⟨access.tenantId.val, access.workspaceId.val, version⟩ : Filed) =
      file version access := rfl
  simp only [exec, Call.prog, Proc.alone_bind]
  unfold addVersion requireScope
  simp only [Proc.bind_def, if_pos hscope, Proc.ofExcept, Proc.ret_bind, Proc.get_bind, Proc.alone,
    hdocument, hfile]
  -- a version that is stored is compared as a whole
  cases s.versions.get? (file version access).key with
  | none =>
      simp only [Proc.modify_bind, Proc.alone, record, Proc.bind_def, Proc.ask_bind, Proc.bind,
        versionEvent]
      cases env 0 (auditEvent access version.documentId "document.version.registered"
        version.version) <;> rfl
  | some existing =>
      simp only
      by_cases hsame : existing.version = version
      · simp only [hsame, if_true, Proc.pure_def]
        rfl
      · simp only [if_neg hsame]
        rfl

/-- Any other addition is refused. -/
theorem exec_addVersion_refused {version : DocumentVersion}
    (h : "scope.documents.write" ∉ access.scopeRefs.val ∨
      s.documents.get? (documentKey access version.documentId) = none) :
    ∃ e, exec s (.addVersion version access, env) = (.error e, s) := by
  simp only [exec, Call.prog, Proc.alone_bind]
  unfold addVersion requireScope
  by_cases hscope : "scope.documents.write" ∈ access.scopeRefs.val
  · have hnone := h.resolve_left (not_not.2 hscope)
    simp only [Proc.bind_def, if_pos hscope, Proc.ofExcept, Proc.ret_bind, Proc.get_bind,
      Proc.alone, hnone]
    exact ⟨_, rfl⟩
  · rw [if_neg hscope]
    exact ⟨_, rfl⟩

/-- A read by the organization of the document finds it, any other is refused. -/
theorem exec_get (documentId : String) :
    (∃ e, exec s (.get documentId access, env) = (.error e, s) ∧
      ∀ document, s.documents.get? (documentKey access documentId) = some document →
        "scope.documents.read" ∈ access.scopeRefs.val →
          document.organizationId ≠ access.organizationId) ∨
      ∃ document, s.documents.get? (documentKey access documentId) = some document ∧
        document.organizationId = access.organizationId ∧
        exec s (.get documentId access, env) =
          (.ok (.found document (s.versionsOf (documentKey access documentId))), s) := by
  simp only [exec, Call.prog, Proc.alone_bind]
  unfold get requireScope
  by_cases hscope : "scope.documents.read" ∈ access.scopeRefs.val
  · simp only [Proc.bind_def, if_pos hscope, Proc.ofExcept, Proc.ret_bind, Proc.get_bind, Proc.alone]
    cases s.documents.get? (documentKey access documentId) with
    | none => exact .inl ⟨_, rfl, fun _ h => by cases h⟩
    | some document =>
        -- the caller's organization is compared here, as `add_version` does not
        by_cases horganization : document.organizationId ≠ access.organizationId
        · simp only [Proc.raiseIf, if_pos horganization]
          refine .inl ⟨_, rfl, ?_⟩
          intro other hother _
          cases hother
          exact horganization
        · simp only [Proc.raiseIf, if_neg horganization]
          exact .inr ⟨document, rfl, not_not.1 horganization, rfl⟩
  · rw [if_neg hscope]
    exact .inl ⟨_, rfl, fun _ _ h => absurd h hscope⟩

end Calls

/-! ## What stays -/

/-- The documents and versions of the one state are in the other. -/
structure State.Keeps (s s' : State) : Prop where
  documents : ∀ k document, s.documents.get? k = some document → s'.documents.get? k = some document
  versions : ∀ k filed, s.versions.get? k = some filed → s'.versions.get? k = some filed

/-- A state keeps what it has. -/
theorem State.Keeps.refl (s : State) : s.Keeps s :=
  ⟨fun _ _ h => h, fun _ _ h => h⟩

/-- What is kept is kept on. -/
theorem State.Keeps.trans {s s' s'' : State} (h : s.Keeps s') (h' : s'.Keeps s'') : s.Keeps s'' :=
  ⟨fun k document hk => h'.documents k document (h.documents k document hk),
    fun k filed hk => h'.versions k filed (h.versions k filed hk)⟩

/-- What an addition does to the state. -/
theorem addVersion_state (s : State) (version : DocumentVersion) (access : KnowledgeAccessContext)
    (env : Env AuditEvent fun _ => Appended) :
    (exec s (.addVersion version access, env)).2 = s ∨
      s.versions.get? (file version access).key = none ∧
        (exec s (.addVersion version access, env)).2 =
          { s with versions := s.versions.put (file version access) } := by
  -- past both checks the version is stored, or was there already
  by_cases hpasses : "scope.documents.write" ∈ access.scopeRefs.val ∧
      s.documents.get? (documentKey access version.documentId) ≠ none
  · rcases hpasses with ⟨hscope, hstored⟩
    rcases Option.ne_none_iff_exists'.1 hstored with ⟨document, hdocument⟩
    rw [exec_addVersion s access env hscope hdocument]
    cases hexisting : s.versions.get? (file version access).key with
    | none => exact .inr ⟨rfl, rfl⟩
    | some existing =>
        left
        simp only
        split <;> rfl
  · rw [not_and_or, not_not] at hpasses
    rcases exec_addVersion_refused s access env hpasses with ⟨e, he⟩
    exact .inl (by rw [he])

/-- A call keeps what is stored. -/
theorem exec_keeps (s : State) (x : Step) : s.Keeps (exec s x).2 := by
  rcases x with ⟨c, env⟩
  -- only `add_version` can add, and only `register` opens a document
  cases c with
  | register documentId title category dataClassification access now =>
      rcases exec_register s access env documentId title category dataClassification now with
        ⟨e, he⟩ | ⟨existing, -, -, he⟩ | ⟨document, hnew, hkey, he⟩
      · rw [he]
        exact .refl s
      · rw [he]
        exact .refl s
      · rw [he]
        rw [← hkey] at hnew
        exact ⟨fun _ _ hk => Table.get?_put_of_none hnew hk, fun _ _ hk => hk⟩
  | addVersion version access =>
      rcases addVersion_state s version access env with he | ⟨hnew, he⟩
      · rw [he]
        exact .refl s
      · rw [he]
        exact ⟨fun _ _ hk => hk, fun _ _ hk => Table.get?_put_of_none hnew hk⟩
  | get documentId access =>
      rcases exec_get s access env documentId with ⟨e, he, -⟩ | ⟨document, -, -, he⟩
      · rw [he]
        exact .refl s
      · rw [he]
        exact .refl s

/-- A run keeps what is stored. -/
theorem after_keeps (s : State) (xs : List Step) : s.Keeps (after s xs) := by
  induction xs generalizing s with
  | nil => exact .refl s
  | cons x xs ih => exact (exec_keeps s x).trans (ih _)

/-! ## Careful runs -/

/-- The version has been added to the document: a call that added it returned. -/
def Added (xs : List Step) (key : DocumentKey) (version : DocumentVersion) : Prop :=
  ∃ pre access env post, xs = pre ++ (.addVersion version access, env) :: post ∧
    documentKey access version.documentId = key ∧
    (exec (after .empty pre) (.addVersion version access, env)).1.isOk

/-- What is promised of a run. -/
structure Lawful (xs : List Step) : Prop where
  /-- A call on a document that is stored succeeds for its organization only. -/
  isolated : ∀ pre x post, xs = pre ++ x :: post →
    ∀ document, (after .empty pre).documents.get? x.1.key = some document →
      (exec (after .empty pre) x).1.isOk → document.organizationId = x.1.access.organizationId
  kept : ∀ pre post, xs = pre ++ post → (after .empty pre).Keeps (after .empty xs)
  /-- A read at any moment returns what has been added. -/
  listed : ∀ pre post, xs = pre ++ post → ∀ documentId access env document versions,
    (exec (after .empty pre) (.get documentId access, env)).1 = .ok (.found document versions) →
      versions.Nodup ∧
        ∀ version, version ∈ versions ↔ Added pre (documentKey access documentId) version

/-- An addition that is not refused is made by the organization of the document, and
the event of a new version is appended. -/
def Careful (s : State) : Step → Prop
  | (.addVersion version access, env) =>
      "scope.documents.write" ∈ access.scopeRefs.val →
        ∀ document, s.documents.get? (documentKey access version.documentId) = some document →
          match s.versions.get? (file version access).key with
          | some existing =>
              existing.version = version → document.organizationId = access.organizationId
          | none => document.organizationId = access.organizationId ∧
              env 0 (versionEvent version access) = .returned
  | _ => True

/-- Every call of the run is careful in the state before it. -/
def CarefulRun (xs : List Step) : Prop :=
  ∀ pre x post, xs = pre ++ x :: post → Careful (after .empty pre) x

/-- A version that was added stays added. -/
theorem Added.append {xs : List Step} {key : DocumentKey} {version : DocumentVersion}
    (h : Added xs key version) (ys : List Step) : Added (xs ++ ys) key version := by
  rcases h with ⟨pre, access, env, post, rfl, h⟩
  exact ⟨pre, access, env, post ++ ys, by simp, h⟩

/-- The version as it is filed under the document. -/
def DocumentKey.file (key : DocumentKey) (version : DocumentVersion) : Filed :=
  ⟨key.tenantId, key.workspaceId, version⟩

/-- The versions of a document are those filed under it. -/
theorem mem_versionsOf {s : State} {key : DocumentKey} {version : DocumentVersion} :
    version ∈ s.versionsOf key ↔
      key.file version ∈ s.versions.values ∧ version.documentId = key.documentId := by
  simp only [State.versionsOf, List.mem_map, List.mem_filter, decide_eq_true_eq]
  constructor
  · rintro ⟨filed, ⟨hmem, hkey⟩, rfl⟩
    subst hkey
    exact ⟨hmem, rfl⟩
  · rintro ⟨hmem, hid⟩
    refine ⟨key.file version, ⟨hmem, ?_⟩, rfl⟩
    simp only [Filed.key, DocumentKey.file, hid]

/-- Each is listed once. -/
theorem versionsOf_nodup (s : State) (key : DocumentKey) : (s.versionsOf key).Nodup := by
  have hvalues : s.versions.values.Nodup := List.Nodup.of_map Filed.key s.versions.nodup
  refine List.Nodup.map_on ?_ (hvalues.filter _)
  intro a ha b hb hversion
  simp only [List.mem_filter, decide_eq_true_eq] at ha hb
  -- one place, and one version
  have hkey : a.key = b.key := by
    rw [Filed.key, Filed.key]
    have ha' := ha.2
    have hb' := hb.2
    simp only [Filed.key] at ha' hb'
    rw [ha', hb', hversion]
  have hfound := Table.get?_of_mem ha.1
  rw [hkey, Table.get?_of_mem hb.1] at hfound
  exact (Option.some.inj hfound).symm

/-- An addition that returns has stored its version. -/
theorem stored_of_added {xs : List Step} {key : DocumentKey} {version : DocumentVersion}
    (h : Added xs key version) :
    key.file version ∈ (after .empty xs).versions.values ∧ version.documentId = key.documentId := by
  rcases h with ⟨pre, access, env, post, rfl, rfl, hok⟩
  refine ⟨?_, rfl⟩
  have hstored : (exec (after .empty pre) (.addVersion version access, env)).2.versions.get?
      (file version access).key = some (file version access) := by
    by_cases hpasses : "scope.documents.write" ∈ access.scopeRefs.val ∧
        (after .empty pre).documents.get? (documentKey access version.documentId) ≠ none
    · rcases hpasses with ⟨hscope, hstored⟩
      rcases Option.ne_none_iff_exists'.1 hstored with ⟨document, hdocument⟩
      rw [exec_addVersion _ access env hscope hdocument] at hok ⊢
      cases hexisting : (after .empty pre).versions.get? (file version access).key with
      | none => exact Table.get?_put_self _ _
      | some existing =>
          rw [hexisting] at hok
          by_cases hsame : existing.version = version
          · simp only [if_pos hsame]
            -- what is found has the place of the key, and the version
            have hkey := Table.key_of_get? hexisting
            simp only [Filed.key, file, VersionKey.mk.injEq, DocumentKey.mk.injEq] at hkey
            have heq : existing = file version access := by
              rcases existing with ⟨tenantId, workspaceId, other⟩
              simp only at hsame hkey
              rw [file, hsame, hkey.1.1, hkey.1.2.1]
            rw [hexisting, heq]
          · simp only [if_neg hsame] at hok
            cases hok
    · rw [not_and_or, not_not] at hpasses
      rcases exec_addVersion_refused (after .empty pre) access env hpasses with ⟨e, he⟩
      rw [he] at hok
      cases hok
  have hkept := (after_keeps (exec (after .empty pre) (.addVersion version access, env)).2 post).versions
    _ _ hstored
  have hafter : after .empty (pre ++ (.addVersion version access, env) :: post) =
      after (exec (after .empty pre) (.addVersion version access, env)).2 post := by
    simp [after]
  rw [hafter]
  exact Table.mem_of_get? hkept

/-- In a careful run every version that is stored has been added. -/
def Filled (xs : List Step) : Prop :=
  ∀ filed ∈ (after .empty xs).versions.values, Added xs filed.key.document filed.version

/-- A careful call keeps every version with its document. -/
theorem Filled.snoc {xs : List Step} (h : Filled xs) {x : Step}
    (hcareful : Careful (after .empty xs) x) : Filled (xs ++ [x]) := by
  have hkept : (exec (after .empty xs) x).2.versions = (after .empty xs).versions →
      Filled (xs ++ [x]) := by
    intro hsame filed hfiled
    rw [after_snoc, hsame] at hfiled
    exact (h filed hfiled).append [x]
  rcases x with ⟨c, env⟩
  cases c with
  | register documentId title category dataClassification access now =>
      apply hkept
      rcases exec_register (after .empty xs) access env documentId title category dataClassification
        now with ⟨e, he⟩ | ⟨existing, -, -, he⟩ | ⟨document, -, -, he⟩
      all_goals rw [he]
  | get documentId access =>
      apply hkept
      rcases exec_get (after .empty xs) access env documentId with
        ⟨e, he, -⟩ | ⟨document, -, -, he⟩
      all_goals rw [he]
  | addVersion version access =>
      rcases addVersion_state (after .empty xs) version access env with he | ⟨hnew, he⟩
      · exact hkept (by rw [he])
      · by_cases hpasses : "scope.documents.write" ∈ access.scopeRefs.val ∧
            (after .empty xs).documents.get? (documentKey access version.documentId) ≠ none
        · rcases hpasses with ⟨hscope, hstored⟩
          rcases Option.ne_none_iff_exists'.1 hstored with ⟨document, hdocument⟩
          have hreturned := hcareful hscope document hdocument
          rw [hnew] at hreturned
          intro filed hfiled
          rw [after_snoc, he] at hfiled
          rcases Table.mem_put.1 hfiled with rfl | ⟨hfiled, -⟩
          · -- the addition has returned
            refine ⟨xs, access, env, [], rfl, rfl, ?_⟩
            change (exec _ (.addVersion version access, env)).1.isOk = true
            rw [exec_addVersion _ access env hscope hdocument, hnew]
            simp only [hreturned.2]
            rfl
          · exact (h filed hfiled).append _
        · rw [not_and_or, not_not] at hpasses
          rcases exec_addVersion_refused (after .empty xs) access env hpasses with ⟨e, he⟩
          exact hkept (by rw [he])

/-- The beginnings of a careful run are careful. -/
theorem CarefulRun.of_append {xs ys : List Step} (h : CarefulRun (xs ++ ys)) : CarefulRun xs := by
  intro pre x post heq
  exact h pre x (post ++ ys) (by rw [heq]; simp)

/-- After a careful run every version belongs to a document of its place. -/
theorem CarefulRun.filled {xs : List Step} (h : CarefulRun xs) : Filled xs := by
  induction xs using List.reverseRecOn with
  | nil =>
      intro filed hfiled
      cases hfiled
  | append_singleton xs x ih => exact (ih h.of_append).snoc (h xs x [] rfl)

/-- A careful call on a document that is stored is by its organization. -/
theorem isolated_of_careful {s : State} {x : Step} (h : Careful s x) {document : DocumentMetadata}
    (hdocument : s.documents.get? x.1.key = some document) (hok : (exec s x).1.isOk) :
    document.organizationId = x.1.access.organizationId := by
  rcases x with ⟨c, env⟩
  -- a document of another organization answers no call but a careless `add_version`
  cases c with
  | register documentId title category dataClassification access now =>
      rcases exec_register s access env documentId title category dataClassification now with
        ⟨e, he⟩ | ⟨existing, hexisting, horganization, he⟩ | ⟨other, hnew, -, he⟩
      · rw [he] at hok
        cases hok
      · rw [Call.key, hexisting] at hdocument
        cases hdocument
        exact horganization
      · rw [Call.key, hnew] at hdocument
        cases hdocument
  | get documentId access =>
      rcases exec_get s access env documentId with ⟨e, he, -⟩ | ⟨other, hother, horganization, he⟩
      · rw [he] at hok
        cases hok
      · rw [Call.key, hother] at hdocument
        cases hdocument
        exact horganization
  | addVersion version access =>
      by_cases hscope : "scope.documents.write" ∈ access.scopeRefs.val
      · have hcareful := h hscope document hdocument
        rw [exec_addVersion s access env hscope hdocument] at hok
        cases hexisting : s.versions.get? (file version access).key with
        | none =>
            rw [hexisting] at hcareful
            exact hcareful.1
        | some existing =>
            rw [hexisting] at hcareful hok
            by_cases hsame : existing.version = version
            · exact hcareful hsame
            · simp only [if_neg hsame] at hok
              cases hok
      · obtain ⟨e, he⟩ : ∃ e, exec s (.addVersion version access, env) = (.error e, s) :=
          exec_addVersion_refused s access env (.inl hscope)
        rw [he] at hok
        cases hok

/-- The caller who reads the document for its organization. -/
def reader (document : DocumentMetadata) (access : KnowledgeAccessContext) :
    KnowledgeAccessContext :=
  { access with
    organizationId := document.organizationId
    scopeRefs := ⟨{"scope.documents.read"}, by decide⟩ }

/-- A step that raises adds nothing. -/
theorem Added.of_snoc {xs : List Step} {x : Step} {key : DocumentKey} {version : DocumentVersion}
    (h : Added (xs ++ [x]) key version) (hraised : ¬ (exec (after .empty xs) x).1.isOk) :
    Added xs key version := by
  rcases h with ⟨pre, access, env, post, hsplit, hkey, hok⟩
  rcases List.eq_nil_or_concat post with rfl | ⟨rest, y, rfl⟩
  · rcases List.append_inj' hsplit rfl with ⟨rfl, hlast⟩
    cases hlast
    exact absurd hok hraised
  · have hinit : xs ++ [x] = (pre ++ (.addVersion version access, env) :: rest) ++ [y] := by
      rw [hsplit]
      simp
    exact ⟨pre, access, env, rest, (List.append_inj' hinit rfl).1, hkey, hok⟩

/-- The reader of a document that is stored is returned its versions. -/
theorem exec_get_reader {s : State} {access : KnowledgeAccessContext} {documentId : String}
    {document : DocumentMetadata} (env : Env AuditEvent fun _ => Appended)
    (hdocument : s.documents.get? (documentKey access documentId) = some document) :
    (exec s (.get documentId (reader document access), env)).1 =
      .ok (.found document (s.versionsOf (documentKey access documentId))) := by
  rcases exec_get s (reader document access) env documentId with
    ⟨e, -, hrefused⟩ | ⟨found, hfound, -, he⟩
  · exact absurd rfl (hrefused document hdocument (by simp [reader]))
  · rw [he]
    have hsame : document = found := Option.some.inj (hdocument.symm.trans hfound)
    rw [hsame]
    rfl

/-- A version whose event is not appended is stored, and would be read. -/
theorem Lawful.appended {xs : List Step} (h : Lawful xs) {pre post : List Step}
    {version : DocumentVersion} {access : KnowledgeAccessContext}
    {env : Env AuditEvent fun _ => Appended}
    (hsplit : xs = pre ++ (.addVersion version access, env) :: post)
    (hscope : "scope.documents.write" ∈ access.scopeRefs.val) {document : DocumentMetadata}
    (hdocument : (after .empty pre).documents.get? (documentKey access version.documentId) =
      some document)
    (hnew : (after .empty pre).versions.get? (file version access).key = none) :
    env 0 (versionEvent version access) = .returned := by
  cases hanswer : env 0 (versionEvent version access) with
  | returned => rfl
  | raised =>
      exfalso
      have hexec := exec_addVersion (after .empty pre) access env hscope hdocument
      simp only [hnew, hanswer] at hexec
      have hstate := after_snoc .empty pre (.addVersion version access, env)
      rw [hexec] at hstate
      have hstill : (after .empty (pre ++ [(.addVersion version access, env)])).documents.get?
          (documentKey access version.documentId) = some document := by
        rw [hstate]
        exact hdocument
      have hread := exec_get_reader env hstill
      have hlisted := h.listed (pre ++ [(.addVersion version access, env)]) post
        (by rw [hsplit]; simp) _ _ _ _ _ hread
      have hmem : version ∈ (after .empty (pre ++ [(.addVersion version access, env)])).versionsOf
          (documentKey access version.documentId) := by
        rw [mem_versionsOf, hstate]
        exact ⟨Table.mem_put.2 (.inl rfl), rfl⟩
      -- it was added by one of the calls before, so that it was stored already
      have hadded := ((hlisted.2 version).1 hmem).of_snoc (by rw [hexec]; exact Bool.false_ne_true)
      have hstored := Table.get?_of_mem (stored_of_added hadded).1
      have hsame : ((documentKey (reader document access) version.documentId).file version).key =
          (file version access).key := rfl
      rw [hsame, hnew] at hstored
      cases hstored

/-- A run that is lawful was careful in every step, or a version would stand in a foreign place. -/
theorem Lawful.careful {xs : List Step} (h : Lawful xs) : CarefulRun xs := by
  intro pre x post hsplit
  rcases x with ⟨c, env⟩
  cases c with
  | register documentId title category dataClassification access now => trivial
  | get documentId access => trivial
  | addVersion version access =>
      intro hscope document hdocument
      have hisolated := h.isolated pre _ post hsplit document hdocument
      rw [exec_addVersion (after .empty pre) access env hscope hdocument] at hisolated
      -- a version added to a foreign document would be listed by its owner
      cases hexisting : (after .empty pre).versions.get? (file version access).key with
      | some existing =>
          rw [hexisting] at hisolated
          intro hsame
          simp only [if_pos hsame] at hisolated
          exact hisolated rfl
      | none =>
          have hanswer := h.appended hsplit hscope hdocument hexisting
          rw [hexisting, hanswer] at hisolated
          exact ⟨hisolated rfl, hanswer⟩

/-- The law holds exactly of the careful runs. -/
theorem documents_lawful_iff (xs : List Step) : Lawful xs ↔ CarefulRun xs := by
  constructor
  · exact Lawful.careful
  · intro h
    refine ⟨?_, ?_, ?_⟩
    · intro pre x post hsplit document hdocument hok
      exact isolated_of_careful (h pre x post hsplit) hdocument hok
    · rintro pre post rfl
      -- the later calls start in the state the earlier ones leave
      have hafter : after .empty (pre ++ post) = after (after .empty pre) post := by
        simp [after]
      rw [hafter]
      exact after_keeps _ post
    · rintro pre post rfl documentId access env document versions hread
      rcases exec_get (after .empty pre) access env documentId with
        ⟨e, he, -⟩ | ⟨found, -, -, he⟩
      · rw [he] at hread
        cases hread
      · rw [he] at hread
        cases hread
        refine ⟨versionsOf_nodup _ _, fun version => ⟨fun hmem => ?_, fun hadded => ?_⟩⟩
        · rcases mem_versionsOf.1 hmem with ⟨hstored, hid⟩
          have hadded := h.of_append.filled _ hstored
          have hkey : ((documentKey access documentId).file version).key.document =
              documentKey access documentId := by
            simp only [Filed.key, DocumentKey.file, hid, documentKey]
          rw [hkey] at hadded
          exact hadded
        · exact mem_versionsOf.2 (stored_of_added hadded)

/-! ## A version of others -/

/-- A member of an organization in the workspace. -/
def editor (organizationId : Identifier) : KnowledgeAccessContext where
  tenantId := ⟨"tenant", by decide⟩
  organizationId := organizationId
  workspaceId := ⟨"library", by decide⟩
  actorId := ⟨"editor", by decide⟩
  correlationId := ⟨"edition", by decide⟩
  scopeRefs := ⟨{"scope.documents.write"}, by decide⟩
  dataClassification := .internal

/-- A version of the manual. -/
def firstVersion : DocumentVersion where
  documentId := "manual"
  version := "1.0.0"
  sourceId := "source"
  sourceVersion := "1.0.0"
  storageUri := "https://sources/manual"
  contentHash := "sha256:e3b0c44298fc1c149afbf4c8996fb92427ae41e4649b934ca495991b7852b855"
  createdBy := "editor"
  createdAt := 0

/-- One organization registers a document, another one adds a version to it. -/
def intruding : List Step :=
  [(.register "manual" "Manual" "guides" .internal (editor ⟨"org-a", by decide⟩) 0,
      fun _ _ => .returned),
    (.addVersion firstVersion (editor ⟨"org-b", by decide⟩), fun _ _ => .returned)]

/-- A version added from another organization breaks the law. -/
theorem version_added_by_others : ¬ Lawful intruding := by
  intro h
  have hsame := h.isolated [intruding[0]] intruding[1] [] rfl _ rfl rfl
  exact absurd hsame (by decide)

end Alos.Documents
