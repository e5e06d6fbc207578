import Alos.Registry.Authorized
import Alos.Registry.Capabilities
import Alos.Registry.Stores

/-! # The detail of a capability

A detail without a version is to be that of the highest version that the
principal may read. The code takes the highest version of all and then looks
whether the principal may read it.

* `Visible` is the rule of the endpoint, for one version;
* `detail_ok`: a detail is the projection of the latest entry, which is visible;
* `shows_iff`: the highest visible version is shown if and only if no version is
  visible or the latest one is;
* `hidden_by_draft`: a draft of another actor hides an active version.
-/

namespace Alos.Registry

open Coop Py

/-- The principal may read the version: it is active, or the principal's draft, and
authorized. -/
structure Visible (principal : Principal) (capabilityId : String) (entry : RegistryEntry) :
    Prop where
  place : InPlace principal entry
  subjectId : entry.subjectId = capabilityId
  stage : entry.state = .active ∨ (entry.state = .draft ∧ entry.createdBy = principal.actorId)
  authorized : authorized principal entry = .ok true

/-- No visible version is higher. -/
structure HighestVisible (entries : Table RegistryEntry.key) (principal : Principal)
    (capabilityId : String) (entry : RegistryEntry) : Prop where
  registered : entry ∈ entries.values
  visible : Visible principal capabilityId entry
  highest : ∀ other ∈ entries.values, Visible principal capabilityId other →
    (compare (precedence other) (precedence entry)).isLE = true

/-- A detail shows the highest visible version, and is refused only if there is
none. -/
structure Shows (contracts : CanonicalContractCatalog) (entries : Table RegistryEntry.key)
    (principal : Principal) (capabilityId : String) : Prop where
  shown : ∀ fields, detail contracts entries principal.tenantId principal.workspaceId capabilityId
    (some principal) = .ok fields →
      ∃ entry, HighestVisible entries principal capabilityId entry ∧
        project contracts entry = .ok fields
  refused : ∀ e, detail contracts entries principal.tenantId principal.workspaceId capabilityId
    (some principal) = .error e → ∀ entry ∈ entries.values, ¬ Visible principal capabilityId entry

section Detail

variable {contracts : CanonicalContractCatalog} {entries : Table RegistryEntry.key}
  {principal : Principal} {capabilityId : String}

/-- The view of an entry is authorized. -/
theorem authorized_iff {entry : RegistryEntry} {u : Unit} :
    (∃ view, RegistryAuthorityView.fromEntry entry = .ok view ∧ view.authorize principal = .ok u) ↔
      authorized principal entry = .ok true := by
  rw [← Except.bind_eq_ok]
  unfold authorized
  cases (RegistryAuthorityView.fromEntry entry >>= fun view => view.authorize principal) with
  | ok u' => simp
  | error e => cases e <;> simp

theorem requireReadable_ok {entry : RegistryEntry} {u : Unit} :
    requireReadable principal entry = .ok u ↔
      (entry.state = .active ∨ (entry.state = .draft ∧ entry.createdBy = principal.actorId)) ∧
        authorized principal entry = .ok true := by
  rw [← @authorized_iff principal entry u]
  unfold requireReadable
  cases hstate : entry.state <;>
    simp [Except.bind_eq_ok, Except.require_eq_ok, Except.mapError_eq_ok]

/-- The sort of a registry raises if a version is invalid. -/
theorem versioned_of_sorted {xs ys : List RegistryEntry} (h : sorted xs = .ok ys) :
    ∀ entry ∈ xs, Versioned entry := by
  simp only [sorted, Except.bind_eq_ok, Except.pure_eq_ok] at h
  obtain ⟨keyed, hkeyed, -⟩ := h
  intro entry hentry
  obtain ⟨pair, hpair⟩ := Except.ok_of_mapM hkeyed hentry
  simp only [Except.bind_eq_ok] at hpair
  obtain ⟨semver, hsemver, -⟩ := hpair
  exact ⟨semver, hsemver⟩

/-- What the latest entry of a subject is. -/
structure Latest (entries : Table RegistryEntry.key) (principal : Principal) (subjectId : String)
    (entry : RegistryEntry) : Prop where
  registered : entry ∈ entries.values
  place : InPlace principal entry
  subject : entry.subjectId = subjectId
  highest : ∀ other ∈ entries.values, InPlace principal other → other.subjectId = subjectId →
    (compare (precedence other) (precedence entry)).isLE = true

theorem latestEntry_ok {subjectId : String} {entry : RegistryEntry}
    (h : latestEntry entries principal.tenantId principal.organizationId principal.workspaceId
      subjectId = .ok entry) : Latest entries principal subjectId entry := by
  simp only [latestEntry, Except.bind_eq_ok] at h
  obtain ⟨registered, hregistered, hlast⟩ := h
  cases hget : registered.getLast? with
  | none =>
      rw [hget] at hlast
      cases hlast
  | some last =>
      rw [hget] at hlast
      cases hlast
      unfold listEntries at hregistered
      rw [sorted_ok (versioned_of_sorted hregistered)] at hregistered
      cases hregistered
      have hmem := List.mem_of_getLast? hget
      rw [List.mem_insertionSort, List.mem_filter, decide_eq_true_eq] at hmem
      obtain ⟨hmem, htenant, horganization, hworkspace, hsubject⟩ := hmem
      have hsubject : subjectId = entry.subjectId := by simpa using hsubject
      refine ⟨hmem, ⟨htenant, horganization, hworkspace⟩, hsubject.symm, ?_⟩
      intro other hother hplace hothers
      have hsorted : other ∈ (entries.values.filter fun entry =>
          entry.tenantId = principal.tenantId ∧ entry.organizationId = principal.organizationId ∧
            entry.workspaceId = principal.workspaceId ∧
              (some subjectId = none ∨ some subjectId = some entry.subjectId)).insertionSort
                NotAfter := by
        rw [List.mem_insertionSort, List.mem_filter, decide_eq_true_eq]
        exact ⟨hother, hplace.1, hplace.2.1, hplace.2.2, .inr (congrArg some hothers.symm)⟩
      -- the list is sorted, and the entry is its last
      have hafter : NotAfter other entry :=
        rel_getLast (List.pairwise_insertionSort NotAfter _) hget hsorted
      exact hafter.precedence (hothers.trans hsubject)

/-- A detail is the projection of the latest entry, if that may be read. -/
theorem detail_ok {fields : Json.Fields} :
    detail contracts entries principal.tenantId principal.workspaceId capabilityId
        (some principal) = .ok fields ↔
      ∃ entry, latestEntry entries principal.tenantId principal.organizationId
          principal.workspaceId capabilityId = .ok entry ∧
        requireReadable principal entry = .ok () ∧ project contracts entry = .ok fields := by
  simp only [detail, latestEntry, Except.bind_eq_ok, Except.mapError_eq_ok]
  constructor
  · rintro ⟨registered, hregistered, h⟩
    -- the versions are sorted, so the last one is the latest
    cases hlast : registered.getLast? with
    | none =>
        rw [hlast] at h
        cases h
    | some entry =>
        rw [hlast] at h
        simp only [Except.bind_eq_ok] at h
        obtain ⟨u, hreadable, hproject⟩ := h
        exact ⟨entry, ⟨registered, hregistered, by rw [hlast]; rfl⟩, hreadable, hproject⟩
  · rintro ⟨entry, ⟨registered, hregistered, hlatest⟩, hreadable, hproject⟩
    refine ⟨registered, hregistered, ?_⟩
    cases hlast : registered.getLast? with
    | none =>
        rw [hlast] at hlatest
        cases hlatest
    | some last =>
        rw [hlast] at hlatest
        cases hlatest
        simp only [Except.bind_eq_ok]
        exact ⟨(), hreadable, hproject⟩

/-- The latest entry may be read if and only if it is visible. -/
theorem Latest.readable_iff {entry : RegistryEntry} (h : Latest entries principal capabilityId entry) :
    requireReadable principal entry = .ok () ↔ Visible principal capabilityId entry := by
  rw [requireReadable_ok]
  constructor
  · rintro ⟨hstage, hauthorized⟩
    exact ⟨h.place, h.subject, hstage, hauthorized⟩
  · intro hvisible
    exact ⟨hvisible.stage, hvisible.authorized⟩

/-- A visible latest entry is the highest visible one. -/
theorem Latest.highestVisible {entry : RegistryEntry}
    (h : Latest entries principal capabilityId entry)
    (hvisible : Visible principal capabilityId entry) :
    HighestVisible entries principal capabilityId entry := by
  refine ⟨h.registered, hvisible, ?_⟩
  intro other hother hothers
  exact h.highest other hother hothers.place hothers.subjectId

end Detail

/-- The latest version of all decides: it has to be visible, or none may be. The
contracts accept what visible versions are projected to. -/
theorem shows_iff (contracts : CanonicalContractCatalog) (entries : Table RegistryEntry.key)
    (principal : Principal) (capabilityId : String)
    (hprojects : ∀ entry ∈ entries.values, Visible principal capabilityId entry →
      ∃ fields, project contracts entry = .ok fields) :
    Shows contracts entries principal capabilityId ↔
      (∀ entry ∈ entries.values, ¬ Visible principal capabilityId entry) ∨
        ∃ entry, latestEntry entries principal.tenantId principal.organizationId
          principal.workspaceId capabilityId = .ok entry ∧
            Visible principal capabilityId entry := by
  constructor
  · intro h
    -- nothing is visible, or there is an answer and it shows the latest of all
    by_cases hnone : ∀ entry ∈ entries.values, ¬ Visible principal capabilityId entry
    · exact .inl hnone
    · right
      cases hdetail : detail contracts entries principal.tenantId principal.workspaceId capabilityId
          (some principal) with
      | error e => exact absurd (h.refused e hdetail) hnone
      | ok fields =>
          obtain ⟨entry, hlatest, hreadable, -⟩ := detail_ok.1 hdetail
          exact ⟨entry, hlatest, (latestEntry_ok hlatest).readable_iff.1 hreadable⟩
  · rintro (hnone | ⟨entry, hlatest, hvisible⟩)
    · constructor
      · intro fields hdetail
        obtain ⟨entry, hlatest, hreadable, -⟩ := detail_ok.1 hdetail
        have hvisible := (latestEntry_ok hlatest).readable_iff.1 hreadable
        exact absurd hvisible (hnone entry (latestEntry_ok hlatest).registered)
      · intro e hdetail
        exact hnone
    · have hentry := latestEntry_ok hlatest
      obtain ⟨fields, hproject⟩ := hprojects entry hentry.registered hvisible
      have hdetail := detail_ok.2 ⟨entry, hlatest, hentry.readable_iff.2 hvisible, hproject⟩
      constructor
      · intro fields' hdetail'
        rw [hdetail] at hdetail'
        cases hdetail'
        exact ⟨entry, hentry.highestVisible hvisible, hproject⟩
      · intro e hdetail'
        rw [hdetail] at hdetail'
        cases hdetail'

/-! ## A draft of another actor -/

/-- A capability registry that accepts every payload. -/
def openCapabilities : Registries Unit Unit where
  contracts := ⟨fun _ => true, fun _ _ => none⟩
  sha256 := fun _ => "digest"
  repr := fun _ => ""
  registry := fun _ => capabilityRegistry ()
  store := fun _ => .inMemory

def ledgerPayload (version : String) : Json.Fields :=
  [("capability_id", .str "capability.ledger"), ("version", .str version),
    ("name", .str "Ledger"), ("purpose", .str "Report"), ("owner", .str "finance"),
    ("capability_type", .str "REPORT"), ("risk_level", .str "LOW"),
    ("scope_refs", .arr [.str "scope.ledger"])]

def ledgerKey (version : String) : RegistryKey :=
  ⟨"tenant", "workspace", "capability.ledger", version⟩

def registerLedger (version actorId : String) : Call Unit × Appended :=
  (.register () (ledgerPayload version) "tenant" "organization" "workspace" actorId "corr" 0,
    .returned)

/-- The first version is registered, approved and activated. -/
def publishLedger : List (Call Unit × Appended) :=
  [registerLedger "1.0.0" "actor_maker",
    (.approve () (ledgerKey "1.0.0") "actor_it" "decision" "IT" "corr", .returned),
    (.activate () (ledgerKey "1.0.0") "actor_release" "release" "corr", .returned)]

/-- The dict of the registry after calls. -/
def ledgerAfter (ys : List (Call Unit × Appended)) : Table RegistryEntry.key :=
  (performAll openCapabilities .inMemory .empty ys).1.entries ()

def ledgerDetail (ys : List (Call Unit × Appended)) : Except DetailError Json.Fields :=
  detail openCapabilities.contracts (ledgerAfter ys) "tenant" "workspace" "capability.ledger"
    (some scopeHolder)

def ledgerEntry (version : String) (state : RegistryState) (createdBy : String) : RegistryEntry where
  subjectType := "capability"
  subjectId := "capability.ledger"
  version := version
  tenantId := "tenant"
  organizationId := "organization"
  workspaceId := "workspace"
  payload := ledgerPayload version
  digest := "digest"
  state := state
  createdBy := createdBy
  correlationId := "corr"
  createdAt := 0

def activeLedger : RegistryEntry :=
  { ledgerEntry "1.0.0" .active "actor_maker" with
    decisionId := some "decision", releaseId := some "release" }

theorem activeLedger_visible : Visible scopeHolder "capability.ledger" activeLedger := by
  refine ⟨⟨rfl, rfl, rfl⟩, rfl, .inl rfl, ?_⟩
  decide

theorem shows_iff_published :
    Shows openCapabilities.contracts (ledgerAfter publishLedger) scopeHolder "capability.ledger" := by
  have hvalues : (ledgerAfter publishLedger).values = [activeLedger] := rfl
  apply (shows_iff _ _ _ _ _).2
  · right
    exact ⟨activeLedger, rfl, activeLedger_visible⟩
  · intro entry hentry hvisible
    rw [hvalues, List.mem_singleton] at hentry
    rw [hentry]
    exact ⟨_, rfl⟩

/-- The active version is shown until another actor registers a draft. -/
theorem hidden_by_draft :
    (ledgerDetail publishLedger).isOk = true ∧
      (ledgerAfter (publishLedger ++ [registerLedger "2.0.0" "actor_other"])).values =
        [activeLedger, ledgerEntry "2.0.0" .draft "actor_other"] ∧
      Visible scopeHolder "capability.ledger" activeLedger ∧
      ledgerDetail (publishLedger ++ [registerLedger "2.0.0" "actor_other"]) =
        .error (.lookup notFoundMessage) ∧
      ¬ Shows openCapabilities.contracts
        (ledgerAfter (publishLedger ++ [registerLedger "2.0.0" "actor_other"])) scopeHolder
          "capability.ledger" := by
  have hvalues : (ledgerAfter (publishLedger ++ [registerLedger "2.0.0" "actor_other"])).values =
      [activeLedger, ledgerEntry "2.0.0" .draft "actor_other"] := rfl
  -- the draft of the other actor is the latest version
  have hrefused : ledgerDetail (publishLedger ++ [registerLedger "2.0.0" "actor_other"]) =
      .error (.lookup notFoundMessage) := rfl
  refine ⟨rfl, hvalues, activeLedger_visible, hrefused, ?_⟩
  intro h
  refine h.refused _ hrefused activeLedger ?_ activeLedger_visible
  rw [hvalues]
  exact List.mem_cons_self

end Alos.Registry
