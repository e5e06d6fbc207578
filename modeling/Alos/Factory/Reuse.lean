import Alos.Containers
import Alos.Factory.Failure
import Alos.Registry.Authorized
import Alos.Registry.Versions

/-! # What a reuse refers to

A call of `analyze` has two segments around the answer of GENESIS: the catalog is
read in the first one, and the answer is checked in the second one, when others may
have changed the registries.

* `mem_catalogSnapshot`: the catalog is of the versions that the principal may use;
* `resolve_reuse` says what is checked of an answer that decides for a reuse;
* `reuse_iff`: the references of the response are of the catalog, exactly when
  those of the answer are, for no check looks at them.
-/

namespace Alos.Factory

open Coop Py Registry Except

/-! ## The catalog -/

/-- The item, or reference, is to the version of the capability. -/
def Names (item : Json) (capabilityId version : String) : Prop :=
  ∃ fields : Json.Fields, item = .obj fields ∧
    fields.get? "capability_id" = some (.str capabilityId) ∧
    fields.get? "version" = some (.str version)

/-- The version is active in the workspace of the principal, who is authorized for it. -/
def Offered (entries : Table RegistryEntry.key) (principal : Principal)
    (capabilityId version : String) : Prop :=
  ∃ entry ∈ entries.values, entry.subjectId = capabilityId ∧ entry.version = version ∧
    InPlace principal entry ∧ entry.state = .active ∧ authorized principal entry = .ok true

theorem catalogItem_names {entry : RegistryEntry} {catalogued : Json}
    (h : catalogItem entry = .ok catalogued) (capabilityId version : String) :
    Names catalogued capabilityId version ↔
      entry.subjectId = capabilityId ∧ entry.version = version := by
  simp only [catalogItem, bind_eq_ok, pure_eq_ok] at h
  rcases h with ⟨name, -, purpose, -, capabilityType, -, rfl⟩
  constructor
  · rintro ⟨fields, hfields, hid, hversion⟩
    cases hfields
    simp only [Json.Fields.get?, List.cons_append, lookup_cons_same, Option.some.injEq,
      Json.str.injEq] at hid
    rw [Json.Fields.get?, List.cons_append, lookup_cons_ne (by decide), List.cons_append,
      lookup_cons_same] at hversion
    exact ⟨hid, Json.str.inj (Option.some.inj hversion)⟩
  · rintro ⟨rfl, rfl⟩
    exact ⟨_, rfl, rfl, rfl⟩

section Catalog

variable {entries : Table RegistryEntry.key} {principal : Principal} {catalog : List Json}

/-- The entries of the list are those that the principal may use. -/
theorem mem_listAuthorizedEntries {listed : List RegistryEntry}
    (h : listAuthorizedEntries entries (some principal) = .ok listed) (entry : RegistryEntry) :
    entry ∈ listed ↔ entry ∈ entries.values ∧ InPlace principal entry ∧ entry.state = .active ∧
      authorized principal entry = .ok true := by
  simp only [listAuthorizedEntries, bind_eq_ok] at h
  rcases h with ⟨selected, hselected, hsorted⟩
  have hmem : entry ∈ listed ↔ entry ∈ selected := (perm_sorted hsorted).mem_iff
  rw [hmem, mem_filterM hselected, List.mem_filter, decide_eq_true_eq, InPlace]
  tauto

/-- The catalog has an item of every version that is offered, and no other one. -/
theorem mem_catalogSnapshot (h : catalogSnapshot entries principal = .ok catalog)
    (capabilityId version : String) :
    (∃ catalogued ∈ catalog, Names catalogued capabilityId version) ↔
      Offered entries principal capabilityId version := by
  simp only [catalogSnapshot, bind_eq_ok, mapError_eq_ok] at h
  rcases h with ⟨listed, hlisted, hitems⟩
  constructor
  -- an item comes from an entry that is listed
  · rintro ⟨catalogued, hmem, hnames⟩
    rcases mem_of_mapM hitems hmem with ⟨entry, hentry, hitem⟩
    rcases (catalogItem_names hitem _ _).1 hnames with ⟨hid, hversion⟩
    obtain ⟨hvalues, hplace, hactive, hauthorized⟩ := (mem_listAuthorizedEntries hlisted entry).1 hentry
    exact ⟨entry, hvalues, hid, hversion, hplace, hactive, hauthorized⟩
  -- an entry that is authorized is listed, and its item is in the catalog
  · rintro ⟨entry, hvalues, hid, hversion, hplace, hactive, hauthorized⟩
    have hentry := (mem_listAuthorizedEntries hlisted entry).2
      ⟨hvalues, hplace, hactive, hauthorized⟩
    rcases ok_of_mapM hitems hentry with ⟨catalogued, hitem⟩
    obtain ⟨items, hitems', hall⟩ := exists_mapM fun x hx => ok_of_mapM hitems hx
    rw [hitems] at hitems'
    cases hitems'
    exact ⟨catalogued, hall entry hentry catalogued hitem,
      (catalogItem_names hitem _ _).2 ⟨hid, hversion⟩⟩

end Catalog

section Reuse

variable {ι κ : Type} [DecidableEq ι] [DecidableEq κ] (F : FactoryOrchestrator ι κ)
  (principal : Principal) (correlationId : String)

/-! ## The answer -/

/-- The items of `existing_capability_refs`. -/
def existingRefs (fields : Json.Fields) : List Json :=
  ((fields.get? "existing_capability_refs").bind iter).getD []

/-- The response to a reuse. -/
def reused (reason refs : Json) : Json.Fields :=
  [("correlation_id", .str correlationId), ("decision", .str "REUSE"), ("reason", reason),
    ("existing_capability_refs", refs), ("capability_draft", .null), ("agent_draft", .null),
    ("registry_result", .null)]

/-- What is checked of an answer that decides for a reuse. -/
structure Passes (result : Json.Fields) : Prop where
  valid : ∃ validated, F.contracts.validate internalResultSchema result = .ok validated
  correlation : result.get? "correlation_id" = some (.str correlationId)
  resolved : ∃ (resolution : Json.Fields) (reason refs : Json),
    result.get? "resolution" = some (.obj resolution) ∧
    requireRequirementLinkage resolution correlationId = .ok () ∧
    failClosedOnAmbiguity resolution correlationId = .ok () ∧
    resolution.get? "reason" = some reason ∧
    result.get? "existing_capability_refs" = some refs ∧
    ∃ validated, F.contracts.validate publicResponseSchema (reused correlationId reason refs) =
      .ok validated

variable {F principal correlationId}

omit [DecidableEq ι] [DecidableEq κ] in
theorem reuseResponse_ok {result resolution response : Json.Fields} :
    reuseResponse F result resolution correlationId = .ok response ↔
      ∃ reason refs, resolution.get? "reason" = some reason ∧
        result.get? "existing_capability_refs" = some refs ∧
        response = reused correlationId reason refs ∧
        ∃ validated, F.contracts.validate publicResponseSchema (reused correlationId reason refs) =
          .ok validated := by
  simp only [reuseResponse, bind_eq_ok, required_eq_ok, mapError_eq_ok]
  constructor
  · rintro ⟨reason, hreason, refs, hrefs, hvalid⟩
    exact ⟨reason, refs, hreason, hrefs, CanonicalContractCatalog.validate_eq hvalid, _, hvalid⟩
  · rintro ⟨reason, refs, hreason, hrefs, rfl, validated, hvalid⟩
    have hsame := CanonicalContractCatalog.validate_eq hvalid
    subst hsame
    exact ⟨reason, hreason, refs, hrefs, hvalid⟩

omit [DecidableEq ι] [DecidableEq κ] in
/-- An answer that decides for a reuse and passes is what the response is made of. -/
theorem resolve_reuse {result : Json.Fields} (hreuses : Reuses result) {resolved : Resolved} :
    resolve F result principal correlationId = .ok resolved ↔
      Passes F correlationId result ∧ ∃ resolution reason refs,
        result.get? "resolution" = some (.obj resolution) ∧
        Json.Fields.get? resolution "reason" = some reason ∧
        result.get? "existing_capability_refs" = some refs ∧
        resolved = .reuse (reused correlationId reason refs) := by
  rcases hreuses with ⟨resolution, hresolution, hdecision⟩
  unfold resolve
  simp only [bind_eq_ok, mapError_eq_ok, required_eq_ok]
  constructor
  · rintro ⟨validated, hvalid, supplied, hsupplied, h⟩
    rcases CanonicalContractCatalog.validate_eq hvalid with rfl
    -- an answer to another request is refused
    by_cases hlinked : EqText supplied correlationId
    · rw [if_neg (not_not.2 hlinked)] at h
      simp only [bind_eq_ok, required_eq_ok, resolutionOf_eq_ok] at h
      rcases h with ⟨resolution', hresolution', decision, hdecision', _, hlinkage, _, hambiguity, h⟩
      rw [hresolution] at hresolution'
      cases hresolution'
      rw [hdecision] at hdecision'
      cases hdecision'
      simp only [EqText, if_true, bind_eq_ok, pure_eq_ok, reuseResponse_ok] at h
      rcases h with ⟨response, ⟨reason, refs, hreason, hrefs, rfl, hresponse⟩, rfl⟩
      refine ⟨⟨⟨_, hvalid⟩, ?_, resolution, reason, refs, hresolution, hlinkage, hambiguity,
        hreason, hrefs, hresponse⟩, resolution, reason, refs, hresolution, hreason, hrefs, rfl⟩
      rw [hsupplied, hlinked.eq]
    · rw [if_pos hlinked] at h
      simp [throw_ne_ok, bind_eq_ok] at h
  · rintro ⟨⟨⟨validated, hvalid⟩, hcorrelation, resolution', reason', refs', hresolution', hlinkage,
      hambiguity, hreason', hrefs', hresponse⟩, resolution'', reason, refs, hresolution'', hreason,
      hrefs, rfl⟩
    rw [hresolution] at hresolution' hresolution''
    cases hresolution'
    cases hresolution''
    rw [hreason'] at hreason
    cases hreason
    rw [hrefs'] at hrefs
    cases hrefs
    have hsame := CanonicalContractCatalog.validate_eq hvalid
    subst hsame
    refine ⟨_, hvalid, _, hcorrelation, ?_⟩
    have hlinked : EqText (.str correlationId) correlationId := rfl
    rw [if_neg (not_not.2 hlinked)]
    simp only [bind_eq_ok, required_eq_ok, resolutionOf_eq_ok]
    refine ⟨resolution, hresolution, _, hdecision, (), hlinkage, (), hambiguity, ?_⟩
    simp only [EqText, if_true, bind_eq_ok, pure_eq_ok, reuseResponse_ok]
    exact ⟨_, ⟨reason', refs', hreason', hrefs', rfl, hresponse⟩, rfl⟩

/-! ## The response -/

omit [DecidableEq ι] [DecidableEq κ] in
/-- The catalog that GENESIS is sent. -/
theorem request_catalog {entries : Table RegistryEntry.key} {payload internalRequest : Json.Fields}
    (h : request F entries payload principal correlationId = .ok internalRequest) :
    ∃ catalog, catalogSnapshot entries principal = .ok catalog ∧
      internalRequest.get? "capability_catalog" = some (.arr catalog) := by
  unfold request at h
  simp only [bind_eq_ok] at h
  rcases h with ⟨_, -, h⟩
  -- the catalog is read behind the checks on the principal
  by_cases hactive : principal.active = true
  · rw [if_neg (not_not.2 hactive)] at h
    by_cases hscopes : principal.scopes = ∅
    · rw [if_pos hscopes] at h
      simp [throw_ne_ok, bind_eq_ok] at h
    · rw [if_neg hscopes] at h
      simp only [bind_eq_ok, mapError_eq_ok, pure_eq_ok] at h
      rcases h with ⟨statement, -, catalog, hcatalog, _, -, rfl⟩
      exact ⟨catalog, hcatalog, rfl⟩
  · rw [if_pos hactive] at h
    simp [throw_ne_ok, bind_eq_ok] at h

variable (F principal correlationId) (now : ι → Datetime) (payload result : Json.Fields)
  (s s' : Memory ι κ)

/-- The call asks GENESIS in the state `s`, and is answered in the state `s'`. Every
reference of the response to a reuse is to a version in the catalog that was sent,
which the principal may use. -/
def ReusesCatalog : Prop :=
  ∀ internalRequest k response,
    (analyze F payload principal correlationId now).advance s =
      (s, .awaiting (.genesis internalRequest) k) →
    Reuses result → (k (.returned result)).advance s' = (s', .returned response) →
      ∀ ref ∈ existingRefs response, ∃ capabilityId version, Names ref capabilityId version ∧
        (∃ catalog, internalRequest.get? "capability_catalog" = some (.arr catalog) ∧
          ∃ catalogued ∈ catalog, Names catalogued capabilityId version) ∧
        Offered (s.entries F.capabilities) principal capabilityId version

/-- If the request can be made and the answer passes the checks of a reuse, its
references are to versions that the principal may use. -/
def AnswersFromCatalog : Prop :=
  (∃ internalRequest, request F (s.entries F.capabilities) payload principal correlationId =
    .ok internalRequest) → Reuses result → Passes F correlationId result →
      ∀ ref ∈ existingRefs result, ∃ capabilityId version, Names ref capabilityId version ∧
        Offered (s.entries F.capabilities) principal capabilityId version

variable {F principal correlationId now payload result s s'}

/-- What follows the answer. -/
def afterAnswer (F : FactoryOrchestrator ι κ) (principal : Principal) (correlationId : String)
    (now : ι → Datetime) : GenesisAnswer → Op ι κ Json.Fields
  | .returned result =>
      (Proc.ofExcept (resolve F result principal correlationId)).bind fun
        | .reuse response => .ret response
        | .create proposal => create F proposal principal correlationId now
  | .failed e => .raise (clientRefusal e correlationId)
  | .raised => .raise .genesis

/-- The first segment: the request, if it can be made. -/
theorem analyze_advance : (analyze F payload principal correlationId now).advance s =
    match request F (s.entries F.capabilities) payload principal correlationId with
    | .error e => (s, .raised e)
    | .ok internalRequest =>
        (s, .awaiting (.genesis internalRequest) (afterAnswer F principal correlationId now)) := by
  simp only [analyze, Proc.bind_def, Proc.get_bind, Proc.advance_read]
  cases request F (s.entries F.capabilities) payload principal correlationId with
  | error e => rfl
  | ok internalRequest =>
      simp only [Proc.ofExcept, Proc.ret_bind, consult, Proc.bind_def, Proc.ask_bind, Proc.bind,
        Proc.advance_await, Prod.mk.injEq, Yield.awaiting.injEq, heq_eq_eq, true_and]
      funext answer
      cases answer with
      | returned result =>
          simp only [Proc.pure_def, Proc.ret_bind, afterAnswer]
          congr 1
      | failed e => rfl
      | raised => rfl

/-- The second segment, when the answer decides for a reuse. -/
theorem afterAnswer_reuse (hreuses : Reuses result) {response : Json.Fields} :
    (afterAnswer F principal correlationId now (.returned result)).advance s' =
        (s', .returned response) ↔
      Passes F correlationId result ∧ ∃ resolution reason refs,
        result.get? "resolution" = some (.obj resolution) ∧
        Json.Fields.get? resolution "reason" = some reason ∧
        result.get? "existing_capability_refs" = some refs ∧
        response = reused correlationId reason refs := by
  simp only [afterAnswer]
  constructor
  · intro h
    -- the response is made of the refs that the answer names
    cases hresolve : resolve F result principal correlationId with
    | error e =>
        rw [hresolve] at h
        cases h
    | ok resolved =>
        obtain ⟨hpasses, resolution, reason, refs, hresolution, hreason, hrefs, rfl⟩ :=
          (resolve_reuse hreuses).1 hresolve
        rw [hresolve] at h
        simp only [Proc.ofExcept, Proc.ret_bind, Proc.advance_ret, Prod.mk.injEq,
          Yield.returned.injEq, true_and] at h
        exact ⟨hpasses, resolution, reason, refs, hresolution, hreason, hrefs, h.symm⟩
  · rintro ⟨hpasses, resolution, reason, refs, hresolution, hreason, hrefs, rfl⟩
    have hresolve : resolve F result principal correlationId =
        .ok (.reuse (reused correlationId reason refs)) :=
      (resolve_reuse hreuses).2 ⟨hpasses, resolution, reason, refs, hresolution, hreason, hrefs, rfl⟩
    rw [hresolve]
    rfl

theorem existingRefs_reused {reason refs : Json} {result : Json.Fields}
    (h : result.get? "existing_capability_refs" = some refs) :
    existingRefs (reused correlationId reason refs) = existingRefs result := by
  rw [existingRefs, existingRefs, h]
  rfl

theorem reuse_iff (F : FactoryOrchestrator ι κ) (principal : Principal) (correlationId : String)
    (now : ι → Datetime) (payload result : Json.Fields) (s s' : Memory ι κ) :
    ReusesCatalog F principal correlationId now payload result s s' ↔
      AnswersFromCatalog F principal correlationId payload result s := by
  constructor
  · rintro h ⟨internalRequest, hrequest⟩ hreuses hpasses ref href
    rcases hpasses.resolved with ⟨resolution, reason, refs, hresolution, -, -, hreason, hrefs, -⟩
    -- the request goes to GENESIS first, with the catalog in it
    have hadvance : (analyze F payload principal correlationId now).advance s =
        (s, .awaiting (.genesis internalRequest) (afterAnswer F principal correlationId now)) := by
      rw [analyze_advance, hrequest]
    have hreturned : (afterAnswer F principal correlationId now (.returned result)).advance s' =
        (s', .returned (reused correlationId reason refs)) :=
      (afterAnswer_reuse hreuses).2
        ⟨hpasses, resolution, reason, refs, hresolution, hreason, hrefs, rfl⟩
    obtain ⟨capabilityId, version, hnames, -, hoffered⟩ :=
      h internalRequest _ _ hadvance hreuses hreturned ref (by rwa [existingRefs_reused hrefs])
    exact ⟨capabilityId, version, hnames, hoffered⟩
  · intro h internalRequest k response hadvance hreuses hreturned ref href
    rw [analyze_advance] at hadvance
    cases hrequest : request F (s.entries F.capabilities) payload principal correlationId with
    | error e =>
        rw [hrequest] at hadvance
        cases hadvance
    | ok sent =>
        rw [hrequest] at hadvance
        cases hadvance
        obtain ⟨hpasses, resolution, reason, refs, -, -, hrefs, rfl⟩ :=
          (afterAnswer_reuse hreuses).1 hreturned
        rw [existingRefs_reused hrefs] at href
        obtain ⟨capabilityId, version, hnames, hoffered⟩ := h ⟨_, hrequest⟩ hreuses hpasses ref href
        rcases request_catalog hrequest with ⟨catalog, hcatalog, hsent⟩
        exact ⟨capabilityId, version, hnames,
          ⟨catalog, hsent, (mem_catalogSnapshot hcatalog _ _).2 hoffered⟩, hoffered⟩

end Reuse

/-! ## An invented reference -/

/-- GENESIS decides for a reuse of a capability that nobody has registered. -/
def inventing : Json.Fields :=
  [("correlation_id", .str "corr_factory"),
    ("resolution", .obj [("decision", .str "REUSE"), ("reason", .str "A capability matches.")]),
    ("existing_capability_refs", .arr [.obj [("capability_id", .str "capability_invented"),
      ("version", .str "9.9.9")]]),
    ("capability_draft", .null), ("agent_draft", .null)]

theorem invented_reference : ¬ ReusesCatalog factory requester "corr_factory" (fun _ => 0)
    [("requirement", .str "Create a report.")] inventing Memory.empty Memory.empty := by
  intro h
  obtain ⟨_, _, -, -, entry, hentry, -⟩ := h _ _ _ rfl ⟨_, rfl, rfl⟩ rfl _ (List.mem_singleton.2 rfl)
  cases hentry

end Alos.Factory
