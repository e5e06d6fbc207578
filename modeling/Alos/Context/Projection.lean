import Mathlib.Data.Finset.Sort
import Mathlib.Data.String.Basic
import Alos.Identity
import Alos.Json.Fields
import Alos.Json.Spaced

/-! # The context of a principal

`build_context_projection`: what the frontend is told of the context that the
backend grants, and the id of this context, a digest of the authority.

* `fingerprint_same_iff`: the fingerprint tells apart what the context is made
  of, and nothing else;
* `contexts_identified`: principals have one context id just when each of them
  is granted a context and their authority is the same, and then they are told
  the same context.
-/

namespace Alos.Context

/-- `sorted(refs)`. -/
def sortedRefs (refs : Finset String) : Json := .arr ((refs.sort (· ≤ ·)).map .str)

def fingerprint (principal : Principal) : Json :=
  .obj [("tenant_id", .str principal.tenantId),
    ("organization_id", .str principal.organizationId),
    ("workspace_id", .str principal.workspaceId),
    ("actor_id", .str principal.actorId),
    ("scope_refs", sortedRefs principal.scopes)]

/-- `sha256` is the hexadecimal digest. -/
def contextId (sha256 : String → String) (principal : Principal) : String :=
  "context_" ++ String.ofList ((sha256 (Json.dumpsSpaced (fingerprint principal))).toList.take 24)

def buildContextProjection (sha256 : String → String) (principal : Principal)
    (correlationId : String) : Json.Fields :=
  if ¬ principal.active then
    [("status", .str "DENIED"),
      ("denial_reason", .str "The authenticated principal is not active."),
      ("correlation_id", .str correlationId)]
  else if principal.scopes = ∅ then
    [("status", .str "NEEDS_INFORMATION"),
      ("tenant_id", .str principal.tenantId),
      ("organization_id", .str principal.organizationId),
      ("workspace_id", .str principal.workspaceId),
      ("actor_id", .str principal.actorId),
      ("needs_info_reason", .str "At least one Backend-authorized scope is required."),
      ("correlation_id", .str correlationId)]
  else
    [("status", .str "ACTIVE"),
      ("context_id", .str (contextId sha256 principal)),
      ("tenant_id", .str principal.tenantId),
      ("organization_id", .str principal.organizationId),
      ("workspace_id", .str principal.workspaceId),
      ("actor_id", .str principal.actorId),
      ("data_classification", .str "INTERNAL"),
      ("scope_refs", sortedRefs principal.scopes),
      ("evidence_refs", .arr []),
      ("items", .arr []),
      ("correlation_id", .str correlationId)]

/-! ## The fingerprint -/

/-- What a context is made of. -/
structure SameAuthority (p q : Principal) : Prop where
  tenantId : p.tenantId = q.tenantId
  organizationId : p.organizationId = q.organizationId
  workspaceId : p.workspaceId = q.workspaceId
  actorId : p.actorId = q.actorId
  scopes : p.scopes = q.scopes

theorem sortKeys_sortedRefs (refs : Finset String) :
    Json.sortKeys (sortedRefs refs) = sortedRefs refs := by
  have hmap : Json.sortKeys ∘ Json.str = Json.str := rfl
  rw [sortedRefs, Json.sortKeys, Json.sortKeysAll_eq_map, List.map_map, hmap]

theorem sortedRefs_injective {refs refs' : Finset String} (h : sortedRefs refs = sortedRefs refs') :
    refs = refs' := by
  have hstr : Function.Injective Json.str := fun _ _ hs => Json.str.inj hs
  have hsorted := List.map_injective_iff.2 hstr (Json.arr.inj h)
  rw [← Finset.sort_toFinset refs (· ≤ ·), hsorted, Finset.sort_toFinset]

theorem sortKeys_fingerprint (p : Principal) :
    Json.sortKeys (fingerprint p) = .obj [("actor_id", .str p.actorId),
      ("organization_id", .str p.organizationId),
      ("scope_refs", sortedRefs p.scopes),
      ("tenant_id", .str p.tenantId),
      ("workspace_id", .str p.workspaceId)] := by
  have h₁ : ¬ "workspace_id" ≤ "actor_id" := by decide
  have h₂ : ¬ "organization_id" ≤ "actor_id" := by decide
  have h₃ : ¬ "tenant_id" ≤ "actor_id" := by decide
  have h₄ : ¬ "workspace_id" ≤ "scope_refs" := by decide
  have h₅ : "organization_id" ≤ "scope_refs" := by decide
  have h₆ : ¬ "tenant_id" ≤ "scope_refs" := by decide
  have h₇ : "tenant_id" ≤ "workspace_id" := by decide
  have h₈ : ¬ "tenant_id" ≤ "organization_id" := by decide
  simp [fingerprint, Json.sortKeys, Json.sortKeysItems, Json.sortItems, Json.insertByKey,
    sortKeys_sortedRefs, h₁, h₂, h₃, h₄, h₅, h₆, h₇, h₈]

/-- The fingerprint is the same value just when the authority is. -/
theorem fingerprint_same_iff {p q : Principal} :
    Json.Same (fingerprint p) (fingerprint q) ↔ SameAuthority p q := by
  rw [Json.Same, sortKeys_fingerprint, sortKeys_fingerprint]
  constructor
  · intro h
    simp only [Json.obj.injEq, List.cons.injEq, Prod.mk.injEq, true_and, and_true,
      Json.str.injEq] at h
    rcases h with ⟨hactor, horganization, hscopes, htenant, hworkspace⟩
    exact ⟨htenant, horganization, hworkspace, hactor, sortedRefs_injective hscopes⟩
  · intro h
    rw [h.tenantId, h.organizationId, h.workspaceId, h.actorId, h.scopes]

/-! ## The context id -/

section ContextId

variable {sha256 : String → String} {p q : Principal}

/-- The principals that are granted a context. -/
def Granted (p : Principal) : Prop := p.active ∧ p.scopes ≠ ∅

/-- `ps` have no two fingerprints whose digests, cut to 24 digits, collide. -/
def CollisionFree (sha256 : String → String) (ps : Set Principal) : Prop :=
  ∀ p ∈ ps, ∀ q ∈ ps, contextId sha256 p = contextId sha256 q →
    Json.dumpsSpaced (fingerprint p) = Json.dumpsSpaced (fingerprint q)

theorem context_id_iff {c id : String} :
    (buildContextProjection sha256 p c).get? "context_id" = some (.str id) ↔
      Granted p ∧ contextId sha256 p = id := by
  unfold buildContextProjection Granted
  split_ifs with hactive hscopes
  · simp [Json.Fields.get?, List.lookup_cons, hscopes]
  · simp [Json.Fields.get?, List.lookup_cons, hactive, hscopes]
  · simp [Json.Fields.get?, List.lookup_cons, hactive]

theorem contextId_congr (h : SameAuthority p q) : contextId sha256 p = contextId sha256 q := by
  have htext := Json.dumpsSpaced_eq_iff.2 (fingerprint_same_iff.2 h)
  rw [contextId, contextId, htext]

theorem contextId_eq_iff {ps : Set Principal} (hsha : CollisionFree sha256 ps) (hp : p ∈ ps)
    (hq : q ∈ ps) : contextId sha256 p = contextId sha256 q ↔ SameAuthority p q := by
  constructor
  · intro h
    exact fingerprint_same_iff.1 (Json.dumpsSpaced_eq_iff.1 (hsha p hp q hq h))
  · exact contextId_congr

theorem projection_congr (h : SameAuthority p q) (hp : Granted p) (hq : Granted q)
    (c c' : String) :
    (buildContextProjection sha256 p c).erase "correlation_id" =
      (buildContextProjection sha256 q c').erase "correlation_id" := by
  have hp' : ¬ ¬ p.active := not_not.2 hp.1
  have hq' : ¬ ¬ q.active := not_not.2 hq.1
  rw [buildContextProjection, buildContextProjection, if_neg hp', if_neg hp.2, if_neg hq',
    if_neg hq.2, contextId_congr h, h.tenantId, h.organizationId, h.workspaceId, h.actorId,
    h.scopes]
  simp [Json.Fields.erase]

/-- What a context id stands for among the principals `ps`. -/
structure Identified (sha256 : String → String) (ps : Set Principal) : Prop where
  /-- An id is told exactly to the active principals that have a scope. -/
  told : ∀ p ∈ ps, ∀ c,
    (∃ id, (buildContextProjection sha256 p c).get? "context_id" = some (.str id)) ↔ Granted p
  /-- One id is one authority: the same tenant, organization, workspace, actor
  and scopes, whatever the permissions, the roles and the request are. -/
  same : ∀ p ∈ ps, ∀ q ∈ ps, ∀ c c',
    (∃ id, (buildContextProjection sha256 p c).get? "context_id" = some (.str id) ∧
      (buildContextProjection sha256 q c').get? "context_id" = some (.str id)) ↔
    Granted p ∧ Granted q ∧ SameAuthority p q
  /-- Under one id everything else is told alike, but for the correlation id. -/
  alike : ∀ p ∈ ps, ∀ q ∈ ps, ∀ c c' id,
    (buildContextProjection sha256 p c).get? "context_id" = some (.str id) →
    (buildContextProjection sha256 q c').get? "context_id" = some (.str id) →
    (buildContextProjection sha256 p c).erase "correlation_id" =
      (buildContextProjection sha256 q c').erase "correlation_id"

theorem contexts_identified (ps : Set Principal) (hsha : CollisionFree sha256 ps) :
    Identified sha256 ps where
  told := by
    intro p hp c
    constructor
    · rintro ⟨id, hid⟩
      exact (context_id_iff.1 hid).1
    · intro hgranted
      exact ⟨_, context_id_iff.2 ⟨hgranted, rfl⟩⟩
  same := by
    intro p hp q hq c c'
    constructor
    · rintro ⟨id, hid, hid'⟩
      rcases context_id_iff.1 hid with ⟨hgranted, rfl⟩
      rcases context_id_iff.1 hid' with ⟨hgranted', heq⟩
      exact ⟨hgranted, hgranted', (contextId_eq_iff hsha hp hq).1 heq.symm⟩
    · rintro ⟨hgranted, hgranted', h⟩
      -- the same identity gives the same text, so the same id
      have heq : contextId sha256 q = contextId sha256 p := (contextId_congr h).symm
      exact ⟨_, context_id_iff.2 ⟨hgranted, rfl⟩, context_id_iff.2 ⟨hgranted', heq⟩⟩
  alike := by
    intro p hp q hq c c' id hid hid'
    rcases context_id_iff.1 hid with ⟨hgranted, rfl⟩
    rcases context_id_iff.1 hid' with ⟨hgranted', heq⟩
    have h : SameAuthority p q := (contextId_eq_iff hsha hp hq).1 heq.symm
    exact projection_congr h hgranted hgranted' c c'

end ContextId

/-- A member of the research workspace. -/
def member (actorId : String) (permissions : Finset String) : Principal where
  actorId := actorId
  tenantId := "tenant_research"
  organizationId := "org_research"
  workspaceId := "workspace_research"
  permissions := permissions
  scopes := {"scope_project"}

/-- The text of a member's fingerprint. -/
def memberText (actorId : String) : String :=
  String.ofList (Json.spaced (.obj [("actor_id", .str actorId),
    ("organization_id", .str "org_research"),
    ("scope_refs", .arr [.str "scope_project"]),
    ("tenant_id", .str "tenant_research"),
    ("workspace_id", .str "workspace_research")]))

/-- The SHA-256 digests of two members' fingerprints. -/
def memberDigest (text : String) : String :=
  if text = memberText "actor_ada" then
    "5b48a5273ff26fe44fc8f129ef26339b3777897cc2a3b4dd27e03afeb9c55f06"
  else if text = memberText "actor_eve" then
    "7cc84e1a52e93b6844e27b52e9bdfdc9722d7ec563d0a717201b76e7328e7d8b"
  else ""

theorem fingerprint_member (actorId : String) (permissions : Finset String) :
    Json.dumpsSpaced (fingerprint (member actorId permissions)) = memberText actorId := by
  have hscopes : sortedRefs {"scope_project"} = .arr [.str "scope_project"] := by
    rw [sortedRefs, Finset.sort_singleton, List.map_singleton]
  rw [Json.dumpsSpaced, sortKeys_fingerprint, memberText]
  simp only [member, hscopes]

theorem memberText_ne : memberText "actor_eve" ≠ memberText "actor_ada" := by
  intro h
  have hspaced := Json.spaced_injective (String.ofList_inj.mp h)
  simp at hspaced

/-- A permission more leaves the context id as it is, another actor has another. -/
theorem contexts_identified_members :
    Identified memberDigest {member "actor_ada" ∅, member "actor_ada" {"research.request"},
      member "actor_eve" ∅} := by
  have hada : ∀ permissions, contextId memberDigest (member "actor_ada" permissions) =
      "context_5b48a5273ff26fe44fc8f129" := by
    intro permissions
    rw [contextId, fingerprint_member, memberDigest, if_pos rfl]
    decide
  have heve : contextId memberDigest (member "actor_eve" ∅) =
      "context_7cc84e1a52e93b6844e27b52" := by
    rw [contextId, fingerprint_member, memberDigest, if_neg memberText_ne, if_pos rfl]
    decide
  have hne : "context_5b48a5273ff26fe44fc8f129" ≠ "context_7cc84e1a52e93b6844e27b52" := by decide
  apply contexts_identified
  rintro p (rfl | rfl | rfl) q (rfl | rfl | rfl) h <;>
    simp only [hada, heve, hne, hne.symm, fingerprint_member] at h ⊢

end Alos.Context
