import Alos.Json.Fields
import Alos.Tools.Executor

/-! # What equal digests mean

The digest of a request is taken of its canonical text. Where SHA-256 does not
collide, requests with equal digests are the same request: the same tool, the
same arguments, and the same execution context but for its correlation id.

* `dumps_immutable_iff`: equal texts are equal requests;
* `SameRequest.authority`: equal requests have the same tenant, organization,
  workspace, actor, refs and classification.
-/

namespace Alos.Tools

open Json

/-- The same tool, the same arguments, and the same context up to the
correlation id. -/
structure SameRequest (a b : ToolRequest) : Prop where
  toolId : a.toolId = b.toolId
  arguments : a.arguments.Same b.arguments
  context : (a.executionContext.fields.erase "correlation_id").Same
    (b.executionContext.fields.erase "correlation_id")

/-- The authority that a context declares is the same. -/
structure SameAuthority (a b : ExecutionContext) : Prop where
  tenantId : a.tenantId = b.tenantId
  organizationId : a.organizationId = b.organizationId
  workspaceId : a.workspaceId = b.workspaceId
  actorId : a.actorId = b.actorId
  permissionRefs : a.permissionRefs = b.permissionRefs
  scopeRefs : a.scopeRefs = b.scopeRefs
  dataClassification : a.dataClassification = b.dataClassification

theorem sortKeys_immutable (a : ToolRequest) :
    sortKeys (immutable a) = .obj [("arguments", sortKeys (.obj a.arguments)),
      ("execution_context",
        sortKeys (.obj (a.executionContext.fields.erase "correlation_id"))),
      ("tool_id", .str a.toolId)] := by
  have h₁ : ¬ "execution_context" ≤ "arguments" := by decide
  have h₂ : ¬ "tool_id" ≤ "arguments" := by decide
  have h₃ : ¬ "tool_id" ≤ "execution_context" := by decide
  simp [immutable, sortKeys, sortKeysItems, sortItems, insertByKey, h₁, h₂, h₃]

/-- Two requests have one canonical text exactly when they are the same. -/
theorem dumps_immutable_iff {a b : ToolRequest} :
    dumps (immutable a) = dumps (immutable b) ↔ SameRequest a b := by
  rw [dumps_eq_iff, Json.Same, sortKeys_immutable, sortKeys_immutable]
  constructor
  · intro h
    simp only [Json.obj.injEq, List.cons.injEq, Prod.mk.injEq, true_and, and_true,
      Json.str.injEq] at h
    exact ⟨h.2.2, h.1, h.2.1⟩
  · intro h
    rw [show sortKeys (.obj a.arguments) = sortKeys (.obj b.arguments) from h.arguments,
      show sortKeys (.obj (a.executionContext.fields.erase "correlation_id")) = _ from h.context,
      h.toolId]

/-! ## The fields of equal contexts -/

section Context

variable {a b : ExecutionContext}

theorem sortKeysAll_str (refs : List String) :
    sortKeysAll (refs.map .str) = refs.map .str := by
  induction refs with
  | nil => rfl
  | cons ref refs ih => simp [sortKeysAll, sortKeys, ih]

theorem str_of_get? {fs gs : Fields} {key s t : String}
    (h : (fs.get? key).map sortKeys = (gs.get? key).map sortKeys)
    (hs : fs.get? key = some (.str s)) (ht : gs.get? key = some (.str t)) : s = t := by
  rw [hs, ht] at h
  simpa [sortKeys] using h

theorem refs_of_get? {fs gs : Fields} {key : String} {refs refs' : List String}
    (h : (fs.get? key).map sortKeys = (gs.get? key).map sortKeys) (hfs : Refs fs key refs)
    (hgs : Refs gs key refs') : refs = refs' := by
  rcases hfs with hfs | ⟨hfs, rfl⟩ <;> rcases hgs with hgs | ⟨hgs, rfl⟩ <;>
    rw [hfs, hgs] at h
  · have hrefs : refs.map Json.str = refs'.map Json.str := by
      simpa [sortKeys, sortKeysAll_str] using h
    exact List.map_injective_iff.2 (fun _ _ h => Json.str.inj h) hrefs
  · cases h
  · cases h

theorem sameAuthority_of_same
    (h : (a.fields.erase "correlation_id").Same (b.fields.erase "correlation_id")) :
    SameAuthority a b := by
  -- the context is compared without its correlation id
  have hget : ∀ key, key ≠ "correlation_id" →
      (a.fields.get? key).map sortKeys = (b.fields.get? key).map sortKeys := by
    intro key hkey
    have hsame := Fields.get?_same h (a.nodup.erase _) (b.nodup.erase _) key
    rwa [Fields.get?_erase hkey, Fields.get?_erase hkey] at hsame
  exact {
    tenantId := str_of_get? (hget _ (by decide)) a.tenantId_eq b.tenantId_eq
    organizationId := str_of_get? (hget _ (by decide)) a.organizationId_eq b.organizationId_eq
    workspaceId := str_of_get? (hget _ (by decide)) a.workspaceId_eq b.workspaceId_eq
    actorId := str_of_get? (hget _ (by decide)) a.actorId_eq b.actorId_eq
    permissionRefs := refs_of_get? (hget _ (by decide)) a.permissionRefs_eq b.permissionRefs_eq
    scopeRefs := refs_of_get? (hget _ (by decide)) a.scopeRefs_eq b.scopeRefs_eq
    dataClassification := by
      have hclass := hget "data_classification" (by decide)
      rw [a.dataClassification_eq, b.dataClassification_eq] at hclass
      cases ha : a.dataClassification <;> cases hb : b.dataClassification <;>
        simp_all [sortKeys] }

end Context

theorem SameRequest.authority {a b : ToolRequest} (h : SameRequest a b) :
    SameAuthority a.executionContext b.executionContext :=
  sameAuthority_of_same h.context

end Alos.Tools
