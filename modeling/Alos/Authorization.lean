import Alos.Identity

/-! # The allow policy

`AuthorizationPolicy.is_allowed` of `alos.authorization.policy`. Any missing
fact produces a denial.
-/

namespace Alos.AuthorizationPolicy

def isAllowed (principal : Option Principal)
    (tenantId organizationId workspaceId requiredPermission : String)
    (requiredScopes : Finset String := ∅) (divisionId projectId : Option String := none) : Bool :=
  match principal with
  | none => false
  | some principal =>
      if ¬ principal.active then false
      else if principal.tenantId ≠ tenantId ∨ principal.organizationId ≠ organizationId ∨
          principal.workspaceId ≠ workspaceId then false
      else if divisionId ≠ none ∧ (principal.divisionId = none ∨ principal.divisionId ≠ divisionId)
        then false
      else if projectId ≠ none ∧ (principal.projectId = none ∨ principal.projectId ≠ projectId)
        then false
      else if requiredPermission ∉ principal.permissions then false
      else requiredScopes ⊆ principal.scopes

/-- The principal is known, active, of this tenant, organization and
workspace, and holds the permission and the scopes. -/
structure Holds (principal : Option Principal)
    (tenantId organizationId workspaceId requiredPermission : String)
    (requiredScopes : Finset String) (p : Principal) : Prop where
  known : principal = some p
  active : p.active = true
  tenantId : p.tenantId = tenantId
  organizationId : p.organizationId = organizationId
  workspaceId : p.workspaceId = workspaceId
  permission : requiredPermission ∈ p.permissions
  scopes : requiredScopes ⊆ p.scopes

/-- What the policy checks of a principal. -/
theorem isAllowed_some_iff (p : Principal)
    (tenantId organizationId workspaceId requiredPermission : String)
    (requiredScopes : Finset String) (divisionId projectId : Option String) :
    isAllowed (some p) tenantId organizationId workspaceId requiredPermission requiredScopes
        divisionId projectId ↔
      Holds (some p) tenantId organizationId workspaceId requiredPermission requiredScopes p ∧
        (divisionId ≠ none → p.divisionId = divisionId) ∧
        (projectId ≠ none → p.projectId = projectId) := by
  constructor
  · intro h
    simp only [isAllowed] at h
    split at h
    · cases h
    split at h
    · cases h
    split at h
    · cases h
    split at h
    · cases h
    rename_i hactive hplace hdivision hproject
    simp only [not_or, not_not] at hplace
    simp only [not_not] at hactive
    have hscopes : requiredPermission ∈ p.permissions ∧ requiredScopes ⊆ p.scopes := by
      simpa using h
    refine ⟨⟨rfl, hactive, hplace.1, hplace.2.1, hplace.2.2, hscopes.1, hscopes.2⟩, ?_, ?_⟩
    · intro hne
      by_contra hother
      exact hdivision ⟨hne, .inr hother⟩
    · intro hne
      by_contra hother
      exact hproject ⟨hne, .inr hother⟩
  · rintro ⟨hp, hdivision, hproject⟩
    -- a target that is the principal's own is not missing
    have hdivision' : ¬ (divisionId ≠ none ∧ (p.divisionId = none ∨ p.divisionId ≠ divisionId)) := by
      rintro ⟨hne, hnone | hother⟩
      · exact hne (by rw [← hdivision hne, hnone])
      · exact hother (hdivision hne)
    have hproject' : ¬ (projectId ≠ none ∧ (p.projectId = none ∨ p.projectId ≠ projectId)) := by
      rintro ⟨hne, hnone | hother⟩
      · exact hne (by rw [← hproject hne, hnone])
      · exact hother (hproject hne)
    simp [isAllowed, hp.active, hp.tenantId, hp.organizationId, hp.workspaceId,
      hp.permission, hp.scopes, if_neg hdivision', if_neg hproject']

/-- Without a division and a project, exactly the facts listed are checked. -/
theorem isAllowed_iff (principal : Option Principal)
    (tenantId organizationId workspaceId requiredPermission : String)
    (requiredScopes : Finset String) :
    isAllowed principal tenantId organizationId workspaceId requiredPermission requiredScopes ↔
      ∃ p, Holds principal tenantId organizationId workspaceId requiredPermission requiredScopes
        p := by
  -- without a principal nothing is allowed
  cases principal with
  | none =>
      simp only [isAllowed, Bool.false_eq_true, false_iff, not_exists]
      intro p hp
      cases hp.known
  | some principal =>
      rw [isAllowed_some_iff]
      constructor
      · rintro ⟨hp, -, -⟩
        exact ⟨principal, hp⟩
      · rintro ⟨p, hp⟩
        cases hp.known
        simp [hp]

end Alos.AuthorizationPolicy
