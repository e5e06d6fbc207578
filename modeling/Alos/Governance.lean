import Mathlib.Data.Finset.Basic

/-! # Review and assurance records

The records that the release gates read: `alos.governance.materiality`,
`alos.governance.gates.assurance`, `alos.reviews.decisions` and
`alos.reviews.packages`. Fields that no gate reads are left out.
-/

namespace Alos

inductive Materiality where
  | nonMaterial
  | material
deriving DecidableEq, Repr

def requiresDirector (m : Materiality) : Bool := m = .material

inductive TestCategory where
  | positive
  | negative
  | regression
  | security
  | recovery
deriving DecidableEq, Repr

structure AssuranceCheck where
  testId : String
  category : TestCategory
  passed : Bool
deriving DecidableEq, Repr

structure AutomatedAssuranceReport where
  checks : List AssuranceCheck
  requiredCategories : List TestCategory

/-- Some check was made, every required category was checked, and every check
passed. -/
def AutomatedAssuranceReport.passed (report : AutomatedAssuranceReport) : Bool :=
  let observedCategories := report.checks.map AssuranceCheck.category
  !report.checks.isEmpty && report.requiredCategories.all (· ∈ observedCategories) &&
    report.checks.all AssuranceCheck.passed

inductive AuthorityLevel where
  | it
  | director
deriving DecidableEq, Repr

inductive DecisionOutcome where
  | approved
  | returned
  | rejected
  | hold
deriving DecidableEq, Repr

structure AuthoritativeDecision where
  decisionId : String
  reviewId : String
  tenantId : Option String := none
  workspaceId : Option String := none
  releaseId : Option String := none
  subjectId : Option String := none
  authority : AuthorityLevel
  outcome : DecisionOutcome
  actorId : String
deriving DecidableEq, Repr

structure ReviewPackageReference where
  reviewId : String
  tenantId : String
  workspaceId : String
  subjectId : String
  subjectVersion : String
deriving DecidableEq, Repr

end Alos
