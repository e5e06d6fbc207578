import Alos.Json.Value

/-! # The contract catalog

`CanonicalContractCatalog` of `alos.contracts.catalog`. The schemas and the JSON
Schema validator are outside the modelled code: a catalog says which schemas it
has and which violation, if any, is the first one of a payload.
-/

namespace Alos

/-- What `validate` raises: `ValueError` for a schema that is not there, else
`ContractValidationError`. -/
inductive ContractError where
  | unavailable (schemaId : String)
  | invalid (schemaId path reason : String)
deriving DecidableEq, Repr

/-- `str(exc)`. -/
def ContractError.text : ContractError → String
  | .unavailable schemaId => s!"Canonical schema is not available: {schemaId}"
  | .invalid schemaId path reason => s!"{schemaId} at {path}: {reason}"

structure CanonicalContractCatalog where
  hasSchema : String → Bool
  /-- Path and message of the first error that the validator reports. -/
  firstError : String → Json.Fields → Option (String × String)

namespace CanonicalContractCatalog

/-- The payload itself, if it satisfies the schema. -/
def validate (contracts : CanonicalContractCatalog) (schemaId : String) (payload : Json.Fields) :
    Except ContractError Json.Fields :=
  if contracts.hasSchema schemaId then
    match contracts.firstError schemaId payload with
    | some (path, reason) => .error (.invalid schemaId path reason)
    | none => .ok payload
  else .error (.unavailable schemaId)

theorem validate_eq {contracts : CanonicalContractCatalog} {schemaId : String}
    {payload validated : Json.Fields} (h : contracts.validate schemaId payload = .ok validated) :
    validated = payload := by
  unfold validate at h
  split at h
  · split at h
    · cases h
    · exact (Except.ok.inj h).symm
  · cases h

end CanonicalContractCatalog

end Alos
