import Alos.Containers
import Alos.Contracts

/-! # The evidence registry

`EvidenceRegistry` of `alos.evidence.registry`: one append-only dict for all
tenants, by evidence id.

* `register` stores a payload, unless other evidence has its id;
* `bundle` checks and registers the references of a bundle, one by one.
-/

namespace Alos

open Py

/-- `_evidence`. -/
abbrev EvidenceTable := Table (Prod.fst : String × Json.Fields → String)

/-- What the registry raises: `missing` is a `KeyError`, `typeError` a `TypeError` or
an `AttributeError`. -/
inductive EvidenceError where
  | contract (e : ContractError)
  | missing (key : String)
  | conflict (message : String)
  | typeError
deriving DecidableEq, Repr

/-- The parameters of the registry: the catalog, `repr` of a list or a dict, and the
integer that a float is equal to, if any. -/
structure EvidenceRegistry where
  contracts : CanonicalContractCatalog
  repr : Json → String
  whole : FloatText → Option Int

namespace EvidenceRegistry

variable (registry : EvidenceRegistry)

def schema : String := "https://schemas.alos.dev/v1/evidence/evidence-ref.schema.json"

/-- `str(validated["evidence_id"])` of a payload that is valid. -/
def evidenceId (payload : Json.Fields) : Except EvidenceError String := do
  let validated ← (registry.contracts.validate schema payload).mapError .contract
  let evidenceId ← (item validated "evidence_id").mapError .missing
  return Py.str registry.repr evidenceId

/-- `a == b` of dicts. -/
def Alike (a b : Json.Fields) : Prop := Equal registry.whole (.obj a) (.obj b)

instance (a b : Json.Fields) : Decidable (registry.Alike a b) :=
  inferInstanceAs (Decidable (Equal _ _ _))

/-- There is evidence under the id, and it is not equal to the payload. -/
def Differs (evidence : EvidenceTable) (evidenceId : String) (payload : Json.Fields) : Prop :=
  ∃ existing ∈ evidence.get? evidenceId, ¬ registry.Alike existing.2 payload

instance (evidence : EvidenceTable) (evidenceId : String) (payload : Json.Fields) :
    Decidable (registry.Differs evidence evidenceId payload) := by
  unfold Differs
  infer_instance

def register (evidence : EvidenceTable) (payload : Json.Fields) :
    Except EvidenceError (Json.Fields × EvidenceTable) := do
  let evidenceId ← registry.evidenceId payload
  if registry.Differs evidence evidenceId payload then
    throw (.conflict "immutable evidence_id already has different content")
  return (payload, evidence.put (evidenceId, payload))

/-- What a registration comes to. -/
theorem register_eq (evidence : EvidenceTable) (payload : Json.Fields) :
    registry.register evidence payload =
      match registry.evidenceId payload with
      | .error e => .error e
      | .ok evidenceId =>
          if registry.Differs evidence evidenceId payload then
            .error (.conflict "immutable evidence_id already has different content")
          else .ok (payload, evidence.put (evidenceId, payload)) := by
  unfold register
  cases registry.evidenceId payload with
  | error e => rfl
  | ok evidenceId =>
      simp only [bind, Except.bind]
      -- the stored payload is compared as a JSON value
      by_cases hdiffers : registry.Differs evidence evidenceId payload
      · rw [if_pos hdiffers, if_pos hdiffers]
        rfl
      · rw [if_neg hdiffers, if_neg hdiffers]
        rfl

/-- A payload that has an id is no reason for a conflict by itself. -/
theorem evidenceId_ne_conflict (payload : Json.Fields) (message : String) :
    registry.evidenceId payload ≠ .error (.conflict message) := by
  unfold evidenceId
  cases registry.contracts.validate schema payload with
  | error e => simp [Except.mapError, bind, Except.bind]
  | ok validated =>
      cases hitem : item validated "evidence_id" <;>
        simp [hitem, Except.mapError, bind, Except.bind, pure, Except.pure]

/-! ## Bundles -/

def bundleSchema : String :=
  "https://schemas.alos.dev/v1/evidence/evidence-bundle.schema.json"

/-- What the loop of `bundle` reads of its payload. -/
structure Header where
  tenantId : String
  organizationId : String
  workspaceId : String
  evidenceRefs : List Json

/-- The header of a payload that is valid. -/
def header (payload : Json.Fields) : Except EvidenceError Header := do
  let validated ← (registry.contracts.validate bundleSchema payload).mapError .contract
  let tenantId ← (item validated "tenant_id").mapError .missing
  let organizationId ← (item validated "organization_id").mapError .missing
  let workspaceId ← (item validated "workspace_id").mapError .missing
  let evidenceRefs ← (item validated "evidence_refs").mapError .missing
  match iter evidenceRefs with
  | none => throw .typeError
  | some refs =>
      return ⟨Py.str registry.repr tenantId, Py.str registry.repr organizationId,
        Py.str registry.repr workspaceId, refs⟩

/-- `evidence.get(key) in {None, expected}`. -/
def inContext (evidence : Json.Fields) (key expected : String) : Except EvidenceError Bool :=
  match (evidence.get? key).getD .null with
  | .null => .ok true
  | .str text => .ok (text = expected)
  | value => if hashable value then .ok false else .error .typeError

def checkContext (evidence : Json.Fields) (key expected message : String) :
    Except EvidenceError Unit := do
  if ¬ (← inContext evidence key expected) then
    throw (.conflict message)

/-- The context of a reference is that of its bundle. -/
def Header.check (h : Header) (evidence : Json.Fields) : Except EvidenceError Unit := do
  checkContext evidence "tenant_id" h.tenantId "evidence tenant does not match bundle"
  checkContext evidence "organization_id" h.organizationId
    "evidence organization does not match bundle"
  checkContext evidence "workspace_id" h.workspaceId "evidence workspace does not match bundle"

/-- The body of the loop, for one reference. -/
def registerRef (h : Header) (evidence : EvidenceTable) : Json → Except EvidenceError EvidenceTable
  | .obj ref => do
      h.check ref
      let (_, evidence') ← registry.register evidence ref
      return evidence'
  | _ => throw .typeError

/-- The loop. What is registered stays when a later reference is refused. -/
def registerRefs (h : Header) :
    List Json → EvidenceTable → Except EvidenceError Unit × EvidenceTable
  | [], evidence => (.ok (), evidence)
  | ref :: refs, evidence =>
      match registry.registerRef h evidence ref with
      | .error e => (.error e, evidence)
      | .ok evidence' => registerRefs h refs evidence'

def bundle (evidence : EvidenceTable) (payload : Json.Fields) :
    Except EvidenceError Json.Fields × EvidenceTable :=
  match registry.header payload with
  | .error e => (.error e, evidence)
  | .ok h =>
      let (result, evidence') := registry.registerRefs h h.evidenceRefs evidence
      (result.map fun _ => payload, evidence')

end EvidenceRegistry

end Alos
