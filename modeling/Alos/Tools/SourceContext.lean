import Alos.Py
import Alos.Tools.Gates

/-! # The adapter for source contexts

`SourceContextSearchAdapter` of `alos.tools.adapters.source_context`: the check
of its arguments, and the `KnowledgeAccessContext` that it makes of the
execution context and searches with. The search itself is outside the model.
-/

namespace Alos.Tools

inductive DataClassification where
  | «public»
  | internal
  | confidential
  | restricted
deriving DecidableEq, Repr

def DataClassification.parse (text : String) : Option DataClassification :=
  if text = "PUBLIC" then some .«public»
  else if text = "INTERNAL" then some .internal
  else if text = "CONFIDENTIAL" then some .confidential
  else if text = "RESTRICTED" then some .restricted
  else none

/-- `Field(min_length=3, max_length=128)`. -/
abbrev Identifier := {text : String // 3 ≤ text.length ∧ text.length ≤ 128}

def Identifier.parse (text : String) : Option Identifier :=
  if h : 3 ≤ text.length ∧ text.length ≤ 128 then some ⟨text, h⟩ else none

theorem Identifier.val_of_parse {text : String} {identifier : Identifier}
    (h : Identifier.parse text = some identifier) : identifier.val = text := by
  unfold Identifier.parse at h
  split at h
  · cases h
    rfl
  · cases h

/-- `Field(min_length=1)` of a frozenset. -/
abbrev ScopeRefs := {refs : Finset String // refs.Nonempty}

def ScopeRefs.parse (refs : List String) : Option ScopeRefs :=
  if h : refs.toFinset.Nonempty then some ⟨refs.toFinset, h⟩ else none

theorem ScopeRefs.val_of_parse {refs : List String} {scopeRefs : ScopeRefs}
    (h : ScopeRefs.parse refs = some scopeRefs) : scopeRefs.val = refs.toFinset := by
  unfold ScopeRefs.parse at h
  split at h
  · cases h
    rfl
  · cases h

structure KnowledgeAccessContext where
  tenantId : Identifier
  organizationId : Identifier
  workspaceId : Identifier
  actorId : Identifier
  correlationId : Identifier
  scopeRefs : ScopeRefs
  dataClassification : DataClassification

namespace SourceContextSearchAdapter

/-- `isinstance(query, str)`, neither blank nor too long. -/
def queryWithin : Option Json → Bool
  | some (.str query) => 1 ≤ (Py.strip query).length ∧ (Py.strip query).length ≤ 10000
  | _ => false

/-- `isinstance(value, int)`, which no `bool` is here, within the bounds. -/
def intWithin (upper : Int) : Json → Bool
  | .int n => 1 ≤ n ∧ n ≤ upper
  | _ => false

def validateArguments (arguments : Json.Fields) : Option String :=
  if ¬ (arguments.map Prod.fst).toFinset ⊆ {"query", "limit", "max_characters"} then
    some "source.search_context received an unknown argument"
  else if ¬ queryWithin (arguments.get? "query") then
    some "query must be a non-blank string of at most 10000 characters"
  else if ¬ intWithin 50 ((arguments.get? "limit").getD (.int 12)) then
    some "limit must be an integer between 1 and 50"
  else if ¬ intWithin 60000 ((arguments.get? "max_characters").getD (.int 12000)) then
    some "max_characters must be an integer between 1 and 60000"
  else none

/-- The access context of a search; a missing or an invalid field raises. -/
def access (context : ExecutionContext) : Option KnowledgeAccessContext := do
  let tenantId ← Identifier.parse context.tenantId
  let organizationId ← Identifier.parse context.organizationId
  let workspaceId ← Identifier.parse context.workspaceId
  let actorId ← Identifier.parse context.actorId
  let correlationId ← Identifier.parse context.correlationId
  let scopeRefs ← ScopeRefs.parse context.scopeRefs
  let dataClassification ← context.dataClassification.bind DataClassification.parse
  return ⟨tenantId, organizationId, workspaceId, actorId, correlationId, scopeRefs,
    dataClassification⟩

/-- A search has the actor and the scopes of the execution context. -/
theorem access_carries {context : ExecutionContext} {knowledge : KnowledgeAccessContext}
    (h : access context = some knowledge) :
    knowledge.actorId.val = context.actorId ∧
      knowledge.scopeRefs.val = context.scopeRefs.toFinset := by
  simp only [access, Option.bind_eq_bind, Option.bind_eq_some_iff] at h
  rcases h with ⟨_, -, _, -, _, -, actorId, hactor, _, -, scopeRefs, hscopes, _, -, h⟩
  cases h
  exact ⟨Identifier.val_of_parse hactor, ScopeRefs.val_of_parse hscopes⟩

end SourceContextSearchAdapter

/-- A registration of the adapter. -/
def sourceSearchContext : ToolRegistration where
  toolId := "source.search_context"
  requiredPermission := "sources.read"
  requiredScopes := {"scope.sources.read"}
  adapter := ⟨SourceContextSearchAdapter.validateArguments⟩

end Alos.Tools
