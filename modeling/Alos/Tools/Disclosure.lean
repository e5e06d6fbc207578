import Alos.Sources.Immutable
import Alos.Sources.Ranking
import Alos.Tools.Authority
import Alos.Tools.Outputs

/-! # What the search tool discloses

The tool `source.search_context` behind the executor, over the registry of
sources: overlapping calls of this and of other tools, while sources are
registered, verified and searched.

* `SourceTool.answer` is what the adapter comes to in the course of this;
* `Lawful` is what may be disclosed to somebody of a place and a clearance;
* `searches_lawful` is the result: whatever a request declares, nothing else
  leaves the tool, be it found or replayed.
-/

namespace Alos.Tools

open Coop Py

/-! ## The adapter -/

namespace SourceContextSearchAdapter

/-- `str(value)` of a validated query. -/
def query? : Json → Option String
  | .str query => some query
  | _ => none

/-- `int(value)` of a validated bound. -/
def bound? : Json → Option Int
  | .int n => some n
  | _ => none

/-- The search that an execution comes to; without one it raises. -/
def execute (sources : Sources.SourceRegistry) (arguments : Json.Fields)
    (context : ExecutionContext) (now : Datetime) : Option (Sources.Op Json.Fields) := do
  let knowledge ← access context
  let query ← query? (← arguments.get? "query")
  let limit ← bound? ((arguments.get? "limit").getD (.int 12))
  let maxCharacters ← bound? ((arguments.get? "max_characters").getD (.int 12000))
  return Sources.searchContext sources query knowledge now limit maxCharacters

end SourceContextSearchAdapter

/-- An executor with the tool, and the registry of sources that it searches. -/
structure SourceTool where
  executor : ToolExecutor
  registry : ToolRegistry
  sources : Sources.SourceRegistry
  evidence : EvidenceTable
  /-- What is done with the sources, in order; the searches of the tool are part
  of it. -/
  operations : List Sources.Call

/-- How an execution ends. -/
inductive SearchRun where
  | timedOut
  /-- It has searched at `now`, after the first `done` operations. -/
  | searched (done : ℕ) (now : Datetime) (env : Env Sources.Question Sources.Answer)

inductive SearchStep where
  | call (i : ℕ) (c : ToolCall)
  /-- What call number `i` awaits is over: an append ends so, an execution of the
  search so, and one of another tool so. -/
  | resume (i : ℕ) (appended : Appended) (run : SearchRun) (other : Executed)

namespace SourceTool

variable (t : SourceTool)

/-- The sources after the first `done` operations. -/
def stateAt (done : ℕ) : Sources.State :=
  Sources.after t.sources (Sources.created t.evidence) (t.operations.take done)

def answer (run : SearchRun) (arguments : Json.Fields) (context : ExecutionContext) : Executed :=
  match run with
  | .timedOut => .timedOut
  | .searched done now env =>
      match SourceContextSearchAdapter.execute t.sources arguments context now with
      | none => .raised
      | some search =>
          match (search.alone env (t.stateAt done)).result with
          | .ok fields => .returned (.obj fields)
          | .error _ => .raised

def answers (appended : Appended) (run : SearchRun) (other : Executed) : (q : Question) → Answer q
  | .append _ => appended
  | .execute toolId arguments context =>
      if toolId = "source.search_context" then t.answer run arguments context else other

def toStep : SearchStep → Step ToolCall Question Answer
  | .call i c => .call i c
  | .resume i appended run other => .resume i (t.answers appended run other)

variable (xs : List SearchStep)

def steps : List (Step ToolCall Question Answer) := xs.map t.toStep

/-- The system after the steps `xs`, from an empty store. -/
def after : ToolSys := served t.executor t.registry (t.steps xs)

end SourceTool

/-! ## What may be disclosed -/

/-- A place, and what may be seen there. -/
structure Realm where
  tenantId : String
  organizationId : String
  workspaceId : String
  clearance : Option String

/-- The realm that a context declares. -/
def ExecutionContext.realm (context : ExecutionContext) : Realm :=
  ⟨context.tenantId, context.organizationId, context.workspaceId, context.dataClassification⟩

/-- The passage may be disclosed in the realm after the operations `pre`. -/
structure Lawful (t : SourceTool) (pre : List Sources.Call) (realm : Realm)
    (passage : Sources.Passage) : Prop where
  registered : passage.source ∈
    (Sources.after t.sources (Sources.created t.evidence) pre).versions.values
  tenantId : passage.source.tenantId = realm.tenantId
  organizationId : passage.source.organizationId = realm.organizationId
  workspaceId : passage.source.workspaceId = realm.workspaceId
  /-- It is not classified above the clearance. -/
  cleared : ∃ clearance, realm.clearance.bind DataClassification.parse = some clearance ∧
    Sources.rank passage.source.dataClassification ≤ Sources.rank clearance
  /-- Somebody of the same organization, who may, has verified the source. -/
  verified : Sources.VerifiedIn t.sources (Sources.created t.evidence) pre passage.source
  /-- It is quoted with the hash of the content that it is taken of. -/
  hashed : passage.source.contentHash = Sources.contentHash t.sources passage.source.content
  quoted : passage.chunk ∈ Sources.chunkContent passage.source.sourceId
      passage.source.sourceVersion passage.source.content ∧
    ∃ n, passage.excerpt = String.ofList (rstrip (passage.chunk.text.take n))

/-- The context works in the realm. -/
structure InRealm (access : KnowledgeAccessContext) (realm : Realm) : Prop where
  tenantId : realm.tenantId = access.tenantId.val
  organizationId : realm.organizationId = access.organizationId.val
  workspaceId : realm.workspaceId = access.workspaceId.val
  clearance : realm.clearance.bind DataClassification.parse = some access.dataClassification

/-- The output is the bundle of passages that may be disclosed in the realm, of no more
than one search may return: its items and its evidence references are of these
passages, and the rest tells of the search itself. -/
def Discloses (t : SourceTool) (realm : Realm) (output : Json) : Prop :=
  ∃ (done : ℕ) (query : String) (access : KnowledgeAccessContext) (now : Datetime)
      (passages : List Sources.Passage),
    InRealm access realm ∧
      output = .obj (Sources.bundle t.sources query access
        ⟨passages.map fun p => p.item t.sources,
          passages.map fun p => .obj (p.payload t.sources access)⟩ now) ∧
      passages.length ≤ 50 ∧ (passages.map fun p => p.excerpt.length).sum ≤ 60000 ∧
      ∀ passage ∈ passages, Lawful t (t.operations.take done) realm passage

/-! ## One execution -/

section Execution

variable {t : SourceTool}

/-- A search has the realm of its context. -/
theorem access_realm {context : ExecutionContext} {knowledge : KnowledgeAccessContext}
    (h : SourceContextSearchAdapter.access context = some knowledge) :
    InRealm knowledge context.realm := by
  simp only [SourceContextSearchAdapter.access, Option.bind_eq_bind, Option.bind_eq_some_iff] at h
  rcases h with ⟨_, htenant, _, horganization, _, hworkspace, _, -, _, -, _, -, _, hclass, h⟩
  cases h
  refine ⟨?_, ?_, ?_, Option.bind_eq_some_iff.2 hclass⟩
  · exact (Identifier.val_of_parse htenant).symm
  · exact (Identifier.val_of_parse horganization).symm
  · exact (Identifier.val_of_parse hworkspace).symm

/-- What a search returns may be disclosed in the realm of its access. -/
theorem discloses_search {knowledge : KnowledgeAccessContext} {query : String} {now : Datetime}
    {limit maxCharacters : Int} {done : ℕ} {env : Env Sources.Question Sources.Answer}
    {fields : Json.Fields} {realm : Realm} (hwithin : InRealm knowledge realm)
    (h : ((Sources.searchContext t.sources query knowledge now limit maxCharacters).alone env
      (t.stateAt done)).result = .ok fields) :
    Discloses t realm (.obj fields) := by
  rcases Sources.search_returned h with ⟨⟨hlimit, hcount⟩, ⟨hbudget, hsize⟩, rfl⟩
  -- the passages are those that the search selects for the caller
  have hselected := @Sources.passages_selected t.sources knowledge query limit maxCharacters
    (t.stateAt done) hlimit hbudget
  have hsound := @Sources.sound_after t.sources t.evidence (t.operations.take done)
  have hlength := hselected.count
  have hcharacters := hselected.size
  refine ⟨done, query, knowledge, now, _, hwithin, rfl, by omega, by omega,
    fun passage hpassage => ?_⟩
  rcases hselected.visible passage hpassage with ⟨hmem, hvisible⟩
  rcases hvisible with ⟨htenant, horganization, hworkspace, hstatus, hrank⟩
  exact {
    registered := hmem
    tenantId := htenant.trans hwithin.tenantId.symm
    organizationId := horganization.trans hwithin.organizationId.symm
    workspaceId := hworkspace.trans hwithin.workspaceId.symm
    cleared := ⟨_, hwithin.clearance, hrank⟩
    verified := hsound.verified _ hmem hstatus
    hashed := hsound.hashed _ hmem
    quoted := ⟨hselected.of_source _ hpassage, hselected.excerpt_eq _ hpassage⟩ }

/-- What the adapter returns may be disclosed in the realm of its context. -/
theorem discloses_answer {run : SearchRun} {arguments : Json.Fields} {context : ExecutionContext}
    {output : Json} (h : t.answer run arguments context = .returned output) :
    Discloses t context.realm output := by
  unfold SourceTool.answer at h
  split at h
  · cases h
  -- the adapter is answered by a search in the state of its time
  · rename_i done now env
    split at h
    · cases h
    · rename_i search hsearch
      split at h
      · rename_i fields hresult
        cases h
        simp only [SourceContextSearchAdapter.execute, Option.bind_eq_bind,
          Option.bind_eq_some_iff, Option.pure_def, Option.some.injEq] at hsearch
        rcases hsearch with ⟨knowledge, haccess, _, -, query, -, limit, -, maxCharacters, -, rfl⟩
        exact discloses_search (access_realm haccess) hresult
      · cases h

end Execution

/-! ## Every run -/

/-- The principal may search, in the place that the context declares. -/
def Entitled (c : ToolCall) (p : Principal) : Prop :=
  AuthorizationPolicy.Holds c.principal c.request.executionContext.tenantId
    c.request.executionContext.organizationId c.request.executionContext.workspaceId
    "sources.read" {"scope.sources.read"} p

section Runs

variable {t : SourceTool} {xs : List SearchStep}

theorem answers_of_mem {i : ℕ} {reply : (q : Question) → Answer q}
    (h : .resume i reply ∈ t.steps xs) :
    ∃ appended run other, reply = t.answers appended run other := by
  rcases List.mem_map.1 h with ⟨step, -, hstep⟩
  cases step with
  | call j c => cases hstep
  | resume j appended run other =>
      cases hstep
      exact ⟨appended, run, other, rfl⟩

/-- The same request declares the same realm. -/
theorem SameAuthority.realm {a b : ExecutionContext} (h : SameAuthority a b) :
    a.realm = b.realm := by
  rw [ExecutionContext.realm, ExecutionContext.realm, h.tenantId, h.organizationId, h.workspaceId,
    h.dataClassification]

theorem disclosures_upheld
    (hregistered : t.registry.get "source.search_context" = some sourceSearchContext)
    (hcollision : CollisionFree t.executor (t.steps xs)) :
    Upheld t.executor t.registry (t.steps xs)
      (fun c => c.request.toolId = "source.search_context" → ∃ p, Entitled c p)
      (fun c output => c.request.toolId = "source.search_context" →
        Discloses t c.request.executionContext.realm output) where
  checked := by
    rintro i c s registration - hregistry hverdict htool
    rcases gates_of_verdict hverdict with ⟨p, hgates⟩
    have hfound := hgates.registered
    rw [hregistry, htool, hregistered] at hfound
    cases hfound
    exact ⟨p, hgates.authorized⟩
  answered := by
    intro i reply c output hresume _ hreply htool
    rcases answers_of_mem hresume with ⟨appended, run, other, rfl⟩
    have hanswer : t.answer run c.request.arguments c.request.executionContext =
        .returned output := by
      rw [← hreply]
      exact (if_pos htool).symm
    exact discloses_answer hanswer
  same := by
    intro i a j c output ha hc hdigest _ hgood htool
    -- an equal digest is the same request, so the same realm
    have hsame : SameRequest a.request c.request :=
      dumps_immutable_iff.1 (hcollision _ _ _ _ ha hc hdigest)
    rw [← hsame.authority.realm]
    exact hgood (hsame.toolId.trans htool)

end Runs

/-- Every search that succeeds is one for a principal that may search, and gives
away only what is lawful in the principal's place. -/
def SearchesLawful (t : SourceTool) (xs : List SearchStep) : Prop :=
  ∀ l ∈ (t.after xs).trace, l.call.request.toolId = "source.search_context" →
    ∀ output, succeededOutput l = some output →
      ∃ p, l.call.principal = some p ∧ p.active ∧ "sources.read" ∈ p.permissions ∧
        "scope.sources.read" ∈ p.scopes ∧
        Discloses t ⟨p.tenantId, p.organizationId, p.workspaceId,
          l.call.request.executionContext.dataClassification⟩ output

/-- Calls that overlap in any order, with timeouts and appends that may fail,
while the sources change. -/
theorem searches_lawful (t : SourceTool) (xs : List SearchStep)
    (hregistered : t.registry.get "source.search_context" = some sourceSearchContext)
    (hcollision : CollisionFree t.executor (t.steps xs)) : SearchesLawful t xs := by
  intro l hl htool output houtput
  have htold := upheld_run (disclosures_upheld hregistered hcollision) l hl
  rcases htold.succeeded output houtput with ⟨hpassed, hdiscloses⟩
  rcases hpassed htool with ⟨p, hknown, hactive, htenant, horganization, hworkspace, hpermission,
    hscopes⟩
  refine ⟨p, hknown, hactive, hpermission, hscopes (Finset.mem_singleton_self _), ?_⟩
  rw [htenant, horganization, hworkspace]
  exact hdiscloses htool

/-! ## A search and its replay -/

/-- Who keeps the sources of the workspace. -/
def policyKeeper : KnowledgeAccessContext :=
  { Sources.member ⟨DiagnosticPrincipalResolver.tenantId, by decide⟩ with
    organizationId := ⟨DiagnosticPrincipalResolver.organizationId, by decide⟩
    workspaceId := ⟨DiagnosticPrincipalResolver.workspaceId, by decide⟩
    actorId := ⟨DiagnosticPrincipalResolver.actorId, by decide⟩
    correlationId := ⟨"corr_knowledge_tool_001", by decide⟩ }

def policy : Sources.SourceRegistration where
  sourceId := "source_policy_001"
  sourceVersion := "1.0.0"
  title := "Policy"
  storageUri := "urn:alos:source:policy:1"
  content := "The authoritative retention period is seven years."

def policySearch (correlationId : String) : ToolCall where
  request := {
    toolCallId := "toolcall_context_001"
    runId := "run_context_001"
    toolId := "source.search_context"
    executionContext := diagnosticContext DiagnosticPrincipalResolver.actorId correlationId
      ["sources.read"] ["scope.sources.read"]
    arguments := [("query", .str "retention")]
    idempotencyKey := some (.str "idempotency-001") }
  principal := some sourceReader

theorem immutable_policySearch (correlationId other : String) :
    immutable (policySearch correlationId).request = immutable (policySearch other).request := by
  simp [immutable, policySearch, diagnosticContext, Json.Fields.erase]

/-- The SHA-256 digests of the texts that a search of the policy has to do with:
of its content, of the seeds of the two ids, and of the request. -/
def policySha256 (text : String) : String :=
  if text = policy.content then
    "97f03af42d8fefd2f85a15789362f03d74380609059195d7954a32493214ed6b"
  else if text = "source_policy_001@1.0.0#L1-L1:97f03af42d8fefd2f85a15789362f03d74380609059195d7954a32493214ed6b"
    then "b25d606a3e8653445b682766bdf3f9f3b31fe6a6089fbb08142523e5361f8b6c"
  else if text = "corr_knowledge_tool_001:retention:1" then
    "08d5cd89583d85ef5823aa75fc7579ece288f1a63d7074b06df09d9df3325232"
  else if text = Json.dumps (immutable (policySearch "corr_knowledge_tool_001").request) then
    "6bdeebcf430f8a21f5766cfbf91bbec744f620d2150b64c1619001c1b539662b"
  else ""

/-- The policy is registered and verified; every payload is valid. -/
def policyTool : SourceTool where
  executor := { diagnosticExecutor with sha256 := policySha256 }
  registry := sourceState.registry
  sources := {
    contracts := ⟨fun _ => true, fun _ _ => none⟩
    repr := fun _ => ""
    whole := fun _ => none
    sha256 := policySha256
    casefold := fun text => String.ofList (text.toList.map Char.toLower) }
  evidence := .empty
  operations := [.register policy policyKeeper 0,
    .verify "source_policy_001" "1.0.0" policyKeeper 0]

/-- Call number `i` comes, and is resumed three times. -/
def policySteps (i : ℕ) (correlationId : String) : List SearchStep :=
  let resume : SearchStep := .resume i .returned (.searched 2 0 Sources.calm) .raised
  [.call i (policySearch correlationId), resume, resume, resume]

def replayedSearch : List SearchStep :=
  policySteps 0 "corr_knowledge_tool_001" ++ policySteps 1 "corr_knowledge_tool_002"

example : ((policyTool.after replayedSearch).trace.filterMap succeededOutput).length = 2 := by
  decide +kernel

theorem searches_lawful_replayed : SearchesLawful policyTool replayedSearch := by
  apply searches_lawful policyTool replayedSearch rfl
  have hcall : ∀ i c, .call i c ∈ policyTool.steps replayedSearch →
      ∃ correlationId, c = policySearch correlationId := by
    intro i c hc
    simp only [SourceTool.steps, replayedSearch, policySteps, SourceTool.toStep, List.map_append,
      List.map_cons, List.map_nil, List.mem_append, List.mem_cons, Step.call.injEq, reduceCtorEq,
      List.not_mem_nil, or_false] at hc
    rcases hc with ⟨-, rfl⟩ | ⟨-, rfl⟩ <;> exact ⟨_, rfl⟩
  intro i c j d hc hd _
  rcases hcall i c hc with ⟨correlationId, rfl⟩
  rcases hcall j d hd with ⟨other, rfl⟩
  rw [immutable_policySearch correlationId other]

end Alos.Tools
