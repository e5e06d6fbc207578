import Alos.Coop.Guards
import Alos.Sources.Isolation
import Alos.Sources.Partition

/-! # What a search returns

* `candidates_of_select`: the passages of a search are the first candidates, cut short;
* `select_length` and `select_size`: they stay within the limit and the budget;
* `mem_candidates` and `candidates_nodup`: a candidate is a chunk of a visible
  record, and none comes twice;
* `context_selected`: so the bundle tells such passages, each one as an item and
  as an evidence reference.
-/

namespace Alos.Sources

open Py Tools Coop

section Ranking

variable (registry : SourceRegistry) (access : KnowledgeAccessContext) (query : String)
  (limit maxCharacters : Int)

/-- The passage in the order of the candidates. -/
def Passage.candidate (passage : Passage) : Candidate :=
  ⟨score registry (terms registry query) passage.chunk, passage.source, passage.chunk⟩

/-- The passages that a search of the state may return. -/
structure Selected (s : State) (passages : List Passage) : Prop where
  count : passages.length ≤ limit
  size : ((passages.map fun p => p.excerpt.length).sum : ℕ) ≤ maxCharacters
  visible : ∀ p ∈ passages, p.source ∈ s.versions.values ∧ Visible access p.source
  of_source : ∀ p ∈ passages,
    p.chunk ∈ chunkContent p.source.sourceId p.source.sourceVersion p.source.content
  has_term : ∀ p ∈ passages, ∃ term ∈ terms registry query,
    term <:+: (registry.casefold (String.ofList p.chunk.text)).toList
  excerpt_eq : ∀ p ∈ passages, ∃ n, p.excerpt = String.ofList (rstrip (p.chunk.text.take n))
  nodup : (passages.map fun p => (p.source.key, p.chunk.index)).Nodup
  ranked : passages.Pairwise fun p later =>
    (p.candidate registry query).Before (later.candidate registry query)

/-- The item and the evidence reference tell the same. -/
def SameExcerpt (item ref : Json) : Prop :=
  ∃ fields refFields, item = .obj fields ∧ ref = .obj refFields ∧
    ∀ keys ∈ [("evidence_id", "evidence_id"), ("source_id", "source_id"),
        ("source_version", "source_version"), ("content_hash", "content_hash"),
        ("anchor", "anchor"), ("value", "excerpt")],
      ∃ text, Json.Fields.get? fields keys.1 = some (.str text) ∧
        Json.Fields.get? refFields keys.2 = some (.str text)

/-! ## The loop -/

variable {registry access query limit}

/-- The passages are the first candidates. -/
theorem candidates_of_select (n : ℕ) (remaining : Int) {cs : List Candidate}
    (h : ∀ c ∈ cs, c.score = score registry (terms registry query) c.chunk) :
    (select limit cs n remaining).map (Passage.candidate registry query) <+: cs := by
  induction cs generalizing n remaining with
  | nil => exact List.nil_prefix
  | cons c rest ih =>
      rw [select]
      split
      · exact List.nil_prefix
      · dsimp only
        split
        · exact List.nil_prefix
        · have hcandidate : c = ⟨score registry (terms registry query) c.chunk, c.source, c.chunk⟩ := by
            rw [← h c List.mem_cons_self]
          rw [List.map_cons, Passage.candidate, ← hcandidate, List.prefix_cons_inj]
          exact ih _ _ fun d hd => h d (List.mem_cons_of_mem _ hd)

/-- The passages that are selected are at most as many as were asked for. -/
theorem select_length (cs : List Candidate) {n : ℕ} (remaining : Int) (h : (n : Int) ≤ limit) :
    n + ((select limit cs n remaining).length : Int) ≤ limit := by
  induction cs generalizing n remaining with
  | nil => simpa [select] using h
  | cons c rest ih =>
      rw [select]
      split
      · simpa using h
      · next hroom =>
        dsimp only
        split
        · simpa using h
        · have hmore : ((n + 1 : ℕ) : Int) ≤ limit := by omega
          have hrest := ih (remaining - (rstrip (c.chunk.text.take remaining.toNat)).length) hmore
          simp only [List.length_cons]
          omega

/-- An excerpt is paid from what remains of the budget. -/
theorem select_size (cs : List Candidate) (n : ℕ) {remaining : Int} (h : 0 ≤ remaining) :
    (((select limit cs n remaining).map fun p => p.excerpt.length).sum : ℕ) ≤ remaining := by
  induction cs generalizing n remaining with
  | nil => simpa [select] using h
  | cons c rest ih =>
      rw [select]
      split
      · simpa using h
      · dsimp only
        split
        · simpa using h
        · have hstrip := (prefix_of_rstrip (c.chunk.text.take remaining.toNat)).length_le
          have htake := List.length_take_le remaining.toNat c.chunk.text
          have hleft : 0 ≤ remaining - (rstrip (c.chunk.text.take remaining.toNat)).length := by omega
          have hrest := ih (n + 1) hleft
          simp only [List.map_cons, List.sum_cons, String.length_ofList]
          omega

/-- An excerpt is a beginning of its chunk, less the blanks at its end. -/
theorem select_excerpt {cs : List Candidate} {n : ℕ} {remaining : Int} {p : Passage}
    (h : p ∈ select limit cs n remaining) :
    ∃ k, p.excerpt = String.ofList (rstrip (p.chunk.text.take k)) := by
  induction cs generalizing n remaining with
  | nil => simp [select] at h
  | cons c rest ih =>
      rw [select] at h
      split at h
      · simp at h
      · dsimp only at h
        split at h
        · simp at h
        · rcases List.mem_cons.1 h with rfl | h
          · exact ⟨_, rfl⟩
          · exact ih h

/-! ## The candidates -/

theorem Candidate.before_total (a b : Candidate) : a.Before b ∨ b.Before a := by
  unfold Candidate.Before
  grind

/-- The ranking is transitive. -/
theorem Candidate.before_trans {a b c : Candidate} (h : a.Before b) (h' : b.Before c) :
    a.Before c := by
  unfold Candidate.Before at h h' ⊢
  grind

instance : Std.Total Candidate.Before := ⟨Candidate.before_total⟩

instance : IsTrans Candidate Candidate.Before := ⟨fun _ _ _ => Candidate.before_trans⟩

/-- A chunk that counts has a term of the query. -/
theorem exists_term {ts : List (List Char)} {chunk : Chunk} (h : score registry ts chunk ≠ 0) :
    ∃ term ∈ ts, term <:+: (registry.casefold (String.ofList chunk.text)).toList := by
  have hne : (ts.filter fun term =>
      term <:+: (registry.casefold (String.ofList chunk.text)).toList) ≠ [] := by
    intro hnil
    rw [score, hnil] at h
    exact h rfl
  rcases List.exists_mem_of_ne_nil _ hne with ⟨term, hterm⟩
  rcases List.mem_filter.1 hterm with ⟨hmem, hin⟩
  exact ⟨term, hmem, by simpa using hin⟩

/-- A candidate is a chunk of one of the records. -/
theorem mem_candidatesOf {ts : List (List Char)} {records : List SourceVersionRecord}
    {c : Candidate} (h : c ∈ candidatesOf registry ts records) :
    c.source ∈ records ∧
      c.chunk ∈ chunkContent c.source.sourceId c.source.sourceVersion c.source.content ∧
      c.score = score registry ts c.chunk ∧ c.score ≠ 0 := by
  rcases List.mem_flatMap.1 h with ⟨source, hsource, hmem⟩
  rcases List.mem_filter.1 hmem with ⟨hmem, hscore⟩
  rcases List.mem_map.1 hmem with ⟨chunk, hchunk, rfl⟩
  exact ⟨hsource, hchunk, rfl, by simpa using hscore⟩

/-- A candidate is a chunk of a record that the caller may read. -/
theorem mem_candidates {records : List SourceVersionRecord} {c : Candidate}
    (h : c ∈ candidates registry query access records) :
    c.source ∈ records ∧ Visible access c.source ∧
      c.chunk ∈ chunkContent c.source.sourceId c.source.sourceVersion c.source.content ∧
      c.score = score registry (terms registry query) c.chunk ∧ c.score ≠ 0 := by
  rcases mem_candidatesOf ((List.mem_insertionSort _).1 h) with ⟨hsource, hchunk, hscore, hpos⟩
  rcases List.mem_filter.1 hsource with ⟨hrecord, hvisible⟩
  exact ⟨hrecord, by simpa using hvisible, hchunk, hscore, hpos⟩

/-- A chunk of a source is told by its index. -/
theorem candidatesOf_nodup {ts : List (List Char)} {records : List SourceVersionRecord}
    (h : (records.map SourceVersionRecord.key).Nodup) :
    ((candidatesOf registry ts records).map fun c => (c.source.key, c.chunk.index)).Nodup := by
  induction records with
  | nil => exact List.nodup_nil
  | cons source rest ih =>
      rw [List.map_cons, List.nodup_cons] at h
      rw [candidatesOf, List.flatMap_cons, List.map_append, List.nodup_append]
      refine ⟨?_, ih h.2, ?_⟩
      · have hchunks : ((chunkContent source.sourceId source.sourceVersion source.content).map
            fun chunk => (source.key, chunk.index)).Nodup := by
          have hrange := List.nodup_range (n :=
            (chunkContent source.sourceId source.sourceVersion source.content).length)
          rw [← map_index_chunkContent] at hrange
          have hpairs := hrange.map (Prod.mk_right_injective source.key)
          rwa [List.map_map] at hpairs
        refine List.Nodup.sublist (List.filter_sublist.map _) ?_
        rwa [List.map_map]
      · -- the chunks of the other records have other keys
        intro entry hentry later hlater
        rcases List.mem_map.1 hentry with ⟨c, hc, rfl⟩
        rcases List.mem_map.1 hlater with ⟨d, hd, rfl⟩
        rcases List.mem_map.1 (List.mem_filter.1 hc).1 with ⟨chunk, -, rfl⟩
        intro heq
        have hkey : d.source.key = source.key := (congrArg Prod.fst heq).symm
        exact h.1 (hkey ▸ List.mem_map_of_mem (mem_candidatesOf hd).1)

variable (registry access query) in
/-- No chunk is a candidate twice, since records have distinct keys and chunks distinct indices. -/
theorem candidates_nodup (s : State) :
    ((candidates registry query access s.versions.values).map fun c =>
      (c.source.key, c.chunk.index)).Nodup := by
  have hkeys : ((s.versions.values.filter fun record => Visible access record).map
      SourceVersionRecord.key).Nodup :=
    s.versions.nodup.sublist (List.filter_sublist.map _)
  have hperm := (List.perm_insertionSort Candidate.Before (candidatesOf registry
    (terms registry query) (s.versions.values.filter fun record => Visible access record))).map
      fun c => (c.source.key, c.chunk.index)
  exact hperm.nodup_iff.2 (candidatesOf_nodup hkeys)

/-! ## The bundle -/

variable {maxCharacters : Int} {now : Datetime} {s : State} {fields : Json.Fields}

/-- The passages of a search. -/
theorem passages_selected (hlimit : 0 ≤ limit) (hbudget : 0 ≤ maxCharacters) :
    Selected registry access query limit maxCharacters s
      (passages registry access query limit maxCharacters s) := by
  -- the passages are the first of the candidates
  have hfirst : (passages registry access query limit maxCharacters s).map
      (Passage.candidate registry query) <+: candidates registry query access s.versions.values :=
    candidates_of_select 0 maxCharacters fun c hc => (mem_candidates hc).2.2.2.1
  have hmem : ∀ p ∈ passages registry access query limit maxCharacters s,
      p.candidate registry query ∈ candidates registry query access s.versions.values := fun p hp =>
    hfirst.subset (List.mem_map_of_mem hp)
  have hsorted := List.pairwise_insertionSort Candidate.Before (candidatesOf registry
    (terms registry query) (s.versions.values.filter fun record => Visible access record))
  refine ⟨?_, select_size _ _ hbudget, ?_, ?_, ?_, fun p hp => select_excerpt hp, ?_, ?_⟩
  · have hlength := select_length (candidates registry query access s.versions.values) (n := 0)
      maxCharacters (by simpa using hlimit)
    simpa [passages] using hlength
  · intro p hp
    rcases mem_candidates (hmem p hp) with ⟨hsource, hvisible, -⟩
    exact ⟨hsource, hvisible⟩
  · intro p hp
    exact (mem_candidates (hmem p hp)).2.2.1
  · intro p hp
    exact exists_term (mem_candidates (hmem p hp)).2.2.2.2
  · have hnodup := (candidates_nodup registry access query s).sublist (hfirst.sublist.map _)
    rwa [List.map_map] at hnodup
  · exact List.pairwise_map.1 (hsorted.sublist hfirst.sublist)

/-- The limits of a search that passes its checks. -/
theorem bounds_of_checkSearch (h : checkSearch query access limit maxCharacters = .ok ()) :
    (1 ≤ limit ∧ limit ≤ 50) ∧ 1 ≤ maxCharacters ∧ maxCharacters ≤ 60000 := by
  unfold checkSearch at h
  rcases Except.bind_eq_ok.1 h with ⟨-, -, h⟩
  -- the checks in the order of the source
  by_cases hblank : Blank query
  · simp only [hblank, if_true] at h
    cases h
  by_cases hlimit : 1 ≤ limit ∧ limit ≤ 50
  · by_cases hbudget : 1 ≤ maxCharacters ∧ maxCharacters ≤ 60000
    · exact ⟨hlimit, hbudget⟩
    · simp only [hblank, hlimit, hbudget, if_false, not_true_eq_false, not_false_eq_true, if_true,
        and_self] at h
      cases h
  · simp only [hblank, hlimit, if_false, not_false_eq_true, if_true] at h
    cases h

/-- A search that returns has been within the bounds, and its bundle is that of its
passages. -/
theorem search_returned {env : Env Question Answer}
    (h : ((searchContext registry query access now limit maxCharacters).alone env s).result =
      .ok fields) :
    (0 ≤ limit ∧ limit ≤ 50) ∧ (0 ≤ maxCharacters ∧ maxCharacters ≤ 60000) ∧
      fields = bundle registry query access
        ⟨(passages registry access query limit maxCharacters s).map fun p => p.item registry,
          (passages registry access query limit maxCharacters s).map fun p =>
            .obj (p.payload registry access)⟩ now := by
  change outcome registry access query limit maxCharacters now env s = .ok fields at h
  rw [outcome_eq] at h
  cases hsearch : (search registry query access limit maxCharacters now s).1 with
  | error e =>
      rw [hsearch] at h
      cases h
  | ok validated =>
      have hfields : validated = fields := by
        rw [hsearch, retrieved] at h
        split at h
        · exact Except.ok.inj h
        · cases h
      rcases @search_eq registry _ _ _ _ now s with ⟨-, hconflict⟩ | ⟨-, hfree⟩
      · rw [hconflict] at hsearch
        cases hsearch
      · rw [hfree, unhindered] at hsearch
        cases hcheck : checkSearch query access limit maxCharacters with
        | error e =>
            rw [hcheck] at hsearch
            cases hsearch
        | ok u =>
            simp only [hcheck] at hsearch
            split at hsearch
            · cases hsearch
            · -- the catalog returns the bundle that it is given
              rw [found, Except.mapError_eq_ok] at hsearch
              have hbundle := CanonicalContractCatalog.validate_eq hsearch
              rcases bounds_of_checkSearch hcheck with ⟨⟨hleast, hlimit⟩, hleast', hbudget⟩
              exact ⟨⟨by omega, hlimit⟩, ⟨by omega, hbudget⟩, hfields.symm.trans hbundle⟩

/-- The item and the evidence of a passage carry the same excerpt. -/
theorem sameExcerpt (p : Passage) :
    SameExcerpt (p.item registry) (.obj (p.payload registry access)) := by
  refine ⟨_, _, rfl, rfl, ?_⟩
  intro keys hkeys
  simp only [List.mem_cons, List.not_mem_nil, or_false] at hkeys
  rcases hkeys with rfl | rfl | rfl | rfl | rfl | rfl <;> exact ⟨_, rfl, rfl⟩

/-- A search that returns has told the passages that the ranking selects, each with its item and
its evidence. -/
theorem context_selected {env : Env Question Answer}
    (h : ((searchContext registry query access now limit maxCharacters).alone env s).result =
      .ok fields) :
    ∃ passages items refs, Selected registry access query limit maxCharacters s passages ∧
      fields.get? "items" = some (.arr items) ∧ fields.get? "evidence_refs" = some (.arr refs) ∧
      items = passages.map (fun p => p.item registry) ∧
      refs = passages.map (fun p => .obj (p.payload registry access)) ∧
      List.Forall₂ SameExcerpt items refs := by
  rcases search_returned h with ⟨⟨hlimit, -⟩, ⟨hbudget, -⟩, rfl⟩
  refine ⟨_, _, _, passages_selected hlimit hbudget, rfl, rfl, rfl, rfl, ?_⟩
  rw [List.forall₂_map_left_iff, List.forall₂_map_right_iff, List.forall₂_same]
  intro p _
  exact sameExcerpt p

end Ranking

/-! ## Three sources -/

def valveList : SourceRegistration where
  sourceId := "valve-list"
  sourceVersion := "1.0.0"
  title := "Valve list"
  storageUri := "https://sources/valve-list"
  content := "valves"

/-- The second tenant has the list too, its newest source. -/
def shelf : State :=
  follow registered [.register valveList tenantB 1, .verify "valve-list" "1.0.0" tenantB 1]

/-- The limit cuts the manual, which is the oldest, and the budget the list. -/
theorem cut_context :
    (passages plain tenantB "pumps valves" 2 19 shelf).map Passage.excerpt =
        ["pumps and valves", "val"] ∧
      ∃ fields, outcome plain tenantB "pumps valves" 2 19 1 calm shelf = .ok fields ∧
        ∃ passages items refs, Selected plain tenantB "pumps valves" 2 19 shelf passages ∧
          fields.get? "items" = some (.arr items) ∧ fields.get? "evidence_refs" = some (.arr refs) ∧
          items = passages.map (fun p => p.item plain) ∧
          refs = passages.map (fun p => .obj (p.payload plain tenantB)) ∧
          List.Forall₂ SameExcerpt items refs := by
  refine ⟨by decide +kernel, ?_⟩
  -- the search is run; what it returns is then selected, by the general result
  have hok : (outcome plain tenantB "pumps valves" 2 19 1 calm shelf).isOk = true := by
    decide +kernel
  cases hout : outcome plain tenantB "pumps valves" 2 19 1 calm shelf with
  | error e =>
      rw [hout] at hok
      cases hok
  | ok fields => exact ⟨fields, rfl, context_selected hout⟩

end Alos.Sources
