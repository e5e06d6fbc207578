import Mathlib.Data.List.Pairwise
import Alos.Sources.Partition

/-! # The lines that an anchor names

The lines of a source are numbered when the blank ones are gone, so that a blank
line moves the numbers of all that follow.

* `origins` are the pieces of a source with the lines they come from, and
  `provenance` hands them to the chunks;
* `located` has both numbers of a piece, and they drift apart (`located_ordered`);
* `solid_iff`: they agree when nothing follows a blank line.
-/

namespace Alos.Sources

open Py

/-- The lines of the source, stripped. -/
def strippedLines (content : String) : List (List Char) :=
  (splitLines content.toList).map stripped

/-- The pieces of the source, each with the number of its line. A blank line has none. -/
def origins (content : String) : List (ℕ × List Char) := numbered 1 (strippedLines content)

/-- Each chunk with its pieces, of all those that are left. -/
def provenance : List Chunk → List (ℕ × List Char) → List (Chunk × List (ℕ × List Char))
  | [], _ => []
  | chunk :: rest, pieces =>
      let count := (chunk.text.splitOn '\n').length
      (chunk, pieces.take count) :: provenance rest (pieces.drop count)

/-- The chunk is made of its pieces, and its anchor and its citation name the lines
of the first and of the last one. -/
def Anchored (sourceId sourceVersion : String) (chunk : Chunk) (pieces : List (ℕ × List Char)) :
    Prop :=
  chunk.text = joinLines (pieces.map Prod.snd) ∧
  ∃ start last,
    chunk.anchor = s!"lines {start}-{last}" ∧
    (∃ occurrence, chunk.citation = rename (lineKey sourceId sourceVersion start last) occurrence) ∧
    (∀ piece ∈ pieces, start ≤ piece.1 ∧ piece.1 ≤ last) ∧
    pieces.head?.map Prod.fst = some start ∧ pieces.getLast?.map Prod.fst = some last

/-- No line that is not blank follows a blank one. -/
def Solid (content : String) : Prop :=
  (strippedLines content).Pairwise fun line later => line = [] → later = []

/-! ## Both numbers of a piece -/

/-- A piece, the rank of its line among those that are not blank, and its number. -/
structure Located where
  rank : ℕ
  number : ℕ
  text : List Char

/-- The piece as the code tags it. -/
def Located.ranked (piece : Located) : ℕ × List Char := (piece.rank, piece.text)

/-- Where in the source a piece stands, with its text. -/
def Located.origin (piece : Located) : ℕ × List Char := (piece.number, piece.text)

/-- The pieces of the lines, each with the rank of its line among the lines that are not blank, and
with its number among all. -/
def located (rank number : ℕ) : List (List Char) → List Located
  | [] => []
  | line :: rest =>
      (cut line).map (Located.mk rank number) ++
        located (if line = [] then rank else rank + 1) (number + 1) rest

/-- By their numbers, the pieces are those of the numbered lines. -/
theorem map_origin_located (rank number : ℕ) (lines : List (List Char)) :
    (located rank number lines).map Located.origin = numbered number lines := by
  induction lines generalizing rank number with
  | nil => rfl
  | cons line rest ih => simp [located, numbered, ih, Located.origin, Function.comp_def]

theorem cut_nil : cut [] = [] := rfl

theorem cut_ne_nil {line : List Char} (h : line ≠ []) : cut line ≠ [] := by
  intro hnil
  have hline := flatten_parts (Nat.le_refl line.length)
  rw [← cut, hnil] at hline
  exact h hline.symm

/-- By their ranks, the pieces are those of the lines that are not blank, numbered. -/
theorem map_ranked_located (rank number : ℕ) (lines : List (List Char)) :
    (located rank number lines).map Located.ranked = numbered rank (lines.filter (· ≠ [])) := by
  induction lines generalizing rank number with
  | nil => rfl
  | cons line rest ih =>
      by_cases hblank : line = []
      · simp [located, hblank, cut_nil, ih]
      · simp [located, numbered, hblank, ih, Located.ranked, Function.comp_def]

/-- The number runs ahead of the rank. -/
theorem located_bounds {rank number : ℕ} {lines : List (List Char)} {piece : Located}
    (h : piece ∈ located rank number lines) :
    number ≤ piece.number ∧ number + piece.rank ≤ piece.number + rank := by
  induction lines generalizing rank number with
  | nil => simp [located] at h
  | cons line rest ih =>
      rcases List.mem_append.1 h with h | h
      · rcases List.mem_map.1 h with ⟨text, -, rfl⟩
        exact ⟨Nat.le_refl _, Nat.le_refl _⟩
      · have hrest := ih h
        split at hrest <;> omega

/-- A later piece has a later line, and its number is no less ahead. -/
theorem located_ordered (rank number : ℕ) (lines : List (List Char)) :
    (located rank number lines).Pairwise fun piece later =>
      piece.number ≤ later.number ∧ piece.number + later.rank ≤ later.number + piece.rank := by
  induction lines generalizing rank number with
  | nil => exact List.Pairwise.nil
  | cons line rest ih =>
      rw [located, List.pairwise_append]
      refine ⟨?_, ih _ _, ?_⟩
      · rw [List.pairwise_map]
        exact List.pairwise_of_forall fun _ _ => ⟨Nat.le_refl _, Nat.le_refl _⟩
      · intro piece hpiece later hlater
        rcases List.mem_map.1 hpiece with ⟨text, -, rfl⟩
        have hbounds := located_bounds hlater
        split at hbounds <;> simp only <;> omega

/-- Only blank lines follow a blank line exactly when the numbers stay as far apart
as they are. -/
theorem pairwise_blank_iff (rank number : ℕ) (lines : List (List Char)) :
    lines.Pairwise (fun line later => line = [] → later = []) ↔
      ∀ piece ∈ located rank number lines, piece.number + rank = piece.rank + number := by
  induction lines generalizing rank number with
  | nil => simp [located]
  | cons line rest ih =>
      rw [List.pairwise_cons]
      by_cases hblank : line = []
      · simp only [located, hblank, cut_nil, List.map_nil, List.nil_append, if_true, true_imp_iff]
        constructor
        · rintro ⟨hrest, -⟩ piece hpiece
          -- blank lines have no pieces
          have hmem : piece.origin ∈ numbered (number + 1) rest := by
            rw [← map_origin_located rank]
            exact List.mem_map_of_mem hpiece
          rcases mem_numbered hmem with ⟨later, hlater, hcut⟩
          rw [hrest later hlater, cut_nil] at hcut
          simp at hcut
        · intro h
          have hnone : located rank (number + 1) rest = [] := by
            rw [List.eq_nil_iff_forall_not_mem]
            intro piece hpiece
            have hbounds := located_bounds hpiece
            have heq := h piece hpiece
            omega
          have hblanks : ∀ later ∈ rest, later = [] := by
            intro later hlater
            by_contra hne
            rcases List.exists_mem_of_ne_nil _ (cut_ne_nil hne) with ⟨text, htext⟩
            have hmem : text ∈ (numbered (number + 1) rest).map Prod.snd := by
              rw [map_snd_numbered]
              exact List.mem_flatMap.2 ⟨later, hlater, htext⟩
            rw [← map_origin_located rank, hnone] at hmem
            simp at hmem
          exact ⟨hblanks, List.pairwise_of_forall_mem_list fun _ _ later hlater _ =>
            hblanks later hlater⟩
      · simp only [located, hblank, if_false, List.forall_mem_append, false_imp_iff, implies_true,
          true_and]
        rw [ih (rank + 1) (number + 1)]
        constructor
        · intro h
          refine ⟨?_, fun piece hpiece => ?_⟩
          · intro piece hpiece
            rcases List.mem_map.1 hpiece with ⟨text, -, rfl⟩
            exact Nat.add_comm _ _
          · have heq := h piece hpiece
            omega
        · intro h piece hpiece
          have heq := h.2 piece hpiece
          omega

/-- No blank line stands before one that is not just when rank and number of every piece agree. -/
theorem solid_iff (content : String) :
    Solid content ↔ ∀ piece ∈ located 1 1 (strippedLines content), piece.number = piece.rank := by
  unfold Solid
  rw [pairwise_blank_iff 1 1]
  constructor
  · intro h piece hpiece
    have heq := h piece hpiece
    omega
  · intro h piece hpiece
    rw [h piece hpiece]

/-! ## The groups of the chunks -/

/-- Lists that make up the images of a list are the images of lists that make it up. -/
theorem exists_flatten_of_map {α β : Type} {f : α → β} {groups : List (List β)} {items : List α}
    (h : groups.flatten = items.map f) :
    ∃ sources : List (List α), sources.flatten = items ∧ groups = sources.map (List.map f) := by
  induction groups generalizing items with
  | nil => exact ⟨[], by simpa using h.symm, rfl⟩
  | cons group rest ih =>
      rw [List.flatten_cons] at h
      rcases List.map_eq_append_iff.1 h.symm with ⟨first, later, rfl, hfirst, hlater⟩
      rcases ih hlater.symm with ⟨sources, hflatten, hrest⟩
      exact ⟨first :: sources, by rw [List.flatten_cons, hflatten],
        by rw [List.map_cons, hfirst, ← hrest]⟩

/-- The groups of the pieces are found again from how many lines each chunk has. -/
theorem provenance_flatten {chunks : List Chunk} {groups : List (List (ℕ × List Char))}
    (h : chunks.map (fun chunk => (chunk.text.splitOn '\n').length) = groups.map List.length) :
    provenance chunks groups.flatten = chunks.zip groups := by
  induction chunks generalizing groups with
  | nil => rfl
  | cons chunk rest ih =>
      cases groups with
      | nil => simp at h
      | cons group groups =>
          rw [List.map_cons, List.map_cons, List.cons.injEq] at h
          rw [provenance, List.zip_cons_cons, h.1, List.flatten_cons, List.take_left',
            List.drop_left', ih h.2]
          · rfl
          · rfl

section Groups

variable (sourceId sourceVersion : String) {groups : List (List (ℕ × List Char))}

/-- A chunk has as many pieces as its group. -/
theorem map_count_chunks {content : String}
    (hflatten : groups.flatten = numbered 1 (sourceLines content))
    (hfits : ∀ group ∈ groups, Fits group) (seen : List String) :
    (uniqueCitations seen (makeChunks sourceId sourceVersion groups)).map
      (fun chunk => (chunk.text.splitOn '\n').length) = groups.map List.length := by
  have hcounts : (uniqueCitations seen (makeChunks sourceId sourceVersion groups)).map
      (fun chunk => (chunk.text.splitOn '\n').length) =
        ((uniqueCitations seen (makeChunks sourceId sourceVersion groups)).map Chunk.text).map
          fun text => (text.splitOn '\n').length := by
    rw [List.map_map]
    rfl
  rw [hcounts, map_text_chunks, List.map_map]
  apply List.map_congr_left
  intro group hgroup
  have hsplit := splitOn_group hflatten hgroup (hfits group hgroup).nonempty
  simp only [Function.comp_apply, hsplit, List.length_map]

/-- A chunk is made from the group of its index. -/
theorem getElem?_chunks (seen : List String) {i : ℕ} {group : List (ℕ × List Char)}
    (h : groups[i]? = some group) : ∃ occurrence,
      (uniqueCitations seen (makeChunks sourceId sourceVersion groups))[i]? =
        some { makeChunk sourceId sourceVersion i group with
          citation := rename (makeChunk sourceId sourceVersion i group).citation occurrence } := by
  cases hchunk : (uniqueCitations seen (makeChunks sourceId sourceVersion groups))[i]? with
  | none =>
      -- there are as many chunks as groups
      have hcount := congrArg List.length (map_text_chunks sourceId sourceVersion seen groups)
      simp only [List.length_map] at hcount
      have hlt := (List.getElem?_eq_some_iff.1 h).1
      have hle := List.getElem?_eq_none_iff.1 hchunk
      omega
  | some chunk =>
      rcases getElem?_uniqueCitations hchunk with ⟨original, hget, occurrence, -, rfl⟩
      rw [makeChunks, List.getElem?_mapIdx, h, Option.map_some, Option.some.injEq] at hget
      exact ⟨occurrence, by rw [hget]⟩

/-- The chunk of a group of pieces. -/
def chunkOf (index occurrence : ℕ) (group : List Located) : Chunk :=
  let chunk := makeChunk sourceId sourceVersion index (group.map Located.ranked)
  { chunk with citation := rename chunk.citation occurrence }

/-- The chunks are those of groups of located pieces, and have their origins. -/
theorem exists_located_groups (content : String) :
    ∃ groups : List (List Located), groups.flatten = located 1 1 (strippedLines content) ∧
      (∀ group ∈ groups, group ≠ []) ∧
      ∀ i, ∃ occurrence,
        (provenance (chunkContent sourceId sourceVersion content) (origins content))[i]? =
          groups[i]?.map fun group =>
            (chunkOf sourceId sourceVersion i occurrence group, group.map Located.origin) := by
  rcases exists_groups sourceId sourceVersion content with ⟨groups, hflatten, hfits, heq⟩
  -- the pieces with their places are grouped as the pieces without
  have hmap : groups.flatten = (located 1 1 (strippedLines content)).map Located.ranked := by
    rw [hflatten, map_ranked_located]
    rfl
  rcases exists_flatten_of_map hmap with ⟨sources, hsources, rfl⟩
  have hcounts := map_count_chunks sourceId sourceVersion hflatten hfits []
  rw [← heq, List.map_map] at hcounts
  have horigins : origins content = (sources.map (List.map Located.origin)).flatten := by
    rw [← List.map_flatten, hsources, map_origin_located]
    rfl
  have hzip : provenance (chunkContent sourceId sourceVersion content) (origins content) =
      (chunkContent sourceId sourceVersion content).zip
        (sources.map (List.map Located.origin)) := by
    rw [horigins]
    apply provenance_flatten
    rw [hcounts, List.map_map]
    exact List.map_congr_left fun group _ => by simp
  rw [hzip]
  refine ⟨sources, hsources, ?_, fun i => ?_⟩
  · intro group hgroup
    have hfit := hfits _ (List.mem_map_of_mem hgroup)
    simpa using hfit.nonempty
  -- past the last group there is no chunk
  cases hgroup : sources[i]? with
  | none =>
      refine ⟨0, List.getElem?_eq_none ?_⟩
      have hlength := List.getElem?_eq_none_iff.1 hgroup
      simp only [List.length_zip, List.length_map]
      omega
  | some group =>
      have hranked : (sources.map (List.map Located.ranked))[i]? =
          some (group.map Located.ranked) := by
        rw [List.getElem?_map, hgroup]
        rfl
      rcases getElem?_chunks sourceId sourceVersion [] hranked with ⟨occurrence, hchunk⟩
      refine ⟨occurrence, List.getElem?_zip_eq_some.2 ⟨heq ▸ hchunk, ?_⟩⟩
      rw [List.getElem?_map, hgroup]
      rfl

end Groups

/-! ## Anchors -/

section Anchors

variable {sourceId sourceVersion : String} {index occurrence : ℕ}

/-- An anchor text determines its lines. -/
theorem anchor_inj {start last first final : ℕ}
    (h : s!"lines {start}-{last}" = s!"lines {first}-{final}") : start = first ∧ last = final := by
  have htext := congrArg String.toList h
  have htail : Nat.toDigits 10 start ++ ('-' :: Nat.toDigits 10 last) =
      Nat.toDigits 10 first ++ ('-' :: Nat.toDigits 10 final) := by
    simpa [toString] using htext
  rcases Json.toDigits_append_inj (by simp) (by simp) htail with ⟨hstart, hlast⟩
  exact ⟨hstart, Json.toDigits_injective (List.cons.inj hlast).2⟩

/-- A chunk is anchored in the pieces whose tags it is made with. -/
theorem anchored_makeChunk {pieces : List (ℕ × List Char)} (hne : pieces ≠ [])
    (hsorted : pieces.Pairwise fun piece later => piece.1 ≤ later.1) :
    Anchored sourceId sourceVersion
      { makeChunk sourceId sourceVersion index pieces with
        citation := rename (makeChunk sourceId sourceVersion index pieces).citation occurrence }
      pieces := by
  -- a chunk cites from its first piece to its last
  cases pieces with
  | nil => exact absurd rfl hne
  | cons first rest =>
      have hlast := List.getLast?_eq_some_getLast (List.cons_ne_nil first rest)
      refine ⟨rfl, first.1, ((first :: rest).getLast hne).1, ?_, ⟨occurrence, ?_⟩, ?_, rfl, ?_⟩
      · rw [makeChunk, hlast]
        rfl
      · rw [makeChunk, hlast]
        rfl
      · intro piece hpiece
        exact ⟨hsorted.rel_head_of_rel_head_head hpiece (Nat.le_refl _),
          hsorted.rel_getLast_of_rel_getLast_getLast hpiece (Nat.le_refl _)⟩
      · rw [hlast]
        rfl

/-- When a chunk is anchored where its pieces stand, its last piece has its number for rank. -/
theorem rank_eq_of_anchored {front : List Located} {piece : Located}
    (h : Anchored sourceId sourceVersion
      (chunkOf sourceId sourceVersion index occurrence (front ++ [piece]))
      ((front ++ [piece]).map Located.origin)) : piece.number = piece.rank := by
  rcases h with ⟨-, start, last, hanchor, -, -, -, hlast⟩
  rcases anchor_inj hanchor with ⟨-, hend⟩
  simp [Located.ranked, Located.origin] at hend hlast
  rw [hlast, hend]

end Anchors

/-- Without a blank line in between, every chunk is anchored where its text stands. -/
theorem anchored_of_solid {content : String} (h : Solid content) (sourceId sourceVersion : String) :
    ∀ entry ∈ provenance (chunkContent sourceId sourceVersion content) (origins content),
      Anchored sourceId sourceVersion entry.1 entry.2 := by
  rcases exists_located_groups sourceId sourceVersion content with
    ⟨groups, hflatten, hnonempty, hentries⟩
  intro entry hentry
  rcases List.mem_iff_getElem?.1 hentry with ⟨i, hi⟩
  rcases hentries i with ⟨occurrence, heq⟩
  rw [hi, eq_comm, Option.map_eq_some_iff] at heq
  rcases heq with ⟨group, hget, rfl⟩
  have hgroup := List.mem_of_getElem? hget
  -- both numbers of each piece are the same
  have hsame : group.map Located.origin = group.map Located.ranked := by
    apply List.map_congr_left
    intro piece hpiece
    have hmem : piece ∈ located 1 1 (strippedLines content) := by
      rw [← hflatten]
      exact List.mem_flatten_of_mem hgroup hpiece
    rw [Located.origin, Located.ranked, (solid_iff content).1 h piece hmem]
  have hsorted : (group.map Located.ranked).Pairwise fun piece later => piece.1 ≤ later.1 := by
    rw [← hsame, List.pairwise_map]
    have hordered := located_ordered 1 1 (strippedLines content)
    rw [← hflatten, List.pairwise_flatten] at hordered
    exact (hordered.1 group hgroup).imp fun hpair => hpair.1
  show Anchored sourceId sourceVersion _ (group.map Located.origin)
  rw [hsame]
  exact anchored_makeChunk (by simpa using hnonempty group hgroup) hsorted

/-- When every chunk is anchored where its text stands, the last piece of all has its number for
rank, and so have all before it. -/
theorem solid_of_anchored {sourceId sourceVersion content : String}
    (h : ∀ entry ∈ provenance (chunkContent sourceId sourceVersion content) (origins content),
      Anchored sourceId sourceVersion entry.1 entry.2) : Solid content := by
  rcases exists_located_groups sourceId sourceVersion content with
    ⟨groups, hflatten, hnonempty, hentries⟩
  rw [solid_iff]
  intro piece hpiece
  have hordered := located_ordered 1 1 (strippedLines content)
  rcases List.eq_nil_or_concat groups with rfl | ⟨init, group, rfl⟩
  · rw [← hflatten] at hpiece
    simp at hpiece
  rcases List.eq_nil_or_concat group with rfl | ⟨front, last, rfl⟩
  · exact absurd rfl (hnonempty [] (by simp))
  -- the last piece of all is the last one of the last chunk
  have hlast : last.number = last.rank := by
    rcases hentries init.length with ⟨occurrence, heq⟩
    simp only [List.concat_eq_append, List.getElem?_concat_length, Option.map_some] at heq
    exact rank_eq_of_anchored (h _ (List.mem_of_getElem? heq))
  have hall : located 1 1 (strippedLines content) = (init.flatten ++ front) ++ [last] := by
    rw [← hflatten]
    simp
  rw [hall] at hpiece hordered
  rcases List.mem_append.1 hpiece with hfront | hmem
  · have hahead := (List.pairwise_append.1 hordered).2.2 piece hfront last (by simp)
    have hbounds := located_bounds (hall ▸ hpiece)
    omega
  · rw [List.mem_singleton.1 hmem]
    exact hlast

/-- Every chunk is anchored where its text stands, exactly when no blank line stands before one
that is not. -/
theorem anchored_iff (sourceId sourceVersion content : String) :
    (∀ entry ∈ provenance (chunkContent sourceId sourceVersion content) (origins content),
      Anchored sourceId sourceVersion entry.1 entry.2) ↔ Solid content :=
  ⟨solid_of_anchored, fun h => anchored_of_solid h sourceId sourceVersion⟩

/-- The third line of a source is said to be the second one. -/
theorem anchor_of_third_line :
    (chunkContent "policy" "1.0.0" "a\n\nb").map Chunk.anchor = ["lines 1-2"] ∧
      origins "a\n\nb" = [(1, ['a']), (3, ['b'])] ∧
      ¬ ∀ entry ∈ provenance (chunkContent "policy" "1.0.0" "a\n\nb") (origins "a\n\nb"),
        Anchored "policy" "1.0.0" entry.1 entry.2 := by
  refine ⟨by decide +kernel, by decide +kernel, ?_⟩
  intro h
  have hsolid := solid_of_anchored h
  have hblank : ¬ Solid "a\n\nb" := by
    unfold Solid
    decide +kernel
  exact hblank hsolid

end Alos.Sources
