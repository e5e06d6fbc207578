import Alos.Json.Dumps
import Alos.Lines
import Alos.Sources.Chunks

/-! # The pieces of a source, in chunks

The chunks of a source are its lines, cut into pieces and grouped without loss,
repetition or change of order.

* `Grouped` is the invariant of the loop: the pieces so far are those of the
  groups that were closed and of the group that is open (`Grouped.add`);
* `exists_groups`: so the chunks are made of groups of the numbered pieces;
* `rename_inj`: a citation tells the lines and the occurrence;
* `partitioned`: what follows for the chunks.
-/

namespace Alos.Sources

open Py

/-! ## Joined lines -/

theorem joinLines_eq (lines : List (List Char)) : joinLines lines = ['\n'].intercalate lines := by
  fun_induction joinLines lines with
  | case1 => rfl
  | case2 line => simp
  | case3 line rest hrest ih =>
      have hne : rest ≠ [] := fun h => hrest h
      rw [List.intercalate_cons_of_ne_nil hne, ih]
      simp

/-- A further line adds its length and the line break before it. -/
theorem length_joinLines_snoc (lines : List (List Char)) (line : List Char) :
    (joinLines (lines ++ [line])).length =
      (joinLines lines).length + line.length + if lines = [] then 0 else 1 := by
  fun_induction joinLines lines with
  | case1 => simp [joinLines]
  | case2 first =>
      simp only [List.singleton_append, joinLines, List.length_append, List.length_cons,
        List.cons_ne_nil, if_false]
      omega
  | case3 first rest hrest ih =>
      have hne : rest ≠ [] := fun h => hrest h
      have hne' : rest ++ [line] ≠ [] := by simp
      rw [if_neg hne] at ih
      rw [List.cons_append, joinLines.eq_3 _ _ hne', List.length_append, List.length_cons, ih]
      simp only [List.length_append, List.length_cons, List.cons_ne_nil, if_false]
      omega

/-- The lines can be told from the text, as long as they hold no newline. -/
theorem splitOn_joinLines {lines : List (List Char)} (hne : lines ≠ [])
    (h : ∀ line ∈ lines, '\n' ∉ line) : (joinLines lines).splitOn '\n' = lines := by
  rw [joinLines_eq]
  exact List.splitOn_intercalate '\n' h hne

/-! ## Pieces of a line -/

theorem flatten_parts {n : ℕ} {line : List Char} (h : line.length ≤ n) :
    (parts n line).flatten = line := by
  induction n generalizing line with
  | zero =>
      have hnil : line = [] := List.length_eq_zero_iff.1 (by omega)
      rw [hnil]
      rfl
  | succ n ih =>
      cases line with
      | nil => rfl
      | cons c rest =>
          have hrest : ((c :: rest).drop chunkCharacters).length ≤ n := by
            rw [List.length_drop]
            simp only [chunkCharacters, List.length_cons] at h ⊢
            omega
          rw [parts.eq_3 _ _ (by simp), List.flatten_cons, ih hrest, List.take_append_drop]

/-- A part of a line is not empty, fits into a chunk and has characters of the line only. -/
theorem mem_parts {n : ℕ} {line piece : List Char} (h : piece ∈ parts n line) :
    piece ≠ [] ∧ piece.length ≤ chunkCharacters ∧ ∀ c ∈ piece, c ∈ line := by
  induction n generalizing line with
  | zero => simp [parts] at h
  | succ n ih =>
      cases line with
      | nil => simp [parts] at h
      | cons c rest =>
          rw [parts.eq_3 _ _ (by simp), List.mem_cons] at h
          rcases h with rfl | h
          · refine ⟨by simp [chunkCharacters], List.length_take_le _ _, ?_⟩
            intro d hd
            exact List.mem_of_mem_take hd
          · rcases ih h with ⟨hne, hlength, hmem⟩
            exact ⟨hne, hlength, fun d hd => List.mem_of_mem_drop (hmem d hd)⟩

/-- The pieces of a line. -/
def cut (line : List Char) : List (List Char) := parts line.length line

/-- The pieces of the lines, each with the rank of its line. -/
def numbered (number : ℕ) : List (List Char) → List (ℕ × List Char)
  | [] => []
  | line :: rest => (cut line).map (Prod.mk number) ++ numbered (number + 1) rest

/-- Numbering the lines does not change the pieces. -/
theorem map_snd_numbered (number : ℕ) (lines : List (List Char)) :
    (numbered number lines).map Prod.snd = lines.flatMap cut := by
  induction lines generalizing number with
  | nil => rfl
  | cons line rest ih => simp [numbered, ih, Function.comp_def]

/-- Each numbered piece is cut from a line. -/
theorem mem_numbered {number : ℕ} {lines : List (List Char)} {piece : ℕ × List Char}
    (h : piece ∈ numbered number lines) : ∃ line ∈ lines, piece.2 ∈ cut line := by
  have hmem : piece.2 ∈ (numbered number lines).map Prod.snd := List.mem_map_of_mem h
  rw [map_snd_numbered] at hmem
  exact List.mem_flatMap.1 hmem

/-! ## The loop -/

/-- Pieces that make a chunk. -/
structure Fits (group : List (ℕ × List Char)) : Prop where
  nonempty : group ≠ []
  count : group.length ≤ 8
  size : (joinLines (group.map Prod.snd)).length ≤ chunkCharacters

section Loop

variable (sourceId sourceVersion : String)

/-- One chunk of each group, counted from the first. -/
def makeChunks (groups : List (List (ℕ × List Char))) : List Chunk :=
  groups.mapIdx (makeChunk sourceId sourceVersion)

/-- The pieces `taken` are those of the groups that are closed, and of the group
that is open. -/
structure Grouped (taken : List (ℕ × List Char)) (groups : List (List (ℕ × List Char)))
    (state : Chunking) : Prop where
  taken_eq : groups.flatten ++ state.current = taken
  chunks_eq : state.chunks = makeChunks sourceId sourceVersion groups
  size_eq : state.size = (joinLines (state.current.map Prod.snd)).length
  closed_fits : ∀ group ∈ groups, Fits group
  open_fits : state.current ≠ [] → Fits state.current

/-- Nothing is taken and nothing grouped at the start. -/
theorem Grouped.start : Grouped sourceId sourceVersion [] [] {} where
  taken_eq := rfl
  chunks_eq := rfl
  size_eq := rfl
  closed_fits := by simp
  open_fits := by simp

variable {sourceId sourceVersion} {taken : List (ℕ × List Char)}
  {groups : List (List (ℕ × List Char))} {state : Chunking}

/-- Closing the open chunk makes its pieces one more group. -/
theorem Grouped.close (h : Grouped sourceId sourceVersion taken groups state)
    (hopen : state.current ≠ []) :
    Grouped sourceId sourceVersion taken (groups ++ [state.current])
      (state.close sourceId sourceVersion) where
  taken_eq := by simpa [Chunking.close] using h.taken_eq
  chunks_eq := by simp [Chunking.close, h.chunks_eq, makeChunks]
  size_eq := rfl
  closed_fits := by
    intro group hgroup
    rcases List.mem_append.1 hgroup with hgroup | hgroup
    · exact h.closed_fits group hgroup
    · rw [List.mem_singleton.1 hgroup]
      exact h.open_fits hopen
  open_fits := by simp [Chunking.close]

/-- A piece for which there is room goes to the group that is open. -/
theorem Grouped.push {number : ℕ} {part : List Char}
    (h : Grouped sourceId sourceVersion taken groups state)
    (hroom : state.current ≠ [] →
      state.current.length < 8 ∧ state.size + part.length + 1 ≤ chunkCharacters)
    (hpart : part.length ≤ chunkCharacters) :
    Grouped sourceId sourceVersion (taken ++ [(number, part)]) groups
      { state with
        current := state.current ++ [(number, part)]
        size := state.size + part.length +
          if 1 < (state.current ++ [(number, part)]).length then 1 else 0 } := by
  have hlength := length_joinLines_snoc (state.current.map Prod.snd) part
  simp only [← h.size_eq, List.map_eq_nil_iff] at hlength
  -- the separator is counted when the group was not empty
  have hsize : state.size + part.length +
      (if 1 < (state.current ++ [(number, part)]).length then 1 else 0) =
        (joinLines ((state.current ++ [(number, part)]).map Prod.snd)).length := by
    rw [List.map_append, List.map_singleton, hlength, List.length_append, List.length_singleton]
    by_cases hopen : state.current = []
    · simp [hopen]
    · have hpos := List.length_pos_iff.2 hopen
      rw [if_pos (by omega), if_neg hopen]
  refine ⟨?_, h.chunks_eq, hsize, h.closed_fits, ?_⟩
  · rw [← h.taken_eq, List.append_assoc]
  · intro _
    refine ⟨by simp, ?_, ?_⟩
    · simp only [List.length_append, List.length_singleton]
      by_cases hopen : state.current = []
      · simp [hopen]
      · have hcount := (hroom hopen).1
        omega
    · simp only [List.map_append, List.map_singleton, hlength]
      by_cases hopen : state.current = []
      · have hzero : state.size = 0 := by rw [h.size_eq, hopen]; rfl
        rw [if_pos hopen]
        omega
      · have hfit := (hroom hopen).2
        rw [if_neg hopen]
        exact hfit

/-- Adding a piece puts it into the open chunk, or into a new one when it does not fit. -/
theorem Grouped.add (h : Grouped sourceId sourceVersion taken groups state) (number : ℕ)
    {part : List Char} (hpart : part.length ≤ chunkCharacters) :
    ∃ groups, Grouped sourceId sourceVersion (taken ++ [(number, part)]) groups
      (state.add sourceId sourceVersion number part) := by
  -- the open chunk has eight lines, or no room for this one
  by_cases hfull : state.current ≠ [] ∧ (8 ≤ state.current.length ∨
      chunkCharacters < state.size + part.length + if state.current ≠ [] then 1 else 0)
  · refine ⟨groups ++ [state.current], ?_⟩
    unfold Chunking.add
    simp only [if_pos hfull]
    exact (h.close hfull.1).push (fun hopen => absurd rfl hopen) hpart
  · refine ⟨groups, ?_⟩
    unfold Chunking.add
    simp only [if_neg hfull]
    refine h.push ?_ hpart
    intro hopen
    rw [if_pos hopen] at hfull
    have hroom := not_or.1 fun hcase => hfull ⟨hopen, hcase⟩
    omega

/-- So does adding all the lines, piece by piece. -/
theorem Grouped.addLines (h : Grouped sourceId sourceVersion taken groups state) (number : ℕ)
    (lines : List (List Char)) :
    ∃ groups, Grouped sourceId sourceVersion (taken ++ numbered number lines) groups
      (state.addLines sourceId sourceVersion number lines) := by
  induction lines generalizing number taken groups state with
  | nil => exact ⟨groups, by simpa [numbered, Chunking.addLines] using h⟩
  | cons line rest ih =>
      -- the pieces of the first line, one after the other
      have hline : ∀ pieces ⊆ cut line, ∀ {taken groups state},
          Grouped sourceId sourceVersion taken groups state →
          ∃ groups, Grouped sourceId sourceVersion (taken ++ pieces.map (Prod.mk number)) groups
            (pieces.foldl (fun state part => state.add sourceId sourceVersion number part) state) := by
        intro pieces hpieces
        induction pieces with
        | nil =>
            intro taken groups state h
            exact ⟨groups, by simpa using h⟩
        | cons piece pieces ihpieces =>
            intro taken groups state h
            have hpiece := mem_parts (hpieces List.mem_cons_self)
            rcases h.add number hpiece.2.1 with ⟨groups', h'⟩
            rcases ihpieces (fun p hp => hpieces (List.mem_cons_of_mem _ hp)) h' with ⟨groups'', h''⟩
            exact ⟨groups'', by simpa using h''⟩
      rcases hline _ (List.Subset.refl _) h with ⟨groups', h'⟩
      rcases ih h' (number + 1) with ⟨groups'', h''⟩
      exact ⟨groups'', by simpa [numbered, Chunking.addLines, cut] using h''⟩

end Loop

/-! ## The groups of a source -/

/-- The lines of the source that are not blank, stripped. -/
def sourceLines (content : String) : List (List Char) :=
  ((splitLines content.toList).map stripped).filter (· ≠ [])

/-- A source without such a line is white space. -/
theorem stripped_eq_nil {content : String} (h : sourceLines content = []) :
    stripped content.toList = [] := by
  rw [stripped, strip_eq_nil_iff]
  intro c hc
  rcases mem_splitLines hc with hbreak | ⟨line, hline, hmem⟩
  · exact isSpace_of_isLineBreak hbreak
  · have hnone := List.filter_eq_nil_iff.1 h (stripped line) (List.mem_map_of_mem hline)
    have hblank : stripped line = [] := by simpa using hnone
    exact strip_eq_nil_iff.1 hblank c hmem

/-- A line of the source holds no line break. -/
theorem newline_notMem_sourceLines {content : String} {line : List Char}
    (h : line ∈ sourceLines content) : '\n' ∉ line := by
  intro hmem
  rcases List.mem_map.1 (List.mem_filter.1 h).1 with ⟨whole, hwhole, rfl⟩
  have hin := (List.dropWhile_suffix isSpace).subset ((prefix_of_rstrip _).subset hmem)
  have hnot := notBreak_of_mem_splitLines hwhole '\n' hin
  simp [isLineBreak] at hnot

/-- The chunks are made of groups of the pieces. -/
theorem exists_groups (sourceId sourceVersion content : String) :
    ∃ groups, groups.flatten = numbered 1 (sourceLines content) ∧ (∀ group ∈ groups, Fits group) ∧
      chunkContent sourceId sourceVersion content =
        uniqueCitations [] (makeChunks sourceId sourceVersion groups) := by
  unfold chunkContent
  rw [← sourceLines]
  -- a blank source has one line without pieces
  have hlines : numbered 1
      (if sourceLines content = [] then [stripped content.toList] else sourceLines content) =
        numbered 1 (sourceLines content) := by
    by_cases hnil : sourceLines content = []
    · rw [if_pos hnil, hnil, stripped_eq_nil hnil]
      rfl
    · rw [if_neg hnil]
  rcases (Grouped.start sourceId sourceVersion).addLines 1 (if sourceLines content = [] then
    [stripped content.toList] else sourceLines content) with ⟨groups, h⟩
  rw [List.nil_append, hlines] at h
  dsimp only
  generalize Chunking.addLines sourceId sourceVersion {} 1 _ = state at h ⊢
  split
  · next hopen =>
    have hclosed := h.close hopen
    refine ⟨_, ?_, hclosed.closed_fits, by rw [hclosed.chunks_eq]⟩
    rw [← hclosed.taken_eq, Chunking.close, List.append_nil]
  · next hopen =>
    have hnone := not_not.1 hopen
    refine ⟨groups, ?_, h.closed_fits, by rw [h.chunks_eq]⟩
    rw [← h.taken_eq, hnone, List.append_nil]

/-! ## Citations -/

section Citations

variable (sourceId sourceVersion : String)

/-- The citation of a range of lines, before it is made distinct. -/
def lineKey (start last : ℕ) : String := s!"{sourceId}@{sourceVersion}#L{start}-L{last}"

/-- A citation that has occurred before is marked with the count. -/
def rename (citation : String) (occurrence : ℕ) : String :=
  if occurrence = 1 then citation else s!"{citation}-P{occurrence}"

/-- What the occurrence adds to a citation. -/
def mark (occurrence : ℕ) : List Char :=
  if occurrence = 1 then [] else '-' :: 'P' :: Nat.toDigits 10 occurrence

variable {sourceId sourceVersion}

/-- Different counts give different marks. -/
theorem mark_inj {j k : ℕ} (h : mark j = mark k) : j = k := by
  unfold mark at h
  by_cases hj : j = 1 <;> by_cases hk : k = 1 <;> simp only [hj, hk, if_true, if_false] at h
  · omega
  · cases h
  · cases h
  · exact Json.toDigits_injective (List.cons.inj (List.cons.inj h).2).2

/-- A mark cannot be taken for more digits of the line number. -/
theorem mark_head? (k : ℕ) : ∀ c ∈ (mark k).head?, c.isDigit = false := by
  unfold mark
  split <;> simp

/-- A renamed citation, spelled out. -/
theorem toList_rename (start last occurrence : ℕ) :
    (rename (lineKey sourceId sourceVersion start last) occurrence).toList =
      (sourceId.toList ++ '@' :: (sourceVersion.toList ++ ['#', 'L'])) ++
        (Nat.toDigits 10 start ++
          ('-' :: 'L' :: (Nat.toDigits 10 last ++ mark occurrence))) := by
  unfold rename mark
  split <;> simp [lineKey, toString]

/-- A citation tells the lines and the occurrence. -/
theorem rename_inj {start last occurrence start' last' occurrence' : ℕ}
    (h : rename (lineKey sourceId sourceVersion start last) occurrence =
      rename (lineKey sourceId sourceVersion start' last') occurrence') :
    start = start' ∧ last = last' ∧ occurrence = occurrence' := by
  have htext := congrArg String.toList h
  rw [toList_rename, toList_rename] at htext
  rcases Json.toDigits_append_inj (by simp) (by simp) (List.append_cancel_left htext) with
    ⟨hstart, hrest⟩
  have hlast := (List.cons.inj (List.cons.inj hrest).2).2
  rcases Json.toDigits_append_inj (mark_head? _) (mark_head? _) hlast with ⟨hlast, hmark⟩
  exact ⟨hstart, hlast, mark_inj hmark⟩

/-- Every chunk cites a range of lines. -/
theorem exists_lineKey {groups : List (List (ℕ × List Char))} {chunk : Chunk}
    (h : chunk ∈ makeChunks sourceId sourceVersion groups) :
    ∃ start last, chunk.citation = lineKey sourceId sourceVersion start last := by
  rcases List.mem_mapIdx.1 h with ⟨i, hi, rfl⟩
  exact ⟨_, _, rfl⟩

/-- Only the citations change. -/
theorem map_uniqueCitations {α : Type} {f : Chunk → α}
    (hf : ∀ chunk citation, f { chunk with citation := citation } = f chunk) (seen : List String)
    (chunks : List Chunk) : (uniqueCitations seen chunks).map f = chunks.map f := by
  induction chunks generalizing seen with
  | nil => rfl
  | cons chunk rest ih => rw [uniqueCitations, List.map_cons, ih, hf, List.map_cons]

/-- A citation is renamed by more occurrences than were seen. -/
theorem getElem?_uniqueCitations {seen : List String} {chunks : List Chunk} {i : ℕ} {chunk : Chunk}
    (h : (uniqueCitations seen chunks)[i]? = some chunk) :
    ∃ original, chunks[i]? = some original ∧
      ∃ occurrence, seen.count original.citation < occurrence ∧
        chunk = { original with citation := rename original.citation occurrence } := by
  -- on the chunks: each citation is counted among those before it
  induction chunks generalizing seen i with
  | nil => simp [uniqueCitations] at h
  | cons first rest ih =>
      cases i with
      | zero =>
          simp only [uniqueCitations, List.getElem?_cons_zero, Option.some.injEq] at h
          exact ⟨first, rfl, _, by omega, h.symm⟩
      | succ i =>
          rw [uniqueCitations, List.getElem?_cons_succ] at h
          rcases ih h with ⟨original, hget, occurrence, hcount, heq⟩
          have hmore := List.count_le_count_cons (a := original.citation) (b := first.citation)
            (l := seen)
          exact ⟨original, hget, occurrence, by omega, heq⟩

/-- No two chunks keep one citation. -/
theorem nodup_uniqueCitations {seen : List String} {chunks : List Chunk}
    (h : ∀ chunk ∈ chunks, ∃ start last,
      chunk.citation = lineKey sourceId sourceVersion start last) :
    ((uniqueCitations seen chunks).map Chunk.citation).Nodup := by
  induction chunks generalizing seen with
  | nil => exact List.nodup_nil
  | cons first rest ih =>
      have hrest : ((uniqueCitations (first.citation :: seen) rest).map Chunk.citation).Nodup :=
        ih fun chunk hchunk => h chunk (List.mem_cons_of_mem _ hchunk)
      rw [uniqueCitations, List.map_cons, List.nodup_cons]
      refine ⟨?_, hrest⟩
      intro hmem
      rcases List.mem_map.1 hmem with ⟨later, hlater, heq⟩
      rcases List.mem_iff_getElem?.1 hlater with ⟨i, hi⟩
      rcases getElem?_uniqueCitations hi with ⟨original, hget, occurrence, hcount, rfl⟩
      rcases h first List.mem_cons_self with ⟨start, last, hfirst⟩
      rcases h original (List.mem_cons_of_mem _ (List.mem_of_getElem? hget)) with
        ⟨start', last', hkey⟩
      have hsame : rename original.citation occurrence =
          rename first.citation (seen.count first.citation + 1) := heq
      rw [hkey, hfirst] at hsame
      rcases rename_inj hsame with ⟨rfl, rfl, hoccurrence⟩
      -- the first chunk is one of those that the later one has seen
      rw [hkey, ← hfirst, List.count_cons_self] at hcount
      rw [hfirst] at hcount
      omega

end Citations

/-! ## The chunks -/

/-- What the chunks are, in the lines of the source. -/
structure Partitioned (content : String) (chunks : List Chunk) : Prop where
  pieces_eq : chunks.flatMap (fun chunk => chunk.text.splitOn '\n') =
    (sourceLines content).flatMap cut
  flatten_cut : ∀ line ∈ sourceLines content, (cut line).flatten = line
  cut_bounded : ∀ line ∈ sourceLines content, ∀ piece ∈ cut line,
    piece ≠ [] ∧ piece.length ≤ chunkCharacters
  bounded : ∀ chunk ∈ chunks, chunk.text ≠ [] ∧ (chunk.text.splitOn '\n').length ≤ 8 ∧
    chunk.text.length ≤ chunkCharacters
  indices_eq : chunks.map Chunk.index = List.range chunks.length
  citations_nodup : (chunks.map Chunk.citation).Nodup

section Groups

variable {content : String} {groups : List (List (ℕ × List Char))} {group : List (ℕ × List Char)}

/-- A piece of a group is cut from a line of the source. -/
theorem exists_cut (hflatten : groups.flatten = numbered 1 (sourceLines content))
    (h : group ∈ groups) {piece : ℕ × List Char} (hpiece : piece ∈ group) :
    ∃ line ∈ sourceLines content, piece.2 ∈ cut line := by
  have hnumbered : piece ∈ numbered 1 (sourceLines content) := by
    rw [← hflatten]
    exact List.mem_flatten_of_mem h hpiece
  exact mem_numbered hnumbered

/-- The pieces of a group can be told from its text. -/
theorem splitOn_group (hflatten : groups.flatten = numbered 1 (sourceLines content))
    (h : group ∈ groups) (hne : group ≠ []) :
    (joinLines (group.map Prod.snd)).splitOn '\n' = group.map Prod.snd := by
  apply splitOn_joinLines
  · simpa using hne
  · intro text htext hmem
    rcases List.mem_map.1 htext with ⟨piece, hpiece, rfl⟩
    rcases exists_cut hflatten h hpiece with ⟨line, hline, hcut⟩
    exact newline_notMem_sourceLines hline ((mem_parts hcut).2.2 _ hmem)

/-- A group has text. -/
theorem joinLines_group_ne_nil (hflatten : groups.flatten = numbered 1 (sourceLines content))
    (h : group ∈ groups) (hne : group ≠ []) : joinLines (group.map Prod.snd) ≠ [] := by
  intro hnil
  -- an empty text would be one empty piece
  have hpieces := splitOn_group hflatten h hne
  rw [hnil, List.splitOn_nil] at hpieces
  have hmem : [] ∈ group.map Prod.snd := by
    rw [← hpieces]
    exact List.mem_singleton_self _
  rcases List.mem_map.1 hmem with ⟨piece, hpiece, hempty⟩
  rcases exists_cut hflatten h hpiece with ⟨line, -, hcut⟩
  exact (mem_parts hcut).1 hempty

end Groups

/-- The texts of the chunks are those of the groups. -/
theorem map_text_chunks (sourceId sourceVersion : String) (seen : List String)
    (groups : List (List (ℕ × List Char))) :
    (uniqueCitations seen (makeChunks sourceId sourceVersion groups)).map Chunk.text =
      groups.map fun group => joinLines (group.map Prod.snd) := by
  rw [map_uniqueCitations (fun _ _ => rfl)]
  exact List.ext_getElem (by simp [makeChunks]) fun i _ _ => by simp [makeChunks, makeChunk]

/-- The chunks are counted without a gap. -/
theorem map_index_chunks (sourceId sourceVersion : String) (seen : List String)
    (groups : List (List (ℕ × List Char))) :
    (uniqueCitations seen (makeChunks sourceId sourceVersion groups)).map Chunk.index =
      List.range groups.length := by
  rw [map_uniqueCitations (fun _ _ => rfl)]
  exact List.ext_getElem (by simp [makeChunks]) fun i _ _ => by simp [makeChunks, makeChunk]

/-- The chunks are indexed in their order. -/
theorem map_index_chunkContent (sourceId sourceVersion content : String) :
    (chunkContent sourceId sourceVersion content).map Chunk.index =
      List.range (chunkContent sourceId sourceVersion content).length := by
  rcases exists_groups sourceId sourceVersion content with ⟨groups, -, -, heq⟩
  have hindices := map_index_chunks sourceId sourceVersion [] groups
  rw [← heq] at hindices
  have hlength := congrArg List.length hindices
  rw [List.length_map, List.length_range] at hlength
  rw [hindices, hlength]

/-- The chunks of any content partition it. -/
theorem partitioned (sourceId sourceVersion content : String) :
    Partitioned content (chunkContent sourceId sourceVersion content) := by
  rcases exists_groups sourceId sourceVersion content with ⟨groups, hflatten, hfits, heq⟩
  -- the texts of the chunks are the groups, joined
  have htexts : (chunkContent sourceId sourceVersion content).map Chunk.text =
      groups.map fun group => joinLines (group.map Prod.snd) := by
    rw [heq, map_text_chunks]
  refine ⟨?_, fun line _ => flatten_parts (Nat.le_refl _), ?_, ?_,
    map_index_chunkContent sourceId sourceVersion content, ?_⟩
  · calc (chunkContent sourceId sourceVersion content).flatMap (fun chunk => chunk.text.splitOn '\n')
      _ = ((chunkContent sourceId sourceVersion content).map Chunk.text).flatMap
            (List.splitOn '\n') := by rw [List.flatMap_map]
      _ = groups.flatMap fun group =>
            (joinLines (group.map Prod.snd)).splitOn '\n' := by rw [htexts, List.flatMap_map]
      _ = groups.flatMap fun group => group.map Prod.snd :=
            List.flatMap_congr fun group hgroup =>
              splitOn_group hflatten hgroup (hfits group hgroup).nonempty
      _ = groups.flatten.map Prod.snd := by rw [List.map_flatten, List.flatMap_def]
      _ = (sourceLines content).flatMap cut := by rw [hflatten, map_snd_numbered]
  · intro line _ piece hpiece
    rcases mem_parts hpiece with ⟨hne, hlength, -⟩
    exact ⟨hne, hlength⟩
  · intro chunk hchunk
    have hmem : chunk.text ∈ groups.map fun group => joinLines (group.map Prod.snd) := by
      rw [← htexts]
      exact List.mem_map_of_mem hchunk
    rcases List.mem_map.1 hmem with ⟨group, hgroup, htext⟩
    have hfit := hfits group hgroup
    rw [← htext, splitOn_group hflatten hgroup hfit.nonempty, List.length_map]
    exact ⟨joinLines_group_ne_nil hflatten hgroup hfit.nonempty, hfit.count, hfit.size⟩
  · rw [heq]
    exact nodup_uniqueCitations fun chunk => exists_lineKey

end Alos.Sources
