import Alos.Py

/-! # Chunks of a source

`_chunk_content` of `alos.sources.service`: the lines of a source, in chunks of
at most 1500 characters and 8 parts, each with a citation of its own.
-/

namespace Alos.Sources

open Py

/-- `(index, citation, anchor, text)`. -/
structure Chunk where
  index : ℕ
  citation : String
  anchor : String
  text : List Char

/-- `max_characters` of `_chunk_content`. -/
def chunkCharacters : ℕ := 1500

/-- The parts of a line; `n` is enough steps for it. -/
def parts : ℕ → List Char → List (List Char)
  | 0, _ => []
  | _, [] => []
  | n + 1, line => line.take chunkCharacters :: parts n (line.drop chunkCharacters)

/-- `"\n".join(lines)`. -/
def joinLines : List (List Char) → List Char
  | [] => []
  | [line] => line
  | line :: rest => line ++ '\n' :: joinLines rest

/-- `_make_chunk`, of lines that are not empty. -/
def makeChunk (sourceId sourceVersion : String) (index : ℕ) (lines : List (ℕ × List Char)) : Chunk :=
  let first := (lines.head?.map Prod.fst).getD 0
  let last := (lines.getLast?.map Prod.fst).getD 0
  { index := index
    citation := s!"{sourceId}@{sourceVersion}#L{first}-L{last}"
    anchor := s!"lines {first}-{last}"
    text := joinLines (lines.map Prod.snd) }

/-- `chunks`, `current` and `current_size` of the loop over the lines. -/
structure Chunking where
  chunks : List Chunk := []
  current : List (ℕ × List Char) := []
  size : ℕ := 0

namespace Chunking

variable (sourceId sourceVersion : String)

/-- The lines so far become a chunk. -/
def close (state : Chunking) : Chunking where
  chunks := state.chunks ++ [makeChunk sourceId sourceVersion state.chunks.length state.current]

def add (state : Chunking) (number : ℕ) (part : List Char) : Chunking :=
  let nextSize := state.size + part.length + if state.current ≠ [] then 1 else 0
  let state :=
    if state.current ≠ [] ∧ (8 ≤ state.current.length ∨ chunkCharacters < nextSize) then
      state.close sourceId sourceVersion
    else state
  let current := state.current ++ [(number, part)]
  { state with
    current := current
    size := state.size + part.length + if 1 < current.length then 1 else 0 }

/-- The parts of the lines, which are numbered from `number` on. -/
def addLines (state : Chunking) (number : ℕ) : List (List Char) → Chunking
  | [] => state
  | line :: rest =>
      addLines ((parts line.length line).foldl (fun state part =>
        state.add sourceId sourceVersion number part) state) (number + 1) rest

end Chunking

/-- The citations are made different from the earlier ones, `seen`. -/
def uniqueCitations (seen : List String) : List Chunk → List Chunk
  | [] => []
  | chunk :: rest =>
      let occurrence := seen.count chunk.citation + 1
      let citation :=
        if occurrence = 1 then chunk.citation else s!"{chunk.citation}-P{occurrence}"
      { chunk with citation := citation } :: uniqueCitations (chunk.citation :: seen) rest

def stripped (s : List Char) : List Char := rstrip (s.dropWhile isSpace)

/-- `_chunk_content`. -/
def chunkContent (sourceId sourceVersion content : String) : List Chunk :=
  let lines := ((splitLines content.toList).map stripped).filter (· ≠ [])
  let lines := if lines = [] then [stripped content.toList] else lines
  let state := Chunking.addLines sourceId sourceVersion {} 1 lines
  let state := if state.current ≠ [] then state.close sourceId sourceVersion else state
  uniqueCitations [] state.chunks

end Alos.Sources
