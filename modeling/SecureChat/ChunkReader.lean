import Mathlib
/-!
# ChunkReader — a stream of bytes in chunks of one size

The events of the source have any sizes.  `nextChunk` copies from the event at hand and moves on when it is used up,
until a chunk is full or the source ends.  A chunk is the first bytes of what is left (`nextChunk_eq`), so the chunks
are the source cut into pieces (`nextChunk_pieces`).
-/
namespace SecureChat
namespace FileTransfer

structure ChunkReader where
  source : List (List UInt8)
  current : List UInt8
  offset : ℕ
  done : Bool
  inCurrent : offset ≤ current.length
  ended : done = true → source = []

namespace ChunkReader

def ofSource (source : List (List UInt8)) : ChunkReader where
  source := source
  current := []
  offset := 0
  done := false
  inCurrent := Nat.le_refl 0
  ended := fun h => by cases h

def moveNext (r : ChunkReader) : Option ChunkReader :=
  if r.done = true then none
  else
    match r.source with
    | [] => none
    | event :: later => some
      { source := later
        current := event
        offset := 0
        done := false
        inCurrent := Nat.zero_le _
        ended := fun h => by cases h }

def finished : ChunkReader where
  source := []
  current := []
  offset := 0
  done := true
  inCurrent := Nat.le_refl 0
  ended := fun _ => rfl

/-- How many bytes of the event at hand go into a chunk that has `written` bytes. -/
def count (chunkSize written : ℕ) (r : ChunkReader) : ℕ := min (chunkSize - written) (r.current.length - r.offset)

def advance (n : ℕ) (r : ChunkReader) (h : n ≤ r.current.length - r.offset) : ChunkReader :=
  { r with
      offset := r.offset + n
      inCurrent := Nat.add_le_of_le_sub' r.inCurrent h }

theorem count_le (chunkSize written : ℕ) (r : ChunkReader) :
    r.count chunkSize written ≤ r.current.length - r.offset := Nat.min_le_right _ _

def copied (chunkSize written : ℕ) (r : ChunkReader) : List UInt8 :=
  (r.current.drop r.offset).take (r.count chunkSize written)

def afterCopy (chunkSize written : ℕ) (r : ChunkReader) : ChunkReader :=
  r.advance (r.count chunkSize written) (r.count_le chunkSize written)

theorem source_moveNext {r r' : ChunkReader} (h : r.moveNext = some r') : r'.source.length < r.source.length := by
  unfold moveNext at h
  split at h
  · cases h
  · cases hs : r.source with
    | nil => rw [hs] at h; cases h
    | cons event later =>
      rw [hs] at h
      cases h
      exact Nat.lt_succ_self _

theorem left_afterCopy {chunkSize written : ℕ} {r : ChunkReader} (hw : written < chunkSize)
    (hr : r.offset ≠ r.current.length) :
    (r.afterCopy chunkSize written).current.length - (r.afterCopy chunkSize written).offset <
      r.current.length - r.offset := by
  have hin := r.inCurrent
  show r.current.length - (r.offset + min (chunkSize - written) (r.current.length - r.offset)) < _
  omega

/-- The loop of `nextChunk`: it goes on in the event at hand or, behind its end, in the next one. -/
def fill (chunkSize : ℕ) (bytes : List UInt8) (r : ChunkReader) : List UInt8 × ChunkReader :=
  if bytes.length < chunkSize then
    if r.offset = r.current.length then
      match _hnext : r.moveNext with
      | none => (bytes, finished)
      | some r' => fill chunkSize (bytes ++ r'.copied chunkSize bytes.length) (r'.afterCopy chunkSize bytes.length)
    else fill chunkSize (bytes ++ r.copied chunkSize bytes.length) (r.afterCopy chunkSize bytes.length)
  else (bytes, r)
termination_by (r.source.length, r.current.length - r.offset)
decreasing_by
  · have hlt := source_moveNext _hnext
    exact Prod.Lex.left _ _ hlt
  · exact Prod.Lex.right _ (left_afterCopy ‹_› ‹_›)

def nextChunk (chunkSize : ℕ) (r : ChunkReader) : List UInt8 × ChunkReader := fill chunkSize [] r

def chunks (chunkSize : ℕ) : ℕ → ChunkReader → List (List UInt8)
  | 0    , _ => []
  | n + 1, r => (nextChunk chunkSize r).1 :: chunks chunkSize n (nextChunk chunkSize r).2

/-! ## What is left -/

def rest (r : ChunkReader) : List UInt8 := r.current.drop r.offset ++ r.source.flatten

theorem copied_append_rest (chunkSize written : ℕ) (r : ChunkReader) :
    r.copied chunkSize written ++ (r.afterCopy chunkSize written).rest = r.rest := by
  show (r.current.drop r.offset).take _ ++ (r.current.drop (r.offset + _) ++ r.source.flatten) = _
  rw [← List.append_assoc, ← List.drop_drop, List.take_append_drop]
  rfl

theorem rest_moveNext {r r' : ChunkReader} (hr : r.offset = r.current.length) (h : r.moveNext = some r') :
    r'.rest = r.rest := by
  unfold moveNext at h
  split at h
  · cases h
  · cases hs : r.source with
    | nil => rw [hs] at h; cases h
    | cons event later =>
      rw [hs] at h
      cases h
      rw [rest, rest, hr, List.drop_length, hs]
      rfl

theorem rest_of_moveNext_none {r : ChunkReader} (hr : r.offset = r.current.length) (h : r.moveNext = none) :
    r.rest = [] := by
  have hsource : r.source = [] := by
    unfold moveNext at h
    split at h
    · rename_i hdone
      exact r.ended hdone
    · cases hs : r.source with
      | nil => rfl
      | cons event later => rw [hs] at h; cases h
  rw [rest, hr, List.drop_length, hsource]
  rfl

theorem length_copied_le (chunkSize written : ℕ) (r : ChunkReader) :
    (r.copied chunkSize written).length ≤ chunkSize - written :=
  Nat.le_trans (List.length_take_le _ _) (Nat.min_le_left _ _)

/-- **The loop moves bytes from what is left to the chunk**, until the chunk is full or nothing is left. -/
theorem fill_spec {chunkSize : ℕ} {bytes : List UInt8} {r : ChunkReader} (h : bytes.length ≤ chunkSize) :
    (fill chunkSize bytes r).1 ++ (fill chunkSize bytes r).2.rest = bytes ++ r.rest ∧
      (fill chunkSize bytes r).1.length ≤ chunkSize ∧
      ((fill chunkSize bytes r).1.length = chunkSize ∨ (fill chunkSize bytes r).2.rest = []) := by
  fun_induction fill chunkSize bytes r with
  | case1 bytes r hlt hend hnone =>
    rw [rest_of_moveNext_none hend hnone]
    exact ⟨rfl, h, .inr rfl⟩
  | case2 bytes r hlt hend r' hnext ih =>
    have hle := r'.length_copied_le chunkSize bytes.length
    obtain ⟨hrest, hlen, hfull⟩ := ih (by rw [List.length_append]; omega)
    refine ⟨?_, hlen, hfull⟩
    rw [hrest, List.append_assoc, copied_append_rest, rest_moveNext hend hnext]
  | case3 bytes r hlt hend ih =>
    have hle := r.length_copied_le chunkSize bytes.length
    obtain ⟨hrest, hlen, hfull⟩ := ih (by rw [List.length_append]; omega)
    refine ⟨?_, hlen, hfull⟩
    rw [hrest, List.append_assoc, copied_append_rest]
  | case4 bytes r hnot => exact ⟨rfl, h, .inl (Nat.le_antisymm h (Nat.le_of_not_lt hnot))⟩

theorem nextChunk_eq (chunkSize : ℕ) (r : ChunkReader) :
    (nextChunk chunkSize r).1 = r.rest.take chunkSize ∧ (nextChunk chunkSize r).2.rest = r.rest.drop chunkSize := by
  obtain ⟨hrest, hlen, hfull⟩ := @fill_spec chunkSize [] r (Nat.zero_le chunkSize)
  rw [List.nil_append] at hrest
  change (nextChunk chunkSize r).1 ++ (nextChunk chunkSize r).2.rest = r.rest at hrest
  rcases hfull with hfull | hempty
  · have hlength : (nextChunk chunkSize r).1.length = chunkSize := hfull
    rw [← hrest]
    exact ⟨(List.take_left' hlength).symm, (List.drop_left' hlength).symm⟩
  · have hnil : (nextChunk chunkSize r).2.rest = [] := hempty
    rw [hnil, List.append_nil] at hrest
    rw [hnil, ← hrest]
    exact ⟨(List.take_of_length_le hlen).symm, (List.drop_of_length_le hlen).symm⟩

/-! ## All chunks -/

section
variable {chunkSize : ℕ}

theorem chunks_of_rest_nil {r : ChunkReader} (h : r.rest = []) (n : ℕ) :
    chunks chunkSize n r = List.replicate n [] := by
  induction n generalizing r with
  | zero => rfl
  | succ n ih =>
    obtain ⟨hchunk, hrest⟩ := nextChunk_eq chunkSize r
    rw [h, List.take_nil] at hchunk
    rw [h, List.drop_nil] at hrest
    rw [chunks, hchunk, ih hrest, List.replicate_succ]

/-- The pieces of a list, of one size but for the last, which is shorter. -/
structure Pieces (chunkSize : ℕ) (total : List UInt8) (pieces : List (List UInt8)) : Prop where
  flatten : pieces.flatten = total
  full : ∀ c ∈ pieces.dropLast, c.length = chunkSize
  short : ∀ c ∈ pieces.getLast?, c.length < chunkSize

theorem Pieces.cons {total : List UInt8} {pieces : List (List UInt8)} (hle : chunkSize ≤ total.length)
    (h : Pieces chunkSize (total.drop chunkSize) pieces) (hne : pieces ≠ []) :
    Pieces chunkSize total (total.take chunkSize :: pieces) where
  flatten := by rw [List.flatten_cons, h.flatten, List.take_append_drop]
  full := by
    rw [List.dropLast_cons_of_ne_nil hne]
    intro c hc
    rcases List.mem_cons.1 hc with rfl | hc
    · rw [List.length_take, Nat.min_eq_left hle]
    · exact h.full c hc
  short := by
    rw [List.getLast?_cons_of_ne_nil hne]
    exact h.short

theorem chunks_pieces (h : 0 < chunkSize) : ∀ (n : ℕ) (r : ChunkReader), r.rest.length / chunkSize = n →
    Pieces chunkSize r.rest (chunks chunkSize (n + 1) r) ∧
      ∀ m, chunks chunkSize (n + 1 + m) r = chunks chunkSize (n + 1) r ++ List.replicate m []
  | 0, r, hn => by
    have hlt : r.rest.length < chunkSize := (Nat.div_eq_zero_iff_lt h).1 hn
    obtain ⟨hchunk, hrest⟩ := nextChunk_eq chunkSize r
    rw [List.take_of_length_le hlt.le] at hchunk
    rw [List.drop_of_length_le hlt.le] at hrest
    have hone : chunks chunkSize 1 r = [r.rest] := by rw [chunks, hchunk]; rfl
    refine ⟨?_, fun m => ?_⟩
    · rw [hone]
      exact ⟨List.flatten_singleton, fun c hc => (by cases hc), fun c hc => (by cases hc; exact hlt)⟩
    · rw [hone, Nat.zero_add, Nat.add_comm, chunks, hchunk, chunks_of_rest_nil hrest]
      rfl
  | n + 1, r, hn => by
    obtain ⟨hchunk, hrest⟩ := nextChunk_eq chunkSize r
    have hle : chunkSize ≤ r.rest.length := by
      by_contra hlt
      rw [Nat.div_eq_of_lt (Nat.lt_of_not_le hlt)] at hn
      cases hn
    have hcount : (nextChunk chunkSize r).2.rest.length / chunkSize = n := by
      rw [Nat.div_eq_sub_div h hle] at hn
      rw [hrest, List.length_drop]
      exact Nat.succ_injective hn
    obtain ⟨hpieces, hmore⟩ := chunks_pieces h n _ hcount
    rw [hrest] at hpieces
    refine ⟨?_, fun m => ?_⟩
    · rw [chunks, hchunk]
      exact hpieces.cons hle (List.cons_ne_nil _ _)
    · have hsum : n + 1 + 1 + m = n + 1 + m + 1 := by omega
      rw [hsum, chunks, hmore m, chunks]
      rfl

end

/-- **The chunks of a source are its bytes**, cut into pieces of one size but for the last, and behind them the reader
gives nothing more. -/
theorem nextChunk_pieces {chunkSize : ℕ} (h : 0 < chunkSize) (source : List (List UInt8)) :
    ∃ n, Pieces chunkSize source.flatten (chunks chunkSize n (ofSource source)) ∧
      ∀ m, chunks chunkSize (n + m) (ofSource source) =
        chunks chunkSize n (ofSource source) ++ List.replicate m [] :=
  ⟨_, chunks_pieces h _ (ofSource source) rfl⟩

theorem nextChunk_pieces_two : ∃ n, Pieces 2 [1, 2, 3, 4] (chunks 2 n (ofSource [[1], [], [2, 3, 4]])) ∧
    ∀ m, chunks 2 (n + m) (ofSource [[1], [], [2, 3, 4]]) =
      chunks 2 n (ofSource [[1], [], [2, 3, 4]]) ++ List.replicate m [] :=
  nextChunk_pieces (by decide) [[1], [], [2, 3, 4]]

end ChunkReader
end FileTransfer
end SecureChat
