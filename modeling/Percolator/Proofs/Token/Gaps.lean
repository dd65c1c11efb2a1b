import Percolator.Proofs.Document.Offsets

/-!
# Tokens of gaps

A tokenizer that cuts out gaps goes through the matches of its pattern. All that it needs to know of
them is that they stand one behind the other; they may be empty, touch each other, and stand at the
ends of the text. Then the tokens are the stretches that the matches leave out, but for the empty
ones, and tokens and matches together cover the bytes of the text.

## Main definitions

* `Tokenizer.gapTokens` : the tokens of the gaps between matches.
* `Tokenizer.inBytes` : pieces of a text by their offsets.

## Main results

* `Tokenizer.map_extent_gapTokens` : the tokens are the stretches between matches.
* `Tokenizer.gapTokens_partition` : tokens and matches cover the text, each byte once.
-/

namespace Percolator.Tokenizer

variable {text : String} {found : List (Nat × Nat)}

/-- The pieces between matches are the stretches that the matches leave out, but for the empty
ones. -/
theorem piecesBetween_eq (size place : Nat) (found : List (Nat × Nat)) :
    piecesBetween size place found = (stretches place size found).filter hasPlace := by
  induction found generalizing place with
  | nil =>
    rw [piecesBetween, stretches_nil]
    by_cases h : place < size
    · rw [if_pos h, List.filter_cons_of_pos (hasPlace_iff.mpr h), List.filter_nil]
    · rw [if_neg h, List.filter_cons_of_neg fun hplace => h (hasPlace_iff.mp hplace),
        List.filter_nil]
  | cons piece rest ih =>
    rw [piecesBetween, stretches_cons, ih]
    by_cases h : place < piece.1
    · rw [if_pos h, List.filter_cons_of_pos (hasPlace_iff.mpr h)]
    · rw [if_neg h, List.filter_cons_of_neg fun hplace => h (hasPlace_iff.mp hplace)]

/-- The tokens of the gaps that matches leave in a text. -/
def gapTokens (text : String) (found : List (Nat × Nat)) : List Token :=
  tokensOf text.toList.toArray 0 0 0 (piecesBetween text.length 0 found)

/-- Pieces of a text by their offsets, which are counted in bytes. -/
def inBytes (text : String) (pieces : List (Nat × Nat)) : List (Nat × Nat) :=
  pieces.map (Prod.map (bytesTo text.toList.toArray) (bytesTo text.toList.toArray))

theorem size_toArray (text : String) : text.toList.toArray.size = text.length := by
  rw [List.size_toArray, String.length_toList]

theorem leftToRight_inBytes (h : LeftToRight 0 text.length found) :
    LeftToRight 0 text.utf8ByteSize (inBytes text found) := by
  have hbytes := h.map (monotone_bytesTo text.toList.toArray)
  rwa [bytesTo_zero, ← size_toArray, bytesTo_size] at hbytes

theorem inBytes_stretches : inBytes text (stretches 0 text.length found) =
    stretches 0 text.utf8ByteSize (inBytes text found) := by
  rw [inBytes, map_stretches, bytesTo_zero, ← size_toArray, bytesTo_size]
  rfl

/-- A piece is empty if and only if it has no bytes. -/
theorem filter_inBytes {pieces : List (Nat × Nat)}
    (h : ∀ piece ∈ pieces, piece.1 ≤ piece.2 ∧ piece.2 ≤ text.length) :
    (inBytes text pieces).filter hasPlace = inBytes text (pieces.filter hasPlace) := by
  rw [inBytes, List.filter_map]
  refine congrArg (inBytes text) (List.filter_congr fun piece hpiece => ?_)
  obtain ⟨hle, hsize⟩ := h piece hpiece
  rw [Bool.eq_iff_iff, Function.comp_apply, hasPlace_iff, hasPlace_iff]
  exact bytesTo_lt_iff _ hle (size_toArray text ▸ hsize)

theorem leftToRight_pieces_toArray (h : LeftToRight 0 text.length found) :
    LeftToRight 0 text.toList.toArray.size ((stretches 0 text.length found).filter hasPlace) := by
  rw [size_toArray, ← piecesBetween_eq]
  exact leftToRight_piecesBetween h

theorem gapTokens_eq (h : LeftToRight 0 text.length found) : gapTokens text found =
    ((stretches 0 text.length found).filter hasPlace).zipIdx.map (tokenOf text.toList.toArray) := by
  have htokens := tokensOf_eq 0 (leftToRight_pieces_toArray h)
  rw [bytesTo_zero] at htokens
  rw [gapTokens, piecesBetween_eq, htokens]

/-- The tokens stand where the stretches are that the matches leave out, but for the empty ones. -/
theorem map_extent_gapTokens (h : LeftToRight 0 text.length found) :
    (gapTokens text found).map Token.extent =
      (stretches 0 text.utf8ByteSize (inBytes text found)).filter hasPlace := by
  rw [← inBytes_stretches, filter_inBytes fun _ hstretch => h.of_mem_stretches hstretch,
    gapTokens_eq h, map_extent_tokenOf, inBytes]

theorem map_position_gapTokens (h : LeftToRight 0 text.length found) :
    (gapTokens text found).map (·.position) = List.range (gapTokens text found).length := by
  rw [gapTokens_eq h, List.map_map, List.length_map, List.length_zipIdx, List.range_eq_range',
    ← List.zipIdx_map_snd]
  rfl

/-- The text of a token is what stands at its offsets. -/
theorem standsIn_of_mem_gapTokens (h : LeftToRight 0 text.length found) {t : Token}
    (ht : t ∈ gapTokens text found) : StandsIn t.text text t.extent := by
  have hstands := standsIn_of_mem_map_tokenOf (leftToRight_pieces_toArray h) (gapTokens_eq h ▸ ht)
  rwa [List.toList_toArray, String.ofList_toList] at hstands

/-- Whatever the matches are, as long as they stand one behind the other: the tokens of the gaps are
the stretches of the text that the matches leave out, but for the empty ones, each with its place
among them and with the text at its offsets. Tokens and matches follow each other through the whole
text, and every byte lies in one of them. The matches of every pattern are of this kind. -/
theorem gapTokens_partition (h : LeftToRight 0 text.length found) :
    let tokens := gapTokens text found
    let pieces := tokens.map Token.extent ++ inBytes text found
    tokens.map Token.extent =
        (stretches 0 text.utf8ByteSize (inBytes text found)).filter hasPlace ∧
      tokens.map (·.position) = List.range tokens.length ∧
      (∀ t ∈ tokens, StandsIn t.text text t.extent) ∧
      (∃ tiles, tiles.Perm pieces ∧ Tiles 0 text.utf8ByteSize tiles) ∧
      (∀ k < text.utf8ByteSize, pieces.countP (covers k) = 1) ∧
      ∀ t : Tokenizer, t.gaps = true →
        LeftToRight 0 text.length (t.expr.findAll text.toList.toArray) ∧
          t.tokens text = gapTokens text (t.expr.findAll text.toList.toArray) := by
  intro tokens pieces
  obtain ⟨tiles, hperm, htiles⟩ := (leftToRight_inBytes h).exists_tiles
  rw [← map_extent_gapTokens h] at hperm
  refine ⟨map_extent_gapTokens h, map_position_gapTokens h,
    fun t ht => standsIn_of_mem_gapTokens h ht, ⟨tiles, hperm, htiles⟩, fun k hk => ?_,
    fun t hgaps => ⟨?_, ?_⟩⟩
  · rw [← hperm.countP_eq, htiles.countP_eq_one (Nat.zero_le k) hk]
  · rw [← size_toArray]
    exact t.expr.leftToRight_findAll _
  · rw [Tokenizer.tokens, Tokenizer.pieces, if_pos hgaps, size_toArray, gapTokens]

/-- Matches at both ends of a text, some of them empty and two that touch each other. -/
def touching : List (Nat × Nat) := [(0, 0), (2, 2), (3, 4), (4, 5), (6, 7)]

/-- The first token has two characters and three bytes. -/
theorem gapTokens_partition_touching : LeftToRight 0 "éab,,c;".length touching ∧
    gapTokens "éab,,c;" touching = [
      { text := "éa", position := 0, startOffset := 0, endOffset := 3 },
      { text := "b", position := 1, startOffset := 3, endOffset := 4 },
      { text := "c", position := 2, startOffset := 6, endOffset := 7 }] ∧
    (stretches 0 8 (inBytes "éab,,c;" touching)).filter hasPlace = [(0, 3), (3, 4), (6, 7)] ∧
    ∀ k < 8, ([(0, 3), (3, 4), (6, 7)] ++ inBytes "éab,,c;" touching).countP (covers k) = 1 := by
  have h : LeftToRight 0 "éab,,c;".length touching := by
    simp only [touching, LeftToRight]
    decide
  have htokens : gapTokens "éab,,c;" touching = [
      { text := "éa", position := 0, startOffset := 0, endOffset := 3 },
      { text := "b", position := 1, startOffset := 3, endOffset := 4 },
      { text := "c", position := 2, startOffset := 6, endOffset := 7 }] := by
    decide +kernel
  obtain ⟨hextents, -, -, -, hcovers, -⟩ := gapTokens_partition h
  rw [htokens] at hextents hcovers
  exact ⟨h, htokens, hextents.symm, hcovers⟩

end Percolator.Tokenizer
