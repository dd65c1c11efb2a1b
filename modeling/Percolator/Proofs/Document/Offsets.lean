import Percolator.Proofs.Document.Layout
import Percolator.Proofs.Pattern.Search

/-!
# Where the tokens of a field stand in its text

A tokenizer cuts pieces out of a text that stand one behind the other, and the offsets of a token
are the numbers of bytes in front of its piece and up to the end of it. Filters leave tokens at
their offsets, and the values of a field are laid out one behind the other. So the tokens of a
field stand from left to right by their offsets, as they do by their positions.

## Main definitions

* `Token.extent` : the offsets of a token, as a piece.
* `bytesTo` : the number of bytes in front of a place of a text.

## Main results

* `Tokenizer.leftToRight_pieces` : the pieces of a tokenizer stand one behind the other.
* `Tokenizer.tokensOf_eq` : the tokens of such pieces.
* `Tokenizer.standsIn_of_mem_tokens` : the text of a token is what stands at its offsets.
* `Document.leftToRight` : the tokens of a field stand one behind the other.
* `Document.startOffset_le_endOffset` : what follows for two tokens.
-/

namespace Percolator

/-- The offsets between which a token stands. -/
def Token.extent (t : Token) : Nat × Nat := (t.startOffset, t.endOffset)

/-- The number of bytes of the characters in front of a place. -/
def bytesTo (text : Array Char) (place : Nat) : Nat :=
  (String.ofList (text.extract 0 place).toList).utf8ByteSize

section Bytes

variable (text : Array Char) {i j : Nat}

theorem bytesTo_add_extract (hij : i ≤ j) :
    bytesTo text i + (String.ofList (text.extract i j).toList).utf8ByteSize = bytesTo text j := by
  rw [bytesTo, ← String.utf8ByteSize_append, ← String.ofList_append, ← Array.toList_append,
    Array.extract_append_extract, Nat.min_eq_left (Nat.zero_le i), Nat.max_eq_right hij, bytesTo]

theorem monotone_bytesTo : Monotone (bytesTo text) := fun _ _ hij =>
  bytesTo_add_extract text hij ▸ Nat.le_add_right _ _

/-- A piece stands in the text between the bytes in front of it and those up to its end. -/
theorem standsIn_extract (hij : i ≤ j) :
    StandsIn (String.ofList (text.extract i j).toList) (String.ofList text.toList)
      (bytesTo text i, bytesTo text j) := by
  refine ⟨String.ofList (text.extract 0 i).toList,
    String.ofList (text.extract j text.size).toList, ?_, ?_⟩
  · rw [← String.ofList_append, ← Array.toList_append, Array.extract_append_extract,
      Nat.min_eq_left (Nat.zero_le i), Nat.max_eq_right hij, ← String.ofList_append,
      ← Array.toList_append, Array.extract_append_extract, Nat.min_eq_left (Nat.zero_le j),
      Array.extract_eq_self_of_le (Nat.le_max_right j text.size)]
  · rw [String.utf8ByteSize_append]
    exact Prod.ext rfl (bytesTo_add_extract text hij).symm

/-- More characters take more bytes. -/
theorem bytesTo_lt_iff (hij : i ≤ j) (hj : j ≤ text.size) :
    bytesTo text i < bytesTo text j ↔ i < j := by
  rw [← bytesTo_add_extract text hij, Nat.lt_add_right_iff_pos, Nat.pos_iff_ne_zero, ne_eq,
    String.utf8ByteSize_eq_zero_iff, String.ofList_eq_empty_iff, Array.toList_eq_nil_iff,
    Array.extract_eq_empty_iff, Nat.min_eq_left hj]
  omega

theorem bytesTo_zero : bytesTo text 0 = 0 := by
  rw [bytesTo, Array.extract_zero]
  rfl

theorem bytesTo_size (text : String) :
    bytesTo text.toList.toArray text.toList.toArray.size = text.utf8ByteSize := by
  rw [bytesTo, Array.extract_size, List.toList_toArray, String.ofList_toList]

end Bytes

namespace Tokenizer

theorem leftToRight_piecesBetween {size last : Nat} {found : List (Nat × Nat)}
    (h : LeftToRight last size found) : LeftToRight last size (piecesBetween size last found) := by
  induction found generalizing last with
  | nil =>
    rw [piecesBetween]
    split
    · exact ⟨Nat.le_refl last, h, Nat.le_refl size⟩
    · exact h
  | cons piece rest ih =>
    obtain ⟨hlast, hpiece, hrest⟩ := h
    rw [piecesBetween]
    split
    · exact ⟨Nat.le_refl last, hlast, (ih hrest).mono hpiece⟩
    · exact (ih hrest).mono (Nat.le_trans hlast hpiece)

/-- The pieces that a tokenizer cuts out stand one behind the other in the text. -/
theorem leftToRight_pieces (t : Tokenizer) (text : Array Char) :
    LeftToRight 0 text.size (t.pieces text) := by
  rw [pieces]
  split
  · exact leftToRight_piecesBetween (t.expr.leftToRight_findAll text)
  · exact t.expr.leftToRight_findAll text

/-- The token of a piece of a text that is given with its position. -/
def tokenOf (text : Array Char) (piece : (Nat × Nat) × Nat) : Token where
  text := String.ofList (text.extract piece.1.1 piece.1.2).toList
  position := piece.2
  startOffset := bytesTo text piece.1.1
  endOffset := bytesTo text piece.1.2

/-- The tokens of pieces from left to right are those of the single pieces. -/
theorem tokensOf_eq {text : Array Char} {place : Nat} {pieces : List (Nat × Nat)}
    (position : Nat) (h : LeftToRight place text.size pieces) :
    tokensOf text position place (bytesTo text place) pieces =
      (pieces.zipIdx position).map (tokenOf text) := by
  induction pieces generalizing position place with
  | nil => rfl
  | cons piece rest ih =>
    obtain ⟨hplace, hpiece, hrest⟩ := h
    simp only [tokensOf, List.zipIdx_cons, List.map_cons, tokenOf, bytesTo_add_extract text hplace,
      bytesTo_add_extract text hpiece, ih _ hrest]

theorem map_extent_tokenOf (text : Array Char) (pieces : List (Nat × Nat)) (position : Nat) :
    ((pieces.zipIdx position).map (tokenOf text)).map Token.extent =
      pieces.map (Prod.map (bytesTo text) (bytesTo text)) := by
  have hextent : Token.extent ∘ tokenOf text =
      Prod.map (bytesTo text) (bytesTo text) ∘ Prod.fst := rfl
  rw [List.map_map, hextent, ← List.map_map, List.zipIdx_map_fst]

/-- The text of a token is what stands at its offsets. -/
theorem standsIn_of_mem_map_tokenOf {text : Array Char} {place position : Nat}
    {pieces : List (Nat × Nat)} (h : LeftToRight place text.size pieces) {t : Token}
    (ht : t ∈ (pieces.zipIdx position).map (tokenOf text)) :
    StandsIn t.text (String.ofList text.toList) t.extent := by
  obtain ⟨piece, hpiece, rfl⟩ := List.mem_map.mp ht
  exact standsIn_extract text (h.of_mem (List.fst_mem_of_mem_zipIdx hpiece)).2.1

theorem tokens_eq (t : Tokenizer) (text : String) :
    t.tokens text =
      (t.pieces text.toList.toArray).zipIdx.map (tokenOf text.toList.toArray) := by
  have htokens := tokensOf_eq 0 (t.leftToRight_pieces text.toList.toArray)
  rwa [bytesTo_zero] at htokens

/-- The tokens of a text stand one behind the other in it. -/
theorem leftToRight_tokens (t : Tokenizer) (text : String) :
    LeftToRight 0 text.utf8ByteSize ((t.tokens text).map Token.extent) := by
  have hpieces := (t.leftToRight_pieces text.toList.toArray).map
    (monotone_bytesTo text.toList.toArray)
  rwa [bytesTo_zero, bytesTo_size, ← map_extent_tokenOf _ _ 0, ← tokens_eq] at hpieces

theorem standsIn_of_mem_tokens {t : Tokenizer} {text : String} {u : Token}
    (hu : u ∈ t.tokens text) : StandsIn u.text text u.extent := by
  have hstands := standsIn_of_mem_map_tokenOf (t.leftToRight_pieces text.toList.toArray)
    (t.tokens_eq text ▸ hu)
  rwa [List.toList_toArray, String.ofList_toList] at hstands

end Tokenizer

/-- Filters leave the tokens that they keep at their offsets. -/
theorem TokenFilter.sublist_extent {filter : TokenFilter} {tokens : List Token} :
    ((filter.apply tokens).map Token.extent).Sublist (tokens.map Token.extent) := by
  cases filter with
  | lowercase =>
    have hextent : ((TokenFilter.lowercase.apply tokens).map Token.extent) =
        tokens.map Token.extent := by
      rw [apply, List.map_map]
      refine List.map_congr_left fun t _ => ?_
      rw [Function.comp_apply]
      split <;> rfl
    rw [hextent]
  | distinct => exact DistinctStream.sublist_toList.map Token.extent

theorem Analyzer.leftToRight_tokens (a : Analyzer) (text : String) :
    LeftToRight 0 text.utf8ByteSize ((a.tokens text).map Token.extent) :=
  TokenFilter.applyAll_induction
    (P := fun tokens => LeftToRight 0 text.utf8ByteSize (tokens.map Token.extent))
    (fun _ _ htokens => htokens.sublist TokenFilter.sublist_extent)
    (a.tokenizer.leftToRight_tokens text)

theorem FieldValue.leftToRight_tokens (default : Analyzer) (v : FieldValue) :
    LeftToRight 0 v.raw.utf8ByteSize ((v.tokens default).map Token.extent) := by
  cases v with
  | text raw analyzer => exact Analyzer.leftToRight_tokens _ raw
  | keyword raw => exact ⟨Nat.le_refl 0, Nat.zero_le _, Nat.le_refl _⟩

/-- Values that are laid out from an offset on stand one behind the other. -/
theorem leftToRight_layOut {default : Analyzer} {position offset : Nat} {vs : List FieldValue} :
    ∃ size, LeftToRight offset size ((layOut default position offset vs).map Token.extent) := by
  induction vs generalizing position offset with
  | nil => exact ⟨offset, Nat.le_refl offset⟩
  | cons v rest ih =>
    rw [layOut]
    obtain ⟨size, hrest⟩ := ih
    refine ⟨size, ?_⟩
    rw [List.map_append, List.map_map]
    have hvalue := (v.leftToRight_tokens default).map (f := (· + offset))
      fun _ _ hle => Nat.add_le_add_right hle offset
    rw [List.map_map, Nat.zero_add] at hvalue
    refine hvalue.append (hrest.mono ?_)
    omega

namespace Document

variable {id : String} {default : Analyzer} {values : List (String × FieldValue)} {d : Document}

/-- The tokens of a field stand one behind the other. -/
theorem leftToRight (h : build id default values = .ok d) (field : String) :
    ∃ size, LeftToRight 0 size ((d.index.field field).tokens.map Token.extent) := by
  rw [tokens_eq_flatten h, valueTokens, ← layOut_eq_flatten]
  exact leftToRight_layOut

/-- A token does not begin behind the end of one that has the same position or a later one. -/
theorem startOffset_le_endOffset (h : build id default values = .ok d) {field : String}
    {t u : Token} (ht : t ∈ (d.index.field field).tokens) (hu : u ∈ (d.index.field field).tokens)
    (hle : t.position ≤ u.position) : t.startOffset ≤ u.endOffset := by
  obtain ⟨size, hextents⟩ := leftToRight h field
  have hself : ∀ t ∈ (d.index.field field).tokens, t.startOffset ≤ t.endOffset := fun t ht =>
    (hextents.of_mem (List.mem_map_of_mem ht)).2.1
  have hpairs := (List.pairwise_map.mp hextents.pairwise).and (inOrder h field)
  refine List.Pairwise.forall_of_forall_of_flip
    (R := fun t u => t.position ≤ u.position → t.startOffset ≤ u.endOffset)
    (fun t ht _ => hself t ht) (hpairs.imp_of_mem fun {t u} ht hu hpair _ => ?_)
    (hpairs.imp fun {u t} hpair hle => ?_) ht hu hle
  · exact Nat.le_trans (hself t ht) (Nat.le_trans hpair.1 (hself u hu))
  · exact absurd hpair.2 (Nat.not_lt.mpr hle)

end Document

end Percolator
