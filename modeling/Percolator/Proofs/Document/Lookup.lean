import Percolator.Proofs.Document.Offsets

/-!
# Finding the token at a position

The token at a position is searched by halving the tokens of a field. Their positions increase, so
the half that is kept is the one that has the token, and the token is found if there is one. A
hit, which needs the tokens at both of its ends, is made from any two positions that have tokens.

## Main results

* `FieldIndex.tokenAt?_eq_some_iff` : the tokens that are found.
* `DocumentIndex.hit?_eq_some` : the hit between two tokens of a field.
-/

namespace Percolator

/-- Tokens in order are in the order of their positions. -/
theorem InOrder.position_le_iff {tokens : List Token} (h : InOrder tokens) {i j : Nat} {t u : Token}
    (ht : tokens[i]? = some t) (hu : tokens[j]? = some u) : t.position ≤ u.position ↔ i ≤ j := by
  obtain ⟨hi, rfl⟩ := List.getElem?_eq_some_iff.mp ht
  obtain ⟨hj, rfl⟩ := List.getElem?_eq_some_iff.mp hu
  have hlt := List.pairwise_iff_getElem.mp h
  refine ⟨fun hle => Nat.le_of_not_lt fun hji => Nat.not_lt.mpr hle (hlt j i hj hi hji), ?_⟩
  intro hle
  rcases Nat.lt_or_eq_of_le hle with hij | rfl
  · exact Nat.le_of_lt (hlt i j hi hj hij)
  · exact Nat.le_refl _

namespace FieldIndex

variable {f : FieldIndex} {tokens : List Token} {k middle start size : Nat} {t : Token}

/-- The position in the middle tells on which side of it a token stands. -/
theorem any_position_le_iff (h : InOrder tokens) (ht : tokens[k]? = some t) :
    (tokens.toArray[middle]?).any (·.position ≤ t.position) = true ↔ middle ≤ k := by
  simp only [List.getElem?_toArray, Option.any_eq_true, decide_eq_true_iff]
  refine ⟨?_, fun hle => ?_⟩
  · rintro ⟨u, hu, hposition⟩
    exact (h.position_le_iff hu ht).mp hposition
  · obtain ⟨hlt, -⟩ := List.getElem?_eq_some_iff.mp ht
    have hmiddle := List.getElem?_eq_getElem (Nat.lt_of_le_of_lt hle hlt)
    exact ⟨_, hmiddle, (h.position_le_iff hmiddle ht).mpr hle⟩

/-- Halving a stretch of tokens in order comes to the token that has the position. -/
theorem narrow_eq (h : InOrder tokens) (ht : tokens[k]? = some t) (hstart : start ≤ k)
    (hend : k < start + size) : narrow tokens.toArray t.position start size = k := by
  fun_induction narrow tokens.toArray t.position start size with
  | case1 start size hsize => omega
  | case2 start size hsize middle next ih =>
    have hnext : next = if middle ≤ k then middle else start :=
      ite_congr (propext (any_position_le_iff h ht)) (fun _ => rfl) (fun _ => rfl)
    -- The half that is kept has the token.
    have hkept : next ≤ k ∧ k < next + (size - size / 2) := by
      rw [hnext]
      split
      · omega
      · omega
    exact ih hkept.1 hkept.2

/-- A token is found at a position if and only if it is the one that stands there. -/
theorem tokenAt?_eq_some_iff (h : InOrder f.tokens) {position : Nat} :
    f.tokenAt? position = some t ↔ t ∈ f.tokens ∧ t.position = position := by
  simp only [tokenAt?, List.getElem?_toArray, List.size_toArray, Option.filter_eq_some_iff,
    beq_iff_eq]
  refine and_congr_left fun hposition => ⟨List.mem_of_getElem?, fun ht => ?_⟩
  obtain ⟨k, hk⟩ := List.mem_iff_getElem?.mp ht
  obtain ⟨hlt, -⟩ := List.getElem?_eq_some_iff.mp hk
  rw [← hposition, narrow_eq h hk (Nat.zero_le k) (by rwa [Nat.zero_add]), hk]

end FieldIndex

/-- Two tokens of a field make a hit. -/
theorem DocumentIndex.hit?_eq_some {d : DocumentIndex} {field : String} {t u : Token}
    (h : InOrder (d.field field).tokens) (ht : t ∈ (d.field field).tokens)
    (hu : u ∈ (d.field field).tokens) : d.hit? field t.position u.position =
      some ⟨field, t.position, u.position, t.startOffset, u.endOffset⟩ := by
  have hfirst := (FieldIndex.tokenAt?_eq_some_iff h).mpr ⟨ht, rfl⟩
  have hlast := (FieldIndex.tokenAt?_eq_some_iff h).mpr ⟨hu, rfl⟩
  simp only [hit?, hfirst, hlast, bind, Option.bind_some]

end Percolator
