import Mathlib.Data.List.Nodup
import Percolator.Document.Basic
import Percolator.Proofs.Token.Distinct

/-!
# Where tokens stand in a field

The tokens of a value have increasing positions: a tokenizer counts them, and filters only leave
some of them out. The values of a field are laid out one behind the other, with a gap between the
last position of one value and the first of the next. So the positions of a field increase as a
whole, and tokens of different values are at least the gap apart.

## Main definitions

* `InOrder` : the positions of tokens increase.
* `layOutEach`, `Document.valueTokens` : the tokens of a field, value by value.
* `Behind` : all tokens of one value stand the gap behind those of another.

## Main results

* `Document.tokens_eq_flatten` : the tokens of a field are those of its values.
* `Document.inOrder` : the positions of a field increase.
* `Document.pairwise_behind` : tokens of different values are the gap apart.
-/

namespace Percolator

/-- The positions of the tokens increase. -/
def InOrder (tokens : List Token) : Prop := tokens.Pairwise (·.position < ·.position)

/-! ### The tokens of a value -/

theorem Tokenizer.le_position_of_mem_tokensOf {text : Array Char} {position place offset : Nat}
    {pieces : List (Nat × Nat)} {t : Token} (h : t ∈ tokensOf text position place offset pieces) :
    position ≤ t.position := by
  induction pieces generalizing position place offset with
  | nil => exact absurd h List.not_mem_nil
  | cons piece rest ih =>
    rcases List.mem_cons.mp h with rfl | h
    · exact Nat.le_refl position
    · exact Nat.le_of_succ_le (ih h)

theorem Tokenizer.inOrder_tokensOf {text : Array Char} {position place offset : Nat}
    {pieces : List (Nat × Nat)} : InOrder (tokensOf text position place offset pieces) := by
  induction pieces generalizing position place offset with
  | nil => exact List.Pairwise.nil
  | cons piece rest ih =>
    exact List.pairwise_cons.mpr ⟨fun t ht => le_position_of_mem_tokensOf ht, ih⟩

theorem TokenFilter.inOrder_apply {filter : TokenFilter} {tokens : List Token}
    (h : InOrder tokens) : InOrder (filter.apply tokens) := by
  cases filter with
  | lowercase =>
    refine List.pairwise_map.mpr (h.imp fun {t u} hlt => ?_)
    -- Lower case leaves the place of a token as it is.
    have hposition : ∀ t : Token,
        (if t.stopped then t else t.withText (Unicode.lowercase t.text)).position = t.position :=
      fun t => by split <;> rfl
    rwa [hposition, hposition]
  | distinct => exact h.sublist DistinctStream.sublist_toList

/-- What every filter keeps is kept by filters that are applied one after the other. -/
theorem TokenFilter.applyAll_induction {P : List Token → Prop} {filters : List TokenFilter}
    {tokens : List Token}
    (hfilter : ∀ (filter : TokenFilter) (tokens : List Token), P tokens → P (filter.apply tokens))
    (h : P tokens) : P (applyAll filters tokens) := by
  induction filters generalizing tokens with
  | nil => exact h
  | cons filter rest ih => exact ih (hfilter filter tokens h)

theorem Analyzer.inOrder_tokens (a : Analyzer) (text : String) : InOrder (a.tokens text) :=
  TokenFilter.applyAll_induction (fun _ _ => TokenFilter.inOrder_apply) Tokenizer.inOrder_tokensOf

theorem FieldValue.inOrder_tokens (default : Analyzer) (v : FieldValue) :
    InOrder (v.tokens default) := by
  cases v with
  | text raw analyzer => exact Analyzer.inOrder_tokens _ _
  | keyword raw => exact List.pairwise_singleton _ _

theorem InOrder.map_shift {tokens : List Token} (h : InOrder tokens) (positions offsets : Nat) :
    InOrder (tokens.map (·.shift positions offsets)) :=
  List.pairwise_map.mpr (h.imp fun hlt => Nat.add_lt_add_right hlt positions)

/-- No token stands behind the last one. -/
theorem InOrder.position_le_getLast {tokens : List Token} (h : InOrder tokens) {t : Token}
    (ht : t ∈ tokens) (position : Nat) :
    t.position ≤ (tokens.getLast?.map (·.position)).getD position := by
  rcases List.eq_nil_or_concat tokens with rfl | ⟨front, last, rfl⟩
  · exact absurd ht List.not_mem_nil
  · rw [List.concat_eq_append] at h ht ⊢
    rw [List.getLast?_concat, Option.map_some, Option.getD_some]
    rcases List.mem_append.mp ht with ht | ht
    · exact Nat.le_of_lt ((List.pairwise_append.mp h).2.2 t ht last List.mem_cons_self)
    · exact Nat.le_of_eq (congrArg Token.position (List.mem_singleton.mp ht))

/-- A position has at most one token. -/
theorem InOrder.eq_of_position_eq {tokens : List Token} (h : InOrder tokens) {t u : Token}
    (ht : t ∈ tokens) (hu : u ∈ tokens) (heq : t.position = u.position) : t = u := by
  have hnodup : (tokens.map (·.position)).Nodup :=
    List.pairwise_map.mpr (h.imp fun hlt => Nat.ne_of_lt hlt)
  exact List.inj_on_of_nodup_map hnodup ht hu heq

theorem InOrder.exists_last {tokens : List Token} (h : InOrder tokens) (hne : tokens ≠ []) :
    ∃ last ∈ tokens, ∀ t ∈ tokens, t.position ≤ last.position := by
  refine ⟨tokens.getLast hne, List.getLast_mem hne, fun t ht => ?_⟩
  have hle := h.position_le_getLast ht 0
  rwa [List.getLast?_eq_some_getLast hne] at hle

/-! ### The values of a field -/

/-- Every token of the second value stands at least the gap behind every token of the first. -/
def Behind (tokens behind : List Token) : Prop :=
  ∀ t ∈ tokens, ∀ u ∈ behind, t.position + positionGap ≤ u.position

/-- The tokens of each value of a field, laid out from a position and an offset on. -/
def layOutEach (default : Analyzer) (position offset : Nat) : List FieldValue → List (List Token)
  | [] => []
  | v :: rest =>
    let tokens := (v.tokens default).map (·.shift position offset)
    let last := (tokens.getLast?.map (·.position)).getD position
    tokens :: layOutEach default (last + positionGap) (offset + v.raw.utf8ByteSize + 1) rest

section Layout

variable {default : Analyzer} {position offset : Nat} {vs : List FieldValue}

theorem layOut_eq_flatten :
    layOut default position offset vs = (layOutEach default position offset vs).flatten := by
  induction vs generalizing position offset with
  | nil => rfl
  | cons v rest ih => rw [layOut, layOutEach, List.flatten_cons, ih]

theorem inOrder_of_mem_layOutEach {tokens : List Token}
    (h : tokens ∈ layOutEach default position offset vs) : InOrder tokens := by
  induction vs generalizing position offset with
  | nil => exact absurd h List.not_mem_nil
  | cons v rest ih =>
    rcases List.mem_cons.mp h with rfl | h
    · exact (v.inOrder_tokens default).map_shift position offset
    · exact ih h

/-- The position at which the last token of a value stands, or that of the value if it has none, is
not in front of the value. -/
theorem le_getLast_map_shift {tokens : List Token} :
    position ≤
      ((tokens.map (·.shift position offset)).getLast?.map (·.position)).getD position := by
  rw [List.getLast?_map]
  cases tokens.getLast? with
  | none => exact Nat.le_refl position
  | some t => exact Nat.le_add_left position t.position

theorem le_position_of_mem_layOutEach {tokens : List Token}
    (h : tokens ∈ layOutEach default position offset vs) {t : Token} (ht : t ∈ tokens) :
    position ≤ t.position := by
  induction vs generalizing position offset with
  | nil => exact absurd h List.not_mem_nil
  | cons v rest ih =>
    rcases List.mem_cons.mp h with rfl | h
    · obtain ⟨u, -, rfl⟩ := List.mem_map.mp ht
      exact Nat.le_add_left position u.position
    · exact Nat.le_trans (Nat.le_trans le_getLast_map_shift (Nat.le_add_right _ positionGap)) (ih h)

/-- Values stand at least the gap behind the values before them. -/
theorem pairwise_behind_layOutEach : (layOutEach default position offset vs).Pairwise Behind := by
  induction vs generalizing position offset with
  | nil => exact List.Pairwise.nil
  | cons v rest ih =>
    refine List.pairwise_cons.mpr ⟨fun tokens htokens t ht u hu => ?_, ih⟩
    have hlast := ((v.inOrder_tokens default).map_shift position offset).position_le_getLast ht
      position
    exact Nat.le_trans (Nat.add_le_add_right hlast positionGap)
      (le_position_of_mem_layOutEach htokens hu)

end Layout

theorem inOrder_flatten {values : List (List Token)} (h : ∀ tokens ∈ values, InOrder tokens)
    (hbehind : values.Pairwise Behind) : InOrder values.flatten := by
  refine List.pairwise_flatten.mpr ⟨h, hbehind.imp fun {tokens behind} hgap t ht u hu => ?_⟩
  have hle := hgap t ht u hu
  rw [positionGap] at hle
  omega

namespace Document

/-- The tokens of each value of a field. -/
def valueTokens (default : Analyzer) (values : List (String × FieldValue)) (field : String) :
    List (List Token) :=
  layOutEach default 0 0 ((grouped values).getD field [])

variable {id : String} {default : Analyzer} {values : List (String × FieldValue)} {d : Document}

/-- The tokens of a field are those of its values, in order. -/
theorem tokens_eq_flatten (h : build id default values = .ok d) (field : String) :
    (d.index.field field).tokens = (valueTokens default values field).flatten := by
  simp only [build] at h
  split at h
  · simp only [reduceCtorEq] at h
  · obtain rfl := Except.ok.inj h
    simp only [DocumentIndex.field, Std.TreeMap.getD_map, valueTokens,
      Std.TreeMap.getD_eq_getD_getElem? (t := grouped values)]
    cases (grouped values)[field]? with
    | none => rfl
    | some vs => exact layOut_eq_flatten

/-- Tokens of different values are at least the gap apart. -/
theorem pairwise_behind (default : Analyzer) (values : List (String × FieldValue))
    (field : String) : (valueTokens default values field).Pairwise Behind :=
  pairwise_behind_layOutEach

/-- The positions of a field increase. -/
theorem inOrder (h : build id default values = .ok d) (field : String) :
    InOrder (d.index.field field).tokens := by
  rw [tokens_eq_flatten h]
  exact inOrder_flatten (fun _ => inOrder_of_mem_layOutEach) (pairwise_behind default values field)

end Document

end Percolator
