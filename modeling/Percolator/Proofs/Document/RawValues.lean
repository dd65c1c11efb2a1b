import Percolator.Proofs.Document
import Percolator.Proofs.Document.Filling

/-!
# Tokens in the values of a field

A tokenizer cuts a token out of a value, with its offsets there. Filters leave the token at its
offsets, whatever they make of its text, and the layout of a field moves the offsets behind what
stands in front of the value. So in the values of a field, joined by one byte each, the offsets of a
token lead back to what was cut out for it.

## Main definitions

* `TokenFilter.onText` : what a filter makes of the text of a token.
* `FieldValue.CutOut` : a token was cut out of a value.
* `textBefore` : what stands in front of a value.

## Main results

* `Analyzer.exists_cut` : the token of an analyzer is one of its tokenizer with another text.
* `exists_of_mem_layOut` : the token of a field comes from one value.
* `Document.offsets_in_values` : the offsets of a token lead back to what was cut out for it.
-/

namespace Percolator

/-! ### What filters make of texts -/

namespace TokenFilter

/-- What a filter makes of the text of a token that it keeps. -/
def onText : TokenFilter → String → String
  | .lowercase => Unicode.lowercase
  | .distinct => id

/-- What filters that are applied one after the other make of the text of a token. -/
def onTextAll (filters : List TokenFilter) (text : String) : String :=
  filters.foldl (fun text filter => filter.onText text) text

variable {filter : TokenFilter} {filters : List TokenFilter} {tokens : List Token} {t : Token}

/-- A token behind a filter is a token in front of it with another text. -/
theorem exists_of_mem_apply (hstopped : NoneStopped tokens) (ht : t ∈ filter.apply tokens) :
    ∃ u ∈ tokens, t = u.withText (filter.onText u.text) := by
  cases filter with
  | lowercase =>
    obtain ⟨u, hu, rfl⟩ := List.mem_map.mp ht
    refine ⟨u, hu, ?_⟩
    rw [hstopped u hu, if_neg Bool.false_ne_true, onText]
  | distinct => exact ⟨t, (DistinctStream.mem_of_mem_toList ht).1, rfl⟩

theorem exists_of_mem_applyAll (hstopped : NoneStopped tokens) (ht : t ∈ applyAll filters tokens) :
    ∃ u ∈ tokens, t = u.withText (onTextAll filters u.text) := by
  induction filters generalizing tokens with
  | nil => exact ⟨t, ht, rfl⟩
  | cons filter rest ih =>
    obtain ⟨s, hs, rfl⟩ := ih (noneStopped_apply hstopped) ht
    obtain ⟨u, hu, rfl⟩ := exists_of_mem_apply hstopped hs
    exact ⟨u, hu, rfl⟩

theorem onTextAll_of_not_mem (h : .lowercase ∉ filters) (text : String) :
    onTextAll filters text = text := by
  induction filters with
  | nil => rfl
  | cons filter rest ih =>
    cases filter with
    | lowercase => exact absurd List.mem_cons_self h
    | distinct => exact ih fun hrest => h (List.mem_cons_of_mem _ hrest)

end TokenFilter

/-- The token of an analyzer is one that its tokenizer has cut out, with what the filters have made
of the text. -/
theorem Analyzer.exists_cut {a : Analyzer} {text : String} {t : Token} (ht : t ∈ a.tokens text) :
    ∃ cut ∈ a.tokenizer.tokens text, t = cut.withText (TokenFilter.onTextAll a.filters cut.text) :=
  TokenFilter.exists_of_mem_applyAll Tokenizer.noneStopped_tokensOf ht

/-! ### Single values -/

theorem Token.extent_shift (t : Token) (positions offsets : Nat) :
    (t.shift positions offsets).extent = (offsets + t.startOffset, offsets + t.endOffset) :=
  Prod.ext (Nat.add_comm _ _) (Nat.add_comm _ _)

/-- The piece was cut out of the value for the token, where the value begins at an offset. Its text
is the piece if no filter writes in lower case, and the standard analyzer writes it in lower case. A
keyword is not cut. -/
def FieldValue.CutOut (default : Analyzer) (offset : Nat) (piece : String) (t : Token) :
    FieldValue → Prop
  | .text raw analyzer =>
    (∃ cut ∈ (analyzer.getD default).tokenizer.tokens raw, cut.text = piece ∧
      t.extent = (offset + cut.startOffset, offset + cut.endOffset)) ∧
    (.lowercase ∉ (analyzer.getD default).filters → t.text = piece) ∧
    (analyzer.getD default = .standard → t.text = Unicode.lowercase piece)
  | .keyword raw =>
    t.text = raw ∧ piece = raw ∧ t.extent = (offset, offset + raw.utf8ByteSize)

/-- Every token of a value was cut out of it, at its offsets, wherever the value is laid out. -/
theorem FieldValue.exists_cutOut {default : Analyzer} {v : FieldValue} {t : Token}
    (ht : t ∈ v.tokens default) (position offset : Nat) :
    ∃ piece, StandsIn piece v.raw t.extent ∧
      v.CutOut default offset piece (t.shift position offset) := by
  cases v with
  | text raw analyzer =>
    obtain ⟨cut, hcut, rfl⟩ := Analyzer.exists_cut ht
    refine ⟨cut.text, Tokenizer.standsIn_of_mem_tokens hcut,
      ⟨cut, hcut, rfl, Token.extent_shift _ _ _⟩, fun hnone => ?_, fun hstandard => ?_⟩
    · exact TokenFilter.onTextAll_of_not_mem hnone cut.text
    · rw [hstandard]
      rfl
  | keyword raw =>
    obtain rfl := List.mem_singleton.mp ht
    exact ⟨raw, .self raw, rfl, rfl, Token.extent_shift _ _ _⟩

/-! ### The values of a field -/

/-- The values in front of a value, each with a separator behind it. -/
def textBefore (separator : String) (front : List FieldValue) : String :=
  String.join (front.map fun v => v.raw ++ separator)

variable {separator : String} {default : Analyzer}

/-- Joined values begin with the first one. -/
theorem exists_intercalate_cons (separator text : String) (rest : List String) :
    ∃ back, separator.intercalate (text :: rest) = text ++ back := by
  cases rest with
  | nil => exact ⟨"", by rw [String.intercalate_singleton, String.append_empty]⟩
  | cons second rest =>
    refine ⟨separator ++ separator.intercalate (second :: rest), ?_⟩
    rw [String.intercalate_cons_of_ne_nil (List.cons_ne_nil second rest), String.append_assoc]

/-- A token of values that are laid out from an offset on is a token of one value, moved behind what
stands in front of the value. -/
theorem exists_of_mem_layOut {position offset : Nat} {vs : List FieldValue} {t : Token}
    (hseparator : separator.utf8ByteSize = 1) (ht : t ∈ layOut default position offset vs) :
    ∃ front v behind back, vs = front ++ v :: behind ∧
      separator.intercalate (vs.map FieldValue.raw) = textBefore separator front ++ v.raw ++ back ∧
      ∃ u ∈ v.tokens default, ∃ positions,
        t = u.shift positions (offset + (textBefore separator front).utf8ByteSize) := by
  induction vs generalizing position offset with
  | nil => exact absurd ht List.not_mem_nil
  | cons v rest ih =>
    rcases List.mem_append.mp ht with ht | ht
    · obtain ⟨u, hu, rfl⟩ := List.mem_map.mp ht
      obtain ⟨back, hback⟩ := exists_intercalate_cons separator v.raw (rest.map FieldValue.raw)
      exact ⟨[], v, rest, back, rfl, by rw [List.map_cons, hback]; rfl, u, hu, position, rfl⟩
    · -- The other values are laid out from one byte behind this one on, the one of the separator.
      obtain ⟨front, w, behind, back, rfl, hjoined, u, hu, positions, rfl⟩ := ih ht
      have hbefore : textBefore separator (v :: front) =
          v.raw ++ separator ++ textBefore separator front := String.join_cons
      refine ⟨v :: front, w, behind, back, rfl, ?_, u, hu, positions, ?_⟩
      · rw [List.map_cons, String.intercalate_cons_of_ne_nil, hjoined, hbefore]
        · simp only [String.append_assoc]
        · simp only [List.map_append, List.map_cons, ne_eq, List.append_eq_nil_iff, reduceCtorEq,
            and_false, not_false_eq_true]
      · rw [hbefore, String.utf8ByteSize_append, String.utf8ByteSize_append, hseparator]
        simp only [Nat.add_assoc]

namespace Document

variable {id : String} {values : List (String × FieldValue)} {d : Document}

/-- The values of a field are those that the calls gave. -/
theorem fieldValues_eq (h : build id default values = .ok d) (field : String) :
    d.fieldValues field = (valuesFor field values).map FieldValue.raw := by
  simp only [build] at h
  split at h
  · simp only [reduceCtorEq] at h
  · obtain rfl := Except.ok.inj h
    simp only [fieldValues, Std.TreeMap.getD_map, ← getD_grouped,
      Std.TreeMap.getD_eq_getD_getElem? (t := grouped values)]
    cases (grouped values)[field]? with
    | none => rfl
    | some vs => rfl

/-- In the values of a field, joined by one byte each, a token stands within one value, between
boundaries of characters, and what stands between its offsets was cut out of the value for it. -/
theorem offsets_in_values (h : build id default values = .ok d) (field : String)
    (hseparator : separator.utf8ByteSize = 1) {t : Token}
    (ht : t ∈ (d.index.field field).tokens) :
    ∃ front v behind piece,
      let text := separator.intercalate (d.fieldValues field)
      let start := (textBefore separator front).utf8ByteSize
      let stop := start + v.raw.utf8ByteSize
      valuesFor field values = front ++ v :: behind ∧
        d.fieldValues field = (front ++ v :: behind).map FieldValue.raw ∧
        StandsIn v.raw text (start, stop) ∧ StandsIn piece text t.extent ∧
        start ≤ t.startOffset ∧ t.startOffset ≤ t.endOffset ∧ t.endOffset ≤ stop ∧
        v.CutOut default start piece t := by
  rw [tokens_eq_flatten h, valueTokens, ← layOut_eq_flatten, getD_grouped] at ht
  obtain ⟨front, v, behind, back, hvalues, htext, u, hu, positions, rfl⟩ :=
    exists_of_mem_layOut hseparator ht
  rw [Nat.zero_add]
  set start := (textBefore separator front).utf8ByteSize
  obtain ⟨piece, hpiece, hcut⟩ := FieldValue.exists_cutOut hu positions start
  refine ⟨front, v, behind, piece, hvalues, ?_, ?_, ?_, ?_, ?_, ?_, hcut⟩
  · rw [fieldValues_eq h, hvalues]
  · rw [fieldValues_eq h, htext]
    exact (StandsIn.self v.raw).within (textBefore separator front) back
  · rw [fieldValues_eq h, htext, Token.extent_shift]
    exact hpiece.within (textBefore separator front) back
  · exact Nat.le_add_left start u.startOffset
  · exact Nat.add_le_add_right hpiece.le start
  · obtain ⟨-, -, hle⟩ := (v.leftToRight_tokens default).of_mem (List.mem_map_of_mem hu)
    exact (Nat.add_le_add_right hle start).trans_eq (Nat.add_comm _ _)

/-- A value whose first letter takes two bytes and stands in it twice, one without tokens, and one
that is not cut. -/
def accented : List (String × FieldValue) := [
  ("body", .text "É b É" none), ("lang", .keyword "fr"), ("body", .text "" none),
  ("body", .keyword "É d")]

theorem offsets_in_values_accented : ∃ d t,
    build "d" (.pipeline ⟨" ", .literal [' '], true⟩ [.distinct]) accented = .ok d ∧
    t ∈ (d.index.field "body").tokens ∧ t.extent = (9, 13) ∧
    ∃ front v behind piece,
      let text := "|".intercalate (d.fieldValues "body")
      let start := (textBefore "|" front).utf8ByteSize
      let stop := start + v.raw.utf8ByteSize
      valuesFor "body" accented = front ++ v :: behind ∧
        d.fieldValues "body" = (front ++ v :: behind).map FieldValue.raw ∧
        StandsIn v.raw text (start, stop) ∧ StandsIn piece text t.extent ∧
        start ≤ t.startOffset ∧ t.startOffset ≤ t.endOffset ∧ t.endOffset ≤ stop ∧
        v.CutOut (.pipeline ⟨" ", .literal [' '], true⟩ [.distinct]) start piece t := by
  have hd : build "d" (.pipeline ⟨" ", .literal [' '], true⟩ [.distinct]) accented = .ok _ := rfl
  refine ⟨_, { text := "É d", position := 201, startOffset := 9, endOffset := 13 }, hd,
    by decide +kernel, rfl, ?_⟩
  exact offsets_in_values hd "body" (by decide +kernel) (by decide +kernel)

end Document

end Percolator
