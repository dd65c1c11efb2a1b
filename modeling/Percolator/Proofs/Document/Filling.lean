import Percolator.Proofs.Document.Lookup

/-!
# Filling a document call by call

The values of a document are given by one call each, in any order of the fields, and a field may get
several values. The index of the document is defined from the values of each field, taken together.
It can as well be filled call by call: beside the tokens of each field and a table of the tokens of
each text, it is then kept where the next value of the field begins. A call changes nothing of the
other fields, so that a field comes to be what its own calls make of it, and this is what the index
of the document has.

## Main definitions

* `FieldDraft` : a field while it is filled.
* `Document.fill` : the fields that calls fill, one call after the other.
* `Document.valuesFor` : the values that the calls give for one field.

## Main results

* `Document.getD_fill` : a field is filled by its own calls.
* `Document.tokens_fill` : what is filled call by call are the tokens of the document.
* `FieldDraft.Posted.addValue` : a call leaves the table right.
* `Document.index_of_calls` : what the index of a field is for given calls.
-/

namespace Percolator

/-- In a table that a fold fills under keys, a key has the fold over what has that key. -/
theorem getD_foldl_insert {α β : Type} (key : α → String) (step : β → α → β) (init : β)
    (l : List α) (table : Std.TreeMap String β) (k : String) :
    (l.foldl (fun table a => table.insert (key a) (step (table.getD (key a) init) a))
      table).getD k init = (l.filter (key · = k)).foldl step (table.getD k init) := by
  induction l generalizing table with
  | nil => rfl
  | cons a rest ih =>
    simp only [List.foldl_cons, ih, Std.TreeMap.getD_insert, Std.LawfulEqCmp.compare_eq_iff_eq]
    by_cases hkey : key a = k
    · rw [if_pos hkey, List.filter_cons_of_pos (by rwa [decide_eq_true_iff]), List.foldl_cons, hkey]
    · rw [if_neg hkey, List.filter_cons_of_neg (by rwa [decide_eq_true_iff])]

/-- A field while it is filled. -/
structure FieldDraft where
  tokens : List Token := []
  /-- The tokens of each text. -/
  postings : Std.TreeMap String (List Token) := ∅
  /-- The position at which the next value begins. -/
  position : Nat := 0
  /-- The offset at which the next value begins. -/
  offset : Nat := 0

namespace FieldDraft

/-- The field with one more token. -/
def addToken (f : FieldDraft) (t : Token) : FieldDraft :=
  { f with
    tokens := f.tokens ++ [t]
    postings := f.postings.insert t.text (f.postings.getD t.text [] ++ [t]) }

/-- The field with one more value. -/
def addValue (default : Analyzer) (f : FieldDraft) (v : FieldValue) : FieldDraft :=
  let tokens := (v.tokens default).map (·.shift f.position f.offset)
  let last := (tokens.getLast?.map (·.position)).getD f.position
  { tokens.foldl addToken f with
    position := last + positionGap
    offset := f.offset + v.raw.utf8ByteSize + 1 }

variable {default : Analyzer} {f : FieldDraft} {tokens : List Token} {vs : List FieldValue}

theorem tokens_foldl_addToken : (tokens.foldl addToken f).tokens = f.tokens ++ tokens := by
  induction tokens generalizing f with
  | nil => exact (List.append_nil _).symm
  | cons t rest ih => rw [List.foldl_cons, ih, addToken, List.append_assoc, List.singleton_append]

/-- Values that are added one after the other are laid out behind what there was. -/
theorem tokens_foldl_addValue : (vs.foldl (addValue default) f).tokens =
    f.tokens ++ layOut default f.position f.offset vs := by
  induction vs generalizing f with
  | nil => exact (List.append_nil _).symm
  | cons v rest ih =>
    rw [List.foldl_cons, ih, layOut, addValue, tokens_foldl_addToken, List.append_assoc]

/-- The table has the tokens of each text, in the order of the field, and no other texts. -/
structure Posted (f : FieldDraft) : Prop where
  getD_eq : ∀ text, f.postings.getD text [] = f.tokens.filter (·.text == text)
  mem_iff : ∀ text, text ∈ f.postings ↔ ∃ t ∈ f.tokens, t.text = text

theorem Posted.empty : ({} : FieldDraft).Posted where
  getD_eq _ := Std.TreeMap.getD_emptyc
  mem_iff text := by
    simp only [Std.TreeMap.not_mem_emptyc, List.not_mem_nil, false_and, exists_false]

theorem Posted.addToken (h : f.Posted) (t : Token) : (f.addToken t).Posted where
  getD_eq text := by
    simp only [FieldDraft.addToken, List.filter_append, Std.TreeMap.getD_insert,
      Std.LawfulEqCmp.compare_eq_iff_eq]
    by_cases htext : t.text = text
    · rw [if_pos htext, htext, h.getD_eq, List.filter_cons_of_pos (by rwa [beq_iff_eq]),
        List.filter_nil]
    · rw [if_neg htext, h.getD_eq, List.filter_cons_of_neg (by rwa [beq_iff_eq]), List.filter_nil,
        List.append_nil]
  mem_iff text := by
    simp only [FieldDraft.addToken, Std.TreeMap.mem_insert, Std.LawfulEqCmp.compare_eq_iff_eq,
      h.mem_iff, List.mem_append, List.mem_singleton, or_and_right, exists_or, exists_eq_left]
    exact or_comm

theorem Posted.foldl_addToken (h : f.Posted) : (tokens.foldl FieldDraft.addToken f).Posted := by
  induction tokens generalizing f with
  | nil => exact h
  | cons t rest ih => exact ih (h.addToken t)

/-- The table is right behind a value if it was in front of it. -/
theorem Posted.addValue (h : f.Posted) (v : FieldValue) :
    (FieldDraft.addValue default f v).Posted :=
  ⟨(h.foldl_addToken).getD_eq, (h.foldl_addToken).mem_iff⟩

theorem Posted.foldl_addValue (h : f.Posted) :
    (vs.foldl (FieldDraft.addValue default) f).Posted := by
  induction vs generalizing f with
  | nil => exact h
  | cons v rest ih => exact ih (h.addValue v)

end FieldDraft

/-- The tokens are those of the value, moved to a later position and offset. -/
def FieldValue.LaidOut (default : Analyzer) (v : FieldValue) (tokens : List Token) : Prop :=
  ∃ position offset, tokens = (v.tokens default).map (·.shift position offset)

theorem forall₂_layOutEach {default : Analyzer} {position offset : Nat} {vs : List FieldValue} :
    List.Forall₂ (FieldValue.LaidOut default) vs (layOutEach default position offset vs) := by
  induction vs generalizing position offset with
  | nil => exact .nil
  | cons v rest ih => exact .cons ⟨position, offset, rfl⟩ ih

namespace Document

/-- The values that calls give for a field, in the order of the calls. -/
def valuesFor (field : String) (values : List (String × FieldValue)) : List FieldValue :=
  (values.filter (·.1 = field)).map (·.2)

/-- The fields that calls fill, one call after the other. -/
def fill (default : Analyzer) (values : List (String × FieldValue)) :
    Std.TreeMap String FieldDraft :=
  values.foldl (fun fields (field, v) =>
    fields.insert field (FieldDraft.addValue default (fields.getD field {}) v)) ∅

variable {id : String} {default : Analyzer} {values : List (String × FieldValue)} {d : Document}

/-- A field is filled by its own calls, however those for other fields stand between them. -/
theorem getD_fill (default : Analyzer) (values : List (String × FieldValue)) (field : String) :
    (fill default values).getD field {} =
      (valuesFor field values).foldl (FieldDraft.addValue default) {} := by
  rw [valuesFor, List.foldl_map]
  exact getD_foldl_insert Prod.fst (fun f call => FieldDraft.addValue default f call.2) {} values ∅
    field

theorem getD_grouped (values : List (String × FieldValue)) (field : String) :
    (grouped values).getD field [] = valuesFor field values := by
  have hfold := getD_foldl_insert Prod.fst (fun vs call => vs ++ [call.2]) [] values ∅ field
  rw [List.foldl_append_eq_append, ← List.flatMap_def, ← List.map_eq_flatMap] at hfold
  exact hfold

/-- Filling call by call comes to the tokens that the document has. -/
theorem tokens_fill (h : build id default values = .ok d) (field : String) :
    ((fill default values).getD field {}).tokens = (d.index.field field).tokens := by
  rw [getD_fill, FieldDraft.tokens_foldl_addValue, tokens_eq_flatten h, valueTokens,
    ← layOut_eq_flatten, getD_grouped, List.nil_append]

theorem posted_fill (default : Analyzer) (values : List (String × FieldValue)) (field : String) :
    ((fill default values).getD field {}).Posted := by
  rw [getD_fill]
  exact FieldDraft.Posted.empty.foldl_addValue

/-- A field of a document depends on the calls for this field alone. -/
theorem field_eq_of_valuesFor_eq {id' : String} {values' : List (String × FieldValue)}
    {d' : Document} (h : build id default values = .ok d) (h' : build id' default values' = .ok d')
    {field : String} (heq : valuesFor field values' = valuesFor field values) :
    d'.index.field field = d.index.field field := by
  have htokens : (d'.index.field field).tokens = (d.index.field field).tokens := by
    rw [← tokens_fill h, ← tokens_fill h', getD_fill, getD_fill, heq]
  exact congrArg FieldIndex.mk htokens

/-- The index of a field, for all calls that give values to the fields of a document. Filling the
document call by call comes to the same tokens, and to a table of what occurs of each text. -/
theorem index_of_calls (h : build id default values = .ok d) (field : String) :
    let f := d.index.field field
    let filled := (fill default values).getD field {}
    filled.tokens = f.tokens ∧ InOrder f.tokens ∧
      (∃ each, List.Forall₂ (FieldValue.LaidOut default) (valuesFor field values) each ∧
        f.tokens = each.flatten ∧ each.Pairwise Behind) ∧
      (∀ text, filled.postings.getD text [] = f.occurrences text ∧
        (text ∈ filled.postings ↔ ∃ t ∈ f.tokens, t.text = text) ∧
        (∀ t, t ∈ f.occurrences text ↔ t ∈ f.tokens ∧ t.text = text) ∧
        InOrder (f.occurrences text)) ∧
      (∀ position t, f.tokenAt? position = some t ↔ t ∈ f.tokens ∧ t.position = position) ∧
      ∀ id' values' d', build id' default values' = .ok d' →
        valuesFor field values' = valuesFor field values → d'.index.field field = f := by
  intro f filled
  have htokens : filled.tokens = f.tokens := tokens_fill h field
  have hposted : filled.Posted := posted_fill default values field
  have horder : InOrder f.tokens := inOrder h field
  refine ⟨htokens, horder, ⟨valueTokens default values field, ?_, tokens_eq_flatten h field,
    pairwise_behind default values field⟩, fun text => ⟨?_, ?_, fun t => ?_, ?_⟩,
    fun position t => FieldIndex.tokenAt?_eq_some_iff horder,
    fun id' values' d' h' heq => field_eq_of_valuesFor_eq h h' heq⟩
  · rw [valueTokens, getD_grouped]
    exact forall₂_layOutEach
  · rw [hposted.getD_eq, htokens, FieldIndex.occurrences]
  · rw [hposted.mem_iff, htokens]
  · rw [FieldIndex.occurrences, List.mem_filter, beq_iff_eq]
  · exact horder.sublist List.filter_sublist

/-- Calls for two fields in turn: the second value of the first field has no tokens, and a filter
leaves out the last token of the first one. -/
def inTurn : List (String × FieldValue) := [
  ("body", .text "a b a" none), ("lang", .keyword "en"), ("body", .text "" none),
  ("lang", .keyword "de"), ("body", .text "b" none)]

theorem index_of_calls_inTurn : ∃ d,
    build "d" (.pipeline ⟨" ", .literal [' '], true⟩ [.distinct]) inTurn = .ok d ∧
    (d.index.field "body").tokens = [
      { text := "a", position := 0, startOffset := 0, endOffset := 1 },
      { text := "b", position := 1, startOffset := 2, endOffset := 3 },
      { text := "b", position := 201, startOffset := 7, endOffset := 8 }] ∧
    InOrder (d.index.field "body").tokens ∧
    (∀ position t, (d.index.field "body").tokenAt? position = some t ↔
      t ∈ (d.index.field "body").tokens ∧ t.position = position) ∧
    ∀ id' values' d',
      build id' (.pipeline ⟨" ", .literal [' '], true⟩ [.distinct]) values' = .ok d' →
        valuesFor "body" values' = valuesFor "body" inTurn →
          d'.index.field "body" = d.index.field "body" := by
  have hd : build "d" (.pipeline ⟨" ", .literal [' '], true⟩ [.distinct]) inTurn = .ok _ := rfl
  obtain ⟨-, horder, -, -, hat, halone⟩ := index_of_calls hd "body"
  exact ⟨_, hd, by decide +kernel, horder, hat, halone⟩

end Document

end Percolator
