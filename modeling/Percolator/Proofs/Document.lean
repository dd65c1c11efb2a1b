import Percolator.Proofs.Document.Layout

/-!
# Tokens of documents

Tokenizers mark no token as removed, filters remove tokens for good, and a keyword is a token as it
stands. So no token of a document that was built is marked as removed.

## Main results

* `Document.not_stopped` : the tokens of a document that was built are not marked as removed.
-/

namespace Percolator

/-- No token is marked as removed. -/
def NoneStopped (tokens : List Token) : Prop := ∀ t ∈ tokens, t.stopped = false

theorem Tokenizer.noneStopped_tokensOf {text : Array Char} {position place offset : Nat}
    {pieces : List (Nat × Nat)} : NoneStopped (tokensOf text position place offset pieces) := by
  induction pieces generalizing position place offset with
  | nil => exact fun _ ht => absurd ht List.not_mem_nil
  | cons piece rest ih => exact List.forall_mem_cons.mpr ⟨rfl, ih⟩

theorem TokenFilter.noneStopped_apply {filter : TokenFilter} {tokens : List Token}
    (h : NoneStopped tokens) : NoneStopped (filter.apply tokens) := by
  cases filter with
  | lowercase =>
    intro t ht
    obtain ⟨u, hu, rfl⟩ := List.mem_map.mp ht
    split
    · exact h u hu
    · exact h u hu
  | distinct => exact fun t ht => (DistinctStream.mem_of_mem_toList ht).2

theorem Analyzer.noneStopped_tokens (a : Analyzer) (text : String) :
    NoneStopped (a.tokens text) :=
  TokenFilter.applyAll_induction (fun _ _ => TokenFilter.noneStopped_apply)
    Tokenizer.noneStopped_tokensOf

theorem FieldValue.noneStopped_tokens (default : Analyzer) (v : FieldValue) :
    NoneStopped (v.tokens default) := by
  cases v with
  | text raw analyzer => exact Analyzer.noneStopped_tokens _ _
  | keyword raw => exact fun t ht => by rw [List.mem_singleton.mp ht]

theorem noneStopped_layOut {default : Analyzer} {position offset : Nat} {vs : List FieldValue} :
    NoneStopped (layOut default position offset vs) := by
  induction vs generalizing position offset with
  | nil => exact fun _ ht => absurd ht List.not_mem_nil
  | cons v rest ih =>
    intro t ht
    rcases List.mem_append.mp ht with ht | ht
    · obtain ⟨u, hu, rfl⟩ := List.mem_map.mp ht
      exact v.noneStopped_tokens default u hu
    · exact ih t ht

namespace Document

variable {id : String} {default : Analyzer} {values : List (String × FieldValue)} {d : Document}

/-- No token of a document that was built is marked as removed. -/
theorem not_stopped (h : build id default values = .ok d) (field : String) :
    NoneStopped (d.index.field field).tokens := by
  simp only [build] at h
  split at h
  · simp only [reduceCtorEq] at h
  · obtain rfl := Except.ok.inj h
    simp only [DocumentIndex.field, Std.TreeMap.getD_map]
    cases (grouped values)[field]? with
    | none => exact fun _ ht => absurd ht List.not_mem_nil
    | some vs => exact noneStopped_layOut

end Document

namespace DocumentIndex

/-- A field with tokens has a name among those of the document. -/
theorem mem_fieldNames {d : DocumentIndex} {field : String} (h : (d.field field).tokens ≠ []) :
    field ∈ d.fieldNames := by
  rw [fieldNames, Std.TreeMap.mem_keys]
  refine Decidable.byContradiction fun hmem => h ?_
  rw [DocumentIndex.field, Std.TreeMap.getD_eq_fallback hmem]

end DocumentIndex

end Percolator
