import Percolator.Proofs.Monitor.Matching

/-!
# Tokens that are marked as removed

An analyzer may leave tokens in a document that a filter marked as removed. Selections take no
notice of them: the selection of a document is that of the document without them. Queries do: a
term query matches a document in which all tokens with its text are marked as removed, and then the
query is no candidate.

## Main definitions

* `Document.unstopped` : the document without the tokens that are marked as removed.

## Main results

* `Presearch.selection_unstopped` : a document has the selection of the document without them.
* `Monitor.Reachable.selected_of_holds_unstopped` : what matches without them is a candidate.
* `Presearch.selects_term_iff` : a selection has the key of a term query if the query matches by a
  token that is not marked.
-/

namespace Percolator

open Std

namespace DocumentIndex

variable {d : DocumentIndex} {field text : String}

/-- The index without the tokens that are marked as removed. Fields stay, if only without tokens. -/
def unstopped (d : DocumentIndex) : DocumentIndex :=
  ⟨d.fields.map fun _ f => ⟨f.tokens.filter (!·.stopped)⟩⟩

theorem tokens_unstopped :
    (d.unstopped.field field).tokens = (d.field field).tokens.filter (!·.stopped) := by
  simp only [DocumentIndex.field, unstopped, TreeMap.getD_map]
  rw [TreeMap.getD_eq_getD_getElem?]
  cases d.fields[field]? <;> rfl

@[simp] theorem fieldNames_unstopped : d.unstopped.fieldNames = d.fieldNames := by
  simp only [fieldNames, unstopped, TreeMap.keys_map]

theorem noneStopped_unstopped : NoneStopped (d.unstopped.field field).tokens := by
  intro token htoken
  rw [tokens_unstopped, List.mem_filter, Bool.not_eq_true'] at htoken
  exact htoken.2

theorem mem_occurrences_iff {token : Token} : token ∈ (d.field field).occurrences text ↔
    token ∈ (d.field field).tokens ∧ token.text = text := by
  rw [FieldIndex.occurrences, List.mem_filter, beq_iff_eq]

end DocumentIndex

namespace Query

variable {d : DocumentIndex} {field text : String} {boost : Float32}

theorem holds_term_iff : (Query.term field text boost).holds d = .ok true ↔
    ∃ token ∈ (d.field field).tokens, token.text = text := by
  rw [holds, Except.ok.injEq, Bool.not_eq_true', List.isEmpty_eq_false_iff,
    FieldIndex.occurrences_ne_nil_iff]

/-- The keys of a selection of terms, none of which is negated. -/
private theorem clausePairs_map_term {keys : List (String × String)} :
    clausePairs (keys.map fun (field, text) => (Occur.should, .term field text 1)) = keys := by
  induction keys with
  | nil => rfl
  | cons key rest ih =>
    rw [List.map_cons, clausePairs, if_neg (by decide), ih]
    rfl

end Query

/-- The document without the tokens that are marked as removed. -/
def Document.unstopped (d : Document) : Document := { d with index := d.index.unstopped }

/-! ### Selections -/

namespace Presearch

variable {p : Presearch} {d : Document} {field text : String} {boost : Float32}

private theorem visibleTexts_unstopped : p.visibleTexts d.unstopped = p.visibleTexts d := by
  funext field
  have hstream : DistinctStream.toList { input := p.visibleTokens d.unstopped field } =
      DistinctStream.toList { input := p.visibleTokens d field } := by
    rw [visibleTokens, visibleTokens]
    split
    · rfl
    · rw [Document.unstopped, DocumentIndex.tokens_unstopped, DistinctStream.toList_filter]
  rw [visibleTexts, hstream, visibleTexts]

/-- A document has the selection of the document without the tokens that are marked as removed. -/
theorem selection_unstopped : p.selection d.unstopped = p.selection d := by
  have hkeys : p.fieldKeys d.unstopped = p.fieldKeys d := by
    funext field
    rw [fieldKeys, visibleTexts_unstopped, fieldKeys]
  have hnames : d.unstopped.index.fieldNames = d.index.fieldNames :=
    DocumentIndex.fieldNames_unstopped
  simp only [selection, documentKeys_eq, hkeys, hnames]
  rfl

/-- Apart from the key that every document has and the keys of parts, a document shows the key of a
term query if the query matches the document by a token that is not marked as removed. -/
theorem shows_iff_holds (hfield : ¬p.Hides field)
    (hany : (field, text) ≠ (p.settings.anyField, p.settings.anyText))
    (hpart : ∀ name ∈ d.index.fieldNames, p.partField name ≠ field) :
    p.Shows d field text ↔ (Query.term field text boost).holds d.index = .ok true ∧
      ∃ token ∈ (d.index.field field).occurrences text, token.stopped = false := by
  simp only [Query.holds_term_iff, DocumentIndex.mem_occurrences_iff]
  constructor
  · intro hshows
    cases hshows with
    | any => exact absurd rfl hany
    | token _ htoken hstopped => exact ⟨⟨_, htoken, rfl⟩, _, ⟨htoken, rfl⟩, hstopped⟩
    | part _ htoken =>
      exact absurd rfl (hpart _ (DocumentIndex.mem_fieldNames (List.ne_nil_of_mem htoken)))
  · rintro ⟨-, token, ⟨htoken, rfl⟩, hstopped⟩
    exact .token hfield htoken hstopped

section NoComponents

variable (h : p.components = [])
include h

theorem not_hides : ¬p.Hides field := by
  intro hhides
  rw [Hides, h] at hhides
  exact List.not_mem_nil hhides

private theorem selectedPairs_selectionOf {pairs : List (String × String)} :
    (p.selectionOf d pairs).selectedPairs = pairs := by
  simp only [selectionOf, h, List.foldl_nil, Query.selectedPairs]
  exact Query.clausePairs_map_term

/-- Without components, there is a selection with the key of a term query if and only if the limit
on parts fits and the query matches the document by a token that is not marked as removed. -/
theorem selects_term_iff (hany : (field, text) ≠ (p.settings.anyField, p.settings.anyText))
    (hpart : ∀ name ∈ d.index.fieldNames, p.partField name ≠ field) :
    (∃ q, p.selection d = .ok q ∧ (field, text) ∈ q.selectedPairs) ↔
      p.Fits d ∧ (Query.term field text boost).holds d.index = .ok true ∧
        ∃ token ∈ (d.index.field field).occurrences text, token.stopped = false := by
  have hshows := @shows_iff_holds p d field text boost (not_hides h) hany hpart
  constructor
  · rintro ⟨q, hq, hmem⟩
    obtain ⟨hfits, pairs, -, rfl, hpairs⟩ := exists_pairs_of_selection hq
    rw [selectedPairs_selectionOf h, hpairs] at hmem
    exact ⟨hfits, hshows.mp hmem⟩
  · rintro ⟨hfits, hholds⟩
    obtain ⟨q, hq⟩ := exists_selection hfits
    obtain ⟨-, pairs, -, rfl, hpairs⟩ := exists_pairs_of_selection hq
    refine ⟨_, hq, ?_⟩
    rw [selectedPairs_selectionOf h, hpairs]
    exact hshows.mpr hholds

end NoComponents

end Presearch

/-! ### Candidates -/

/-- A text of two words, the first of which a filter marked as removed. -/
def Document.theRust : Document where
  id := "d"
  values := ∅
  index := DocumentIndex.add {} "body" [
    { text := "the", position := 0, endOffset := 3, stopped := true },
    { text := "rust", position := 1, startOffset := 4, endOffset := 8 }]

namespace Presearch

private theorem partField_ne_body : ∀ name ∈ Document.theRust.index.fieldNames,
    ({} : Presearch).partField name ≠ "body" := by
  intro name hname
  have hbody : name = "body" := List.mem_singleton.mp hname
  rw [hbody]
  decide

/-- The selection of a text has the key of the word that stayed. -/
theorem selects_term_rust : ({} : Presearch).components = [] ∧
    ("body", "rust") ≠ (({} : Presearch).settings.anyField, ({} : Presearch).settings.anyText) ∧
    (∀ name ∈ Document.theRust.index.fieldNames, ({} : Presearch).partField name ≠ "body") ∧
    ((∃ q, ({} : Presearch).selection .theRust = .ok q ∧ ("body", "rust") ∈ q.selectedPairs) ↔
      ({} : Presearch).Fits .theRust ∧
        (Query.term "body" "rust" 1).holds Document.theRust.index = .ok true ∧
        ∃ token ∈ (Document.theRust.index.field "body").occurrences "rust",
          token.stopped = false) :=
  ⟨rfl, by decide, partField_ne_body, selects_term_iff rfl (by decide) partField_ne_body⟩

end Presearch

namespace Monitor

variable {p : Presearch} {settings : MonitorSettings} {m : Monitor} {d : Document}

theorem selected_unstopped : m.selected d.unstopped = m.selected d := by
  rw [selected, Presearch.selection_unstopped, selected]

/-- A query that matches a document without the tokens that are marked as removed, and agrees with
all filters, is a candidate, if no key term of it is hidden. -/
theorem Reachable.selected_of_holds_unstopped (hm : Reachable p settings m) (hp : p.Built)
    (hfits : p.Fits d) {id : String} {e : StoreEntry} (he : m.store.get? id = some e)
    (hplain : ∀ t ∈ e.terms, ¬p.Hides t.field)
    (hregexp : e.query.query.EachRegexp Regexp.Faithful)
    (hagrees : ∀ field, p.Hides field → Component.Agrees d field e.query.metadata)
    (h : e.query.query.holds d.index.unstopped = .ok true) :
    ∃ entries, m.selected d = .ok entries ∧ e ∈ entries := by
  have hfits' : p.Fits d.unstopped := by
    intro field hfield token htoken
    rw [Document.unstopped, DocumentIndex.tokens_unstopped] at htoken
    exact hfits field hfield token (List.mem_filter.mp htoken).1
  have hcandidate := hm.selected_of_holds hp hfits'
    (fun _ => DocumentIndex.noneStopped_unstopped) he hplain hregexp hagrees h
  rwa [selected_unstopped] at hcandidate

/-- A query for a word that a filter marked as removed matches the text, but the selection of the
text does not have its key, and the query is no candidate. -/
theorem Reachable.not_selected_of_stopped : ∃ m e, Reachable {} {} m ∧
    m.store.get? "q" = some e ∧ e.query.query = .term "body" "the" 1 ∧
    e.query.query.holds Document.theRust.index = .ok true ∧
    ("body", "the") ≠ (m.presearch.settings.anyField, m.presearch.settings.anyText) ∧
    (∀ name ∈ Document.theRust.index.fieldNames, m.presearch.partField name ≠ "body") ∧
    (∃ q, m.presearch.selection .theRust = .ok q ∧ ("body", "the") ∉ q.selectedPairs) ∧
    m.selected .theRust = .ok [] := by
  have hm : Reachable {} {} _ := .register .start
    (rfl : Monitor.register {} { id := "q", query := .term "body" "the" 1 } = .ok _)
  refine ⟨_, _, hm, rfl, rfl, rfl, by decide, Presearch.partField_ne_body, ⟨_, rfl, ?_⟩, rfl⟩
  decide

end Monitor

end Percolator
