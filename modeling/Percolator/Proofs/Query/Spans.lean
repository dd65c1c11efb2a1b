import Percolator.Proofs.Document.Lookup
import Percolator.Proofs.Presearch.Extraction
import Percolator.Proofs.Query.Phrase
import Percolator.Proofs.Query.Scores

/-!
# Every span is shown

The hit of a span is made from the tokens at its first and at its last position, and a span for
which one of them is not found is left out. But none is: an interval of a source begins where one
token of the field stands and ends where another one does, since the span of several parts has its
ends from among the parts, and so does a span of a phrase. These tokens are found, because positions
increase, and the first one does not begin behind the end of the other, because offsets do as well.
So a query for one field matches exactly if it has a hit.

## Main definitions

* `Interval.BetweenTokens` : an interval begins and ends with tokens of a field.
* `Hit.Shows` : a hit is that of an interval.

## Main results

* `IntervalSource.betweenTokens` : all intervals of a source begin and end with tokens.
* `Document.forall₂_shows` : such intervals have one hit each.
* `Document.spans_shown` : the hits of phrases, of intervals, and of all queries for one field.
-/

namespace Percolator

/-- The interval begins and ends with tokens of the field. -/
structure Interval.BetweenTokens (field : FieldIndex) (i : Interval) : Prop where
  first_le_last : i.first ≤ i.last
  exists_first : ∃ t ∈ field.tokens, t.position = i.first
  exists_last : ∃ t ∈ field.tokens, t.position = i.last

/-- Having tokens at both ends passes from intervals to their spans. -/
theorem IntervalSource.hereditary_betweenTokens (field : FieldIndex) :
    Hereditary field (Interval.BetweenTokens field) where
  first_le_last _ h := h.first_le_last
  point t ht := ⟨Nat.le_refl t.position, ⟨t, ht, rfl⟩, ⟨t, ht, rfl⟩⟩
  span span parts hspan hparts := by
    obtain ⟨i, hi, hfirst⟩ := hspan.exists_first
    obtain ⟨j, hj, hlast⟩ := hspan.exists_last
    refine ⟨?_, hfirst ▸ (hparts i hi).exists_first, hlast ▸ (hparts j hj).exists_last⟩
    exact hfirst ▸ Nat.le_trans (hparts i hi).first_le_last (hspan.le_last i hi)

theorem IntervalSource.betweenTokens {field : FieldIndex} (source : IntervalSource) :
    ∀ i ∈ source.intervals field, i.BetweenTokens field :=
  (hereditary_betweenTokens field).of_mem_intervals source

/-- The hit goes from the beginning of the token at the first position of the interval to the end of
the token at the last one. -/
structure Hit.Shows (d : DocumentIndex) (field : String) (i : Interval) (hit : Hit) : Prop where
  first_le_last : i.first ≤ i.last
  exists_tokens : ∃ t ∈ (d.field field).tokens, ∃ u ∈ (d.field field).tokens,
    t.position = i.first ∧ u.position = i.last ∧
      hit = ⟨field, i.first, i.last, t.startOffset, u.endOffset⟩
  start_le_end : hit.startOffset ≤ hit.endOffset

namespace Query

variable {d : DocumentIndex} {field : String}

theorem termHits_ne_nil_iff {term : String} :
    termHits d field term ≠ [] ↔ ∃ t ∈ (d.field field).tokens, t.text = term := by
  rw [termHits, ne_eq, List.map_eq_nil_iff]
  exact FieldIndex.occurrences_ne_nil_iff

/-- A term of the field has hits. -/
theorem termHits_ne_nil_of_mem {set : TermSet} {term : String} (h : term ∈ termsIn d field set) :
    termHits d field term ≠ [] := by
  rw [termsIn, DocumentIndex.matchingTerms, List.mem_filter, Std.TreeSet.mem_toList,
    FieldIndex.mem_terms_iff] at h
  exact termHits_ne_nil_iff.mpr h.1

theorem flatMap_termHits_ne_nil_iff {set : TermSet} :
    (termsIn d field set).flatMap (termHits d field) ≠ [] ↔ termsIn d field set ≠ [] := by
  refine ⟨fun h hnil => h (by rw [hnil, List.flatMap_nil]), fun h => ?_⟩
  obtain ⟨term, hterm⟩ := List.exists_mem_of_ne_nil _ h
  exact fun hnil => termHits_ne_nil_of_mem hterm (List.flatMap_eq_nil_iff.mp hnil term hterm)

end Query

namespace Document

variable {id : String} {default : Analyzer} {values : List (String × FieldValue)} {d : Document}
  {field : String} {is : List Interval}

/-- An interval between tokens has a hit, which shows it. -/
theorem exists_shows (h : build id default values = .ok d) {i : Interval}
    (hi : i.BetweenTokens (d.index.field field)) :
    ∃ hit, d.index.hit? field i.first i.last = some hit ∧ hit.Shows d.index field i := by
  obtain ⟨t, ht, hfirst⟩ := hi.exists_first
  obtain ⟨u, hu, hlast⟩ := hi.exists_last
  have hhit := DocumentIndex.hit?_eq_some (inOrder h field) ht hu
  rw [hfirst, hlast] at hhit
  refine ⟨_, hhit, hi.first_le_last, ⟨t, ht, u, hu, hfirst, hlast, rfl⟩, ?_⟩
  exact startOffset_le_endOffset h ht hu (hfirst ▸ hlast ▸ hi.first_le_last)

/-- Intervals between tokens have one hit each. -/
theorem forall₂_shows (h : build id default values = .ok d)
    (his : ∀ i ∈ is, i.BetweenTokens (d.index.field field)) :
    List.Forall₂ (fun i hit => hit.Shows d.index field i) is
      (is.filterMap fun i => d.index.hit? field i.first i.last) := by
  induction is with
  | nil => exact .nil
  | cons i rest ih =>
    obtain ⟨hi, hrest⟩ := List.forall_mem_cons.mp his
    obtain ⟨hit, hhit, hshows⟩ := exists_shows h hi
    rw [List.filterMap_cons_some (by exact hhit)]
    exact .cons hshows (ih hrest)

theorem interval_shown (h : build id default values = .ok d) (field : String)
    (source : IntervalSource) (boost : Float32) :
    ∃ hits, (Query.interval field source boost).hits d.index = .ok hits ∧
      List.Forall₂ (fun i hit => hit.Shows d.index field i)
        (source.intervals (d.index.field field)) hits :=
  ⟨_, rfl, forall₂_shows h source.betweenTokens⟩

/-- The spans of a phrase are shown as the intervals of its terms, in order, are. -/
theorem phrase_shown (h : build id default values = .ok d) (field : String) (terms : List String)
    (slop : Nat) (boost : Float32) :
    ∃ hits, (Query.phrase field terms slop boost).hits d.index = .ok hits ∧
      List.Forall₂ (fun i hit => hit.Shows d.index field i)
        ((Query.phraseSpans d.index field terms slop).map Interval.ofPair) hits := by
  obtain ⟨-, -, hhits⟩ := phrase_agrees_ordered h field terms slop boost
  rw [hhits, ← IntervalSource.intervals_ordered_terms (inOrder h field)]
  exact interval_shown h field _ boost

theorem isEmpty_eq_of_shows {hits : List Hit}
    (h : List.Forall₂ (fun i hit => hit.Shows d.index field i) is hits) :
    is.isEmpty = hits.isEmpty := by
  cases h with
  | nil => rfl
  | cons => rfl

/-- A query for one field matches if and only if it has a hit. -/
theorem holds_iff_hits (h : build id default values = .ok d) {q : Query} (hq : q.BuiltIn)
    (hfield : q.field? = some field) : ∃ matched hits, q.holds d.index = .ok matched ∧
      q.hits d.index = .ok hits ∧ (matched = true ↔ hits ≠ []) := by
  cases q with
  | all => simp only [Query.field?, reduceCtorEq] at hfield
  | term field text boost =>
    refine ⟨_, _, rfl, rfl, ?_⟩
    rw [Query.termHits, ne_eq, List.map_eq_nil_iff, Bool.not_eq_true', List.isEmpty_eq_false_iff]
  | phrase field terms slop boost =>
    obtain ⟨hits, hhits, hshows⟩ := phrase_shown h field terms slop boost
    refine ⟨_, _, rfl, hhits, ?_⟩
    rw [← List.isEmpty_map, isEmpty_eq_of_shows hshows, Bool.not_eq_true',
      List.isEmpty_eq_false_iff]
  | interval field source boost =>
    obtain ⟨hits, hhits, hshows⟩ := interval_shown h field source boost
    refine ⟨_, _, rfl, hhits, ?_⟩
    rw [isEmpty_eq_of_shows hshows, Bool.not_eq_true', List.isEmpty_eq_false_iff]
  | anyTerm field set boost =>
    refine ⟨_, _, rfl, rfl, ?_⟩
    rw [Query.flatMap_termHits_ne_nil_iff, Bool.not_eq_true', List.isEmpty_eq_false_iff]
  | boolean => simp only [Query.field?, reduceCtorEq] at hfield
  | custom c => exact absurd rfl (hq c)

/-- Every span of a phrase and every interval of a source is shown by one hit, and the queries for
one field match exactly if they have hits. -/
theorem spans_shown (h : build id default values = .ok d) (field : String) :
    (∀ terms slop boost, ∃ hits,
      (Query.phrase field terms slop boost).hits d.index = .ok hits ∧
        List.Forall₂ (fun i hit => hit.Shows d.index field i)
          ((Query.phraseSpans d.index field terms slop).map Interval.ofPair) hits) ∧
    (∀ source boost, ∃ hits, (Query.interval field source boost).hits d.index = .ok hits ∧
      List.Forall₂ (fun i hit => hit.Shows d.index field i)
        (source.intervals (d.index.field field)) hits) ∧
    ∀ q : Query, q.BuiltIn → q.field? = some field → ∃ matched hits,
      q.holds d.index = .ok matched ∧ q.hits d.index = .ok hits ∧ (matched = true ↔ hits ≠ []) :=
  ⟨phrase_shown h field, interval_shown h field, fun _ => holds_iff_hits h⟩

/-- Two values with a phrase that reaches from one to the other, and a nested source whose intervals
overlap. -/
theorem spans_shown_nested : ∃ d,
    build "d" (.pipeline ⟨" ", .literal [' '], true⟩ [])
      [("body", .text "a b a" none), ("body", .text "c" none)] = .ok d ∧
    let phrase := Query.phrase "body" ["a", "c"] 101 1
    let source := IntervalSource.unordered [.anyOf [.term "a", .term "c"], .term "b"] none
    phrase.hits d.index = .ok [⟨"body", 0, 102, 0, 7⟩, ⟨"body", 2, 102, 4, 7⟩] ∧
      source.intervals (d.index.field "body") = [⟨0, 1⟩, ⟨1, 2⟩] ∧
      (∃ hits, (Query.interval "body" source 1).hits d.index = .ok hits ∧
        List.Forall₂ (fun i hit => hit.Shows d.index "body" i)
          (source.intervals (d.index.field "body")) hits) ∧
      ∃ matched hits, phrase.holds d.index = .ok matched ∧ phrase.hits d.index = .ok hits ∧
        (matched = true ↔ hits ≠ []) := by
  have hd : build "d" (.pipeline ⟨" ", .literal [' '], true⟩ [])
      [("body", .text "a b a" none), ("body", .text "c" none)] = .ok _ := rfl
  obtain ⟨-, hintervals, hqueries⟩ := spans_shown hd "body"
  exact ⟨_, hd, by decide +kernel, by decide +kernel, hintervals _ 1, hqueries _ nofun rfl⟩

end Document

end Percolator
