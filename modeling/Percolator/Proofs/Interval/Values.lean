import Percolator.Proofs.Interval.Covered
import Percolator.Proofs.Query.Phrase

/-!
# Spans and the values of a field

The tokens of different values of a field are at least the gap apart, so that a span that begins in
one value and ends in another leaves all positions between the two uncovered. A limit below that
number keeps spans within one value, as long as the positions that overlapping parts make the limit
admit besides are few enough. A limit that is as large, or none, does not: then phrases and
intervals reach from one value to the next.

## Main definitions

* `Interval.WithinOneOf` : an interval begins and ends in one and the same value.
* `IntervalSource.Confined` : the limits of a source are small enough.

## Main results

* `Document.spans_within_values` : spans of phrases and intervals that stay within one value.
* `IntervalSource.confined_unordered_terms` : unordered different terms, which do not overlap.
* `Document.spans_across_values` : spans that do not stay within one value.
-/

namespace Percolator

variable {values : List (List Token)}

namespace Interval

variable {i span : Interval} {parts : List Interval}

/-- The interval begins and ends with tokens of one and the same value. -/
def WithinOneOf (values : List (List Token)) (i : Interval) : Prop :=
  ∃ tokens ∈ values, (∃ t ∈ tokens, t.position = i.first) ∧ ∃ t ∈ tokens, t.position = i.last

instance (values : List (List Token)) (i : Interval) : Decidable (i.WithinOneOf values) :=
  inferInstanceAs (Decidable (∃ tokens ∈ values, _))

/-- One of the parts stands at least the gap between values behind another one. -/
def FarApart (parts : List Interval) : Prop :=
  ∃ i ∈ parts, ∃ j ∈ parts, i.last + positionGap ≤ j.first

/-- Of two values that are not the same, one stands behind the other. -/
theorem eq_or_behind (hbehind : values.Pairwise Behind) {tokens others : List Token}
    (htokens : tokens ∈ values) (hothers : others ∈ values) :
    tokens = others ∨ Behind tokens others ∨ Behind others tokens := by
  induction hbehind with
  | nil => exact absurd htokens List.not_mem_nil
  | cons hhead _ ih =>
    rcases List.mem_cons.mp htokens with rfl | htail
    · rcases List.mem_cons.mp hothers with rfl | htail
      · exact .inl rfl
      · exact .inr (.inl (hhead others htail))
    · rcases List.mem_cons.mp hothers with rfl | hrest
      · exact .inr (.inr (hhead tokens htail))
      · exact ih htail hrest

/-- A span of parts that each stay within a value stays within one as well, or it leaves the gap
between two values uncovered. -/
theorem Spans.withinOneOf_or (hspans : span.Spans parts)
    (hforward : ∀ i ∈ parts, i.first ≤ i.last) (hbehind : values.Pairwise Behind)
    (horder : ∀ tokens ∈ values, InOrder tokens) (hparts : ∀ i ∈ parts, i.WithinOneOf values) :
    span.WithinOneOf values ∨ FarApart parts ∧ positionGap ≤ uncovered span parts + 1 := by
  obtain ⟨front, hfront, hfirst⟩ := hspans.exists_first
  obtain ⟨tokens, htokens, ⟨t, ht, htfirst⟩, ⟨u, hu, hulast⟩⟩ := hparts front hfront
  obtain ⟨last, hlast, hle⟩ := (horder tokens htokens).exists_last (List.ne_nil_of_mem ht)
  -- A part is in the value in which the span begins, or behind that value and the gap.
  have hside : ∀ i ∈ parts, (∃ v ∈ tokens, v.position = i.last) ∨
      last.position + positionGap ≤ i.first := by
    intro i hi
    obtain ⟨others, hothers, ⟨v, hv, hvfirst⟩, hilast⟩ := hparts i hi
    rcases eq_or_behind hbehind htokens hothers with rfl | h | h
    · exact .inl hilast
    · exact .inr (hvfirst ▸ h last hlast v hv)
    · have hgap := h v hv t ht
      have hspan := hspans.first_le i hi
      rw [positionGap] at hgap
      omega
  obtain ⟨back, hback, hbacklast⟩ := hspans.exists_last
  rcases hside back hback with ⟨v, hv, hvlast⟩ | hgap
  · exact .inl ⟨tokens, htokens, ⟨t, ht, htfirst.trans hfirst⟩, v, hv, hvlast.trans hbacklast⟩
  · have hfrontlast := hle u hu
    refine .inr ⟨⟨front, hfront, back, hback, by omega⟩, ?_⟩
    have hhole : Finset.Ioo last.position (last.position + positionGap) ⊆
        span.positions \ covered parts := by
      intro p hp
      obtain ⟨hp₁, hp₂⟩ := Finset.mem_Ioo.mp hp
      have hspan := hspans.first_le front hfront
      have hfirstlast := hle t ht
      have hbackforward := hforward back hback
      refine Finset.mem_sdiff.mpr ⟨mem_positions.mpr ⟨by omega, by omega⟩, fun hcovered => ?_⟩
      obtain ⟨i, hi, hpi⟩ := mem_covered.mp hcovered
      obtain ⟨hpi₁, hpi₂⟩ := mem_positions.mp hpi
      rcases hside i hi with ⟨v, hv, hvlast⟩ | hgap
      · have hvle := hle v hv
        omega
      · omega
    have hcard := Finset.card_le_card hhole
    rw [Nat.card_Ioo] at hcard
    rw [uncovered]
    omega

end Interval

namespace IntervalSource

mutual

/-- The limits of the source keep its intervals within single values. A limit of an unordered
source has to leave room for the positions that it admits because parts overlap, if there are parts
in different values. -/
def Confined (field : FieldIndex) : IntervalSource → Prop
  | .term _ => True
  | .ordered sources maxGaps => ConfinedEach field sources ∧
    (sources.length ≤ 1 ∨ ∃ gaps, maxGaps = some gaps ∧ gaps + 1 < positionGap)
  | .unordered sources maxGaps => ConfinedEach field sources ∧
    ∀ parts, OneOfEach (intervalsOfEach field sources) parts → Interval.FarApart parts →
      ∃ gaps, maxGaps = some gaps ∧ gaps + Interval.overlap parts + 1 < positionGap
  | .anyOf sources => ConfinedEach field sources
  | .without source _ => Confined field source

/-- The limits of each source keep its intervals within single values. -/
def ConfinedEach (field : FieldIndex) : List IntervalSource → Prop
  | [] => True
  | source :: rest => Confined field source ∧ ConfinedEach field rest

end

variable {field : FieldIndex} {maxGaps : Option Nat} {sources : List IntervalSource}

theorem OneOfEach.first_le_last {parts : List Interval}
    (h : OneOfEach (intervalsOfEach field sources) parts) : ∀ i ∈ parts, i.first ≤ i.last :=
  h.forall_mem first_le_last_of_mem_each

/-- Parts of which none stands far behind another one are too few or too near to leave a value. -/
theorem not_farApart_of_length_le_one {parts : List Interval}
    (hforward : ∀ i ∈ parts, i.first ≤ i.last) (h : parts.length ≤ 1) :
    ¬Interval.FarApart parts := by
  rintro ⟨i, hi, j, hj, hgap⟩
  obtain ⟨k, rfl⟩ := List.length_eq_one_iff.mp
    (Nat.le_antisymm h (List.length_pos_of_mem hi))
  obtain rfl := List.mem_singleton.mp hi
  obtain rfl := List.mem_singleton.mp hj
  have hj := hforward j List.mem_cons_self
  rw [positionGap] at hgap
  omega

section Values

variable (hbehind : values.Pairwise Behind) (horder : ∀ tokens ∈ values, InOrder tokens)

include hbehind horder

theorem withinOneOf_ordered
    (hsources : ∀ list ∈ intervalsOfEach field sources, ∀ i ∈ list, i.WithinOneOf values)
    (hgaps : sources.length ≤ 1 ∨ ∃ gaps, maxGaps = some gaps ∧ gaps + 1 < positionGap) :
    ∀ i ∈ (ordered sources maxGaps).intervals field, i.WithinOneOf values := by
  intro span hspan
  obtain ⟨parts, hone, hpairwise, hspans, hwithin⟩ := exists_parts_of_mem_ordered hspan
  have hparts : ∀ i ∈ parts, i.WithinOneOf values := hone.forall_mem hsources
  rcases hspans.withinOneOf_or hone.first_le_last hbehind horder hparts with h | ⟨hfar, huncovered⟩
  · exact h
  · rcases hgaps with hlength | ⟨gaps, rfl, hgaps⟩
    · have hone_length : parts.length ≤ 1 := by
        rw [← List.Forall₂.length_eq hone, intervalsOfEach_eq_map, List.length_map]
        exact hlength
      exact absurd hfar (not_farApart_of_length_le_one hone.first_le_last hone_length)
    · have hle := (gapsWithin_iff hspans hone.first_le_last).mp hwithin
      rw [Interval.overlap_eq_zero hone.first_le_last
        (Interval.pairwise_not_overlaps hpairwise)] at hle
      omega

theorem withinOneOf_unordered
    (hsources : ∀ list ∈ intervalsOfEach field sources, ∀ i ∈ list, i.WithinOneOf values)
    (hgaps : ∀ parts, OneOfEach (intervalsOfEach field sources) parts → Interval.FarApart parts →
      ∃ gaps, maxGaps = some gaps ∧ gaps + Interval.overlap parts + 1 < positionGap) :
    ∀ i ∈ (unordered sources maxGaps).intervals field, i.WithinOneOf values := by
  intro span hspan
  obtain ⟨parts, hone, hspans, hwithin⟩ := exists_parts_of_mem_unordered hspan
  have hparts : ∀ i ∈ parts, i.WithinOneOf values := hone.forall_mem hsources
  rcases hspans.withinOneOf_or hone.first_le_last hbehind horder hparts with h | ⟨hfar, huncovered⟩
  · exact h
  · obtain ⟨gaps, rfl, hgaps⟩ := hgaps parts hone hfar
    have hle := (gapsWithin_iff hspans hone.first_le_last).mp hwithin
    omega

end Values

mutual

/-- The intervals of a confined source stay within single values. -/
theorem withinOneOf_of_confined (hbehind : values.Pairwise Behind)
    (horder : ∀ tokens ∈ values, InOrder tokens) (htokens : field.tokens = values.flatten) :
    (source : IntervalSource) → source.Confined field →
      ∀ i ∈ source.intervals field, i.WithinOneOf values
  | .term text, _, i, hi => by
    rw [intervals, Sorted.mem_ofList] at hi
    obtain ⟨position, hposition, rfl⟩ := List.mem_map.mp hi
    obtain ⟨t, ht, rfl⟩ := List.mem_map.mp hposition
    obtain ⟨tokens, hvalue, ht⟩ := List.mem_flatten.mp (htokens ▸ (List.mem_filter.mp ht).1)
    exact ⟨tokens, hvalue, ⟨t, ht, rfl⟩, t, ht, rfl⟩
  | .ordered sources _, h, i, hi => withinOneOf_ordered hbehind horder
    (withinOneOf_of_confinedEach hbehind horder htokens sources h.1) h.2 i hi
  | .unordered sources _, h, i, hi => withinOneOf_unordered hbehind horder
    (withinOneOf_of_confinedEach hbehind horder htokens sources h.1) h.2 i hi
  | .anyOf sources, h, i, hi => by
    rw [intervals, Sorted.mem_ofList] at hi
    obtain ⟨list, hlist, hi⟩ := List.mem_flatten.mp hi
    exact withinOneOf_of_confinedEach hbehind horder htokens sources h list hlist i hi
  | .without source _, h, i, hi => by
    rw [intervals] at hi
    exact withinOneOf_of_confined hbehind horder htokens source h i (List.mem_filter.mp hi).1

theorem withinOneOf_of_confinedEach (hbehind : values.Pairwise Behind)
    (horder : ∀ tokens ∈ values, InOrder tokens) (htokens : field.tokens = values.flatten) :
    (sources : List IntervalSource) → ConfinedEach field sources →
      ∀ list ∈ intervalsOfEach field sources, ∀ i ∈ list, i.WithinOneOf values
  | [], _ => fun _ hlist => absurd hlist List.not_mem_nil
  | source :: rest, h => List.forall_mem_cons.mpr
    ⟨withinOneOf_of_confined hbehind horder htokens source h.1,
      withinOneOf_of_confinedEach hbehind horder htokens rest h.2⟩

end

theorem confinedEach_terms (field : FieldIndex) (terms : List String) :
    ConfinedEach field (terms.map .term) := by
  induction terms with
  | nil => trivial
  | cons term rest ih => exact ⟨trivial, ih⟩

/-! ### Different terms -/

/-- Occurrences of different terms do not overlap. -/
theorem not_overlaps_of_ne (h : InOrder field.tokens) {term other : String} (hne : term ≠ other)
    {i j : Interval} (hi : i ∈ (IntervalSource.term term).intervals field)
    (hj : j ∈ (IntervalSource.term other).intervals field) : i.overlaps j = false := by
  rw [intervals_term h] at hi hj
  obtain ⟨p, hp, rfl⟩ := List.mem_map.mp hi
  obtain ⟨q, hq, rfl⟩ := List.mem_map.mp hj
  obtain ⟨t, ht, rfl⟩ := List.mem_map.mp hp
  obtain ⟨u, hu, rfl⟩ := List.mem_map.mp hq
  obtain ⟨htmem, httext⟩ := List.mem_filter.mp ht
  obtain ⟨humem, hutext⟩ := List.mem_filter.mp hu
  have hposition : t.position ≠ u.position := fun heq => hne <| by
    obtain rfl := h.eq_of_position_eq htmem humem heq
    exact (beq_iff_eq.mp httext).symm.trans (beq_iff_eq.mp hutext)
  exact Interval.overlaps_eq_false_iff.mpr (Nat.lt_or_gt_of_ne hposition.symm)

/-- The occurrences of different terms are apart. -/
theorem apart_terms (h : InOrder field.tokens) {terms : List String} (hterms : terms.Nodup) :
    Apart (intervalsOfEach field (terms.map .term)) := by
  rw [intervalsOfEach_eq_map, List.map_map]
  exact List.pairwise_map.mpr (hterms.imp fun hne i hi j hj => not_overlaps_of_ne h hne hi hj)

/-- A limit on the gaps between unordered different terms has to leave no room. -/
theorem confined_unordered_terms (h : InOrder field.tokens) (terms : List String) (gaps : Nat)
    (hterms : terms.Nodup) (hgaps : gaps + 1 < positionGap) :
    (unordered (terms.map .term) (some gaps)).Confined field := by
  refine ⟨confinedEach_terms field terms, fun parts hone _ => ⟨gaps, rfl, ?_⟩⟩
  rw [Interval.overlap_eq_zero hone.first_le_last ((apart_terms h hterms).pairwise hone)]
  exact hgaps

end IntervalSource

namespace Document

variable {id : String} {default : Analyzer} {values : List (String × FieldValue)} {d : Document}

/-- The spans of a phrase stay within one value if the slop is less than the positions between two
values, and the intervals of a source do if its limits keep them there. -/
theorem spans_within_values (h : build id default values = .ok d) (field : String) :
    (∀ terms slop, terms.length ≤ 1 ∨ slop + 1 < positionGap →
      ∀ span ∈ Query.phraseSpans d.index field terms slop,
        (Interval.ofPair span).WithinOneOf (valueTokens default values field)) ∧
    ∀ source : IntervalSource, source.Confined (d.index.field field) →
      ∀ i ∈ source.intervals (d.index.field field),
        i.WithinOneOf (valueTokens default values field) := by
  have hsource : ∀ source : IntervalSource, source.Confined (d.index.field field) →
      ∀ i ∈ source.intervals (d.index.field field),
        i.WithinOneOf (valueTokens default values field) :=
    IntervalSource.withinOneOf_of_confined (pairwise_behind default values field)
      (fun _ => inOrder_of_mem_layOutEach) (tokens_eq_flatten h field)
  refine ⟨fun terms slop hslop span hspan => ?_, hsource⟩
  refine hsource (.ordered (terms.map .term) (some slop))
    ⟨IntervalSource.confinedEach_terms _ terms, ?_⟩ _ ?_
  · rw [List.length_map]
    exact hslop.imp_right fun hlt => ⟨slop, rfl, hlt⟩
  · rw [IntervalSource.intervals_ordered_terms (inOrder h field)]
    exact List.mem_map_of_mem hspan

/-- Two values in which a nested source has an interval each, and a phrase one in the first. -/
theorem spans_within_values_nested : ∃ d,
    build "d" (.pipeline ⟨" ", .literal [' '], true⟩ [])
      [("body", .text "a b c" none), ("body", .text "b a c" none)] = .ok d ∧
    let source := IntervalSource.ordered
      [.unordered [.term "a", .term "b"] (some 98), .term "c"] (some 98)
    let values := valueTokens (.pipeline ⟨" ", .literal [' '], true⟩ [])
      [("body", .text "a b c" none), ("body", .text "b a c" none)] "body"
    source.intervals (d.index.field "body") = [⟨0, 2⟩, ⟨102, 104⟩] ∧
      (∀ i ∈ source.intervals (d.index.field "body"), i.WithinOneOf values) ∧
      Query.phraseSpans d.index "body" ["a", "b"] 98 = [(0, 1)] ∧
      ∀ span ∈ Query.phraseSpans d.index "body" ["a", "b"] 98,
        (Interval.ofPair span).WithinOneOf values := by
  have hd : build "d" (.pipeline ⟨" ", .literal [' '], true⟩ [])
      [("body", .text "a b c" none), ("body", .text "b a c" none)] = .ok _ := rfl
  refine ⟨_, hd, by decide +kernel, (spans_within_values hd "body").2 _ ?_, by decide +kernel,
    (spans_within_values hd "body").1 ["a", "b"] 98 (.inr (by decide))⟩
  have hunordered := IntervalSource.confined_unordered_terms (inOrder hd "body") ["a", "b"] 98
    (by decide) (by decide)
  exact ⟨⟨hunordered, trivial, trivial⟩, .inr ⟨98, rfl, by decide⟩⟩

/-- Spans reach from one value to the next: that of a phrase with a slop as large as the positions
between the values, that of an ordered source without limit, and that of an unordered source whose
limit is smaller, but admits one position more because two parts are the same. -/
theorem spans_across_values : ∃ d,
    build "d" .standard [("body", .keyword "a"), ("body", .keyword "b")] = .ok d ∧
    let values := valueTokens .standard [("body", .keyword "a"), ("body", .keyword "b")] "body"
    (∃ span ∈ Query.phraseSpans d.index "body" ["a", "b"] 99,
      ¬(Interval.ofPair span).WithinOneOf values) ∧
    (∃ i ∈ (IntervalSource.ordered [.term "a", .term "b"] none).intervals (d.index.field "body"),
      ¬i.WithinOneOf values) ∧
    ∃ i ∈ (IntervalSource.unordered [.term "a", .term "a", .term "b"] (some 98)).intervals
      (d.index.field "body"), ¬i.WithinOneOf values := by
  have hd : build "d" .standard [("body", .keyword "a"), ("body", .keyword "b")] = .ok _ := rfl
  exact ⟨_, hd, by decide +kernel⟩

end Document

end Percolator
