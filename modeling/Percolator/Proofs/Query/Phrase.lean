import Percolator.Proofs.Document.Layout
import Percolator.Proofs.Interval.Covered
import Percolator.Query.Evaluation

/-!
# Phrases as intervals

A phrase is found by taking each of its terms at the first position behind the term before, and an
ordered interval by taking of each source the interval that ends first among those behind the one
before. Where the sources are terms, their intervals are single positions in increasing order: the
one that ends first is the first, the positions left uncovered are the slop, and the spans come out
in order. So a phrase and the ordered interval of its terms are the same query.

## Main definitions

* `FieldIndex.OccursAt` : a term occurs at a position.
* `Query.phraseSteps?` : the positions at which a phrase takes its terms.

## Main results

* `IntervalSource.intervals_ordered_terms` : the intervals of ordered terms are the spans of the
  phrase.
* `Document.phrase_agrees_ordered` : the two queries match the same documents, with the same score
  and the same hits.
-/

namespace Percolator

variable {d : DocumentIndex} {field text : String} {terms : List String} {slop : Nat}

/-- The term occurs at the position. -/
def FieldIndex.OccursAt (f : FieldIndex) (term : String) (position : Nat) : Prop :=
  ∃ t ∈ f.tokens, t.text = term ∧ t.position = position

theorem FieldIndex.mem_positions_iff {f : FieldIndex} {term : String} {position : Nat} :
    position ∈ f.positions term ↔ f.OccursAt term position := by
  simp only [positions, occurrences, List.mem_map, List.mem_filter, beq_iff_eq, and_assoc, OccursAt]

/-- The positions of a term increase. -/
theorem InOrder.pairwise_positions {f : FieldIndex} (h : InOrder f.tokens) (term : String) :
    (f.positions term).Pairwise (· < ·) :=
  List.pairwise_map.mpr (h.sublist List.filter_sublist)

/-! ### The steps of a phrase -/

namespace Query

/-- The positions at which a phrase takes its terms behind `last`: each is the first behind the one
before. -/
def phraseSteps? (last : Nat) : List (List Nat) → Option (List Nat)
  | [] => some []
  | positions :: rest => do
    let next ← positions.find? (last < ·)
    let behind ← phraseSteps? next rest
    some (next :: behind)

/-- A phrase ends where it takes its last term. -/
theorem phraseEnd?_eq (last : Nat) (lists : List (List Nat)) :
    phraseEnd? last lists = (phraseSteps? last lists).map (·.getLast?.getD last) := by
  induction lists generalizing last with
  | nil => rfl
  | cons positions rest ih =>
    simp only [phraseEnd?, phraseSteps?, bind]
    cases positions.find? (last < ·) with
    | none => rfl
    | some next =>
      simp only [Option.bind_some, ih next]
      cases phraseSteps? next rest with
      | none => rfl
      | some behind =>
        simp only [Option.map_some, Option.bind_some, List.getLast?_cons, Option.getD_some]

theorem length_of_phraseSteps? {last : Nat} {lists : List (List Nat)} {steps : List Nat}
    (h : phraseSteps? last lists = some steps) : steps.length = lists.length := by
  induction lists generalizing last steps with
  | nil => rw [← Option.some.inj h]; rfl
  | cons positions rest ih =>
    simp only [phraseSteps?, bind, Option.bind_eq_some_iff, Option.some.injEq] at h
    obtain ⟨next, -, behind, hbehind, rfl⟩ := h
    rw [List.length_cons, List.length_cons, ih hbehind]

/-- The span of a phrase that begins at a position, within the slop. -/
def phraseSpan? (slop : Nat) (rest : List (List Nat)) (start : Nat) : Option (Nat × Nat) := do
  let last ← phraseEnd? start rest
  if last - start - rest.length ≤ slop then some (start, last) else none

theorem phraseSpans_cons (d : DocumentIndex) (field first : String) (rest : List String)
    (slop : Nat) :
    phraseSpans d field (first :: rest) slop =
      ((d.field field).positions first).filterMap
        (phraseSpan? slop (rest.map (d.field field).positions)) := by
  refine List.filterMap_congr fun start _ => ?_
  rw [phraseSpan?, List.length_map]

theorem fst_of_phraseSpan? {lists : List (List Nat)} {start : Nat} {span : Nat × Nat}
    (h : phraseSpan? slop lists start = some span) : span.1 = start := by
  simp only [phraseSpan?, bind, Option.bind_eq_some_iff] at h
  obtain ⟨last, -, h⟩ := h
  split at h
  · rw [← Option.some.inj h]
  · simp only [reduceCtorEq] at h

/-- The spans of a phrase begin one behind the other. -/
theorem pairwise_phraseSpans (h : InOrder (d.field field).tokens) :
    (phraseSpans d field terms slop).Pairwise (·.1 < ·.1) := by
  cases terms with
  | nil => exact List.Pairwise.nil
  | cons first rest =>
    rw [phraseSpans_cons]
    refine List.Pairwise.filterMap _ (fun i j hlt span hspan span' hspan' => ?_)
      (h.pairwise_positions first)
    rwa [fst_of_phraseSpan? hspan, fst_of_phraseSpan? hspan']

end Query

/-! ### Chains of positions -/

namespace Interval

/-- Of positions in increasing order the first behind a given one is the interval that ends
first. -/
theorem earliestEnd?_filter_map_point {positions : List Nat} (h : positions.Pairwise (· < ·))
    (last : Nat) :
    earliestEnd? ((positions.map point).filter (last < ·.first)) =
      (positions.find? (last < ·)).map point := by
  have hfilter : (positions.map point).filter (last < ·.first) =
      (positions.filter (last < ·)).map point := List.filter_map
  rw [hfilter, earliestEnd?_eq_head? (List.pairwise_map.mpr (h.sublist List.filter_sublist)),
    List.head?_map, List.head?_filter]

theorem last_getLast_map_point (positions : List Nat) (start : Nat) :
    ((positions.map point).getLast?.getD (point start)).last =
      positions.getLast?.getD start := by
  rw [List.getLast?_map]
  cases positions.getLast? <;> rfl

/-- The span of a pair of positions. -/
def ofPair (span : Nat × Nat) : Interval := ⟨span.1, span.2⟩

end Interval

namespace IntervalSource

theorem intervals_term {f : FieldIndex} (h : InOrder f.tokens) (term : String) :
    (IntervalSource.term term).intervals f = (f.positions term).map .point := by
  rw [intervals, Sorted.Increasing.ofList_eq]
  exact List.pairwise_map.mpr ((h.pairwise_positions term).imp fun hlt =>
    Interval.compare_eq_lt_iff.mpr (.inl hlt))

theorem chain?_map_point {lists : List (List Nat)}
    (h : ∀ positions ∈ lists, positions.Pairwise (· < ·)) (last : Nat) :
    chain? (.point last) (lists.map (·.map .point)) =
      (Query.phraseSteps? last lists).map (·.map .point) := by
  induction lists generalizing last with
  | nil => rfl
  | cons positions rest ih =>
    obtain ⟨hpositions, hrest⟩ := List.forall_mem_cons.mp h
    simp only [List.map_cons, chain?, Query.phraseSteps?, bind]
    have hfirst := Interval.earliestEnd?_filter_map_point hpositions last
    rw [show (Interval.point last).last = last from rfl, hfirst]
    cases positions.find? (last < ·) with
    | none => rfl
    | some next =>
      simp only [Option.map_some, Option.bind_some, ih hrest next]
      cases Query.phraseSteps? next rest <;> rfl

/-- Between single positions the gaps are the slop. -/
theorem gapsWithin_map_point (start last : Nat) (steps : List Nat) :
    gapsWithin (some slop) ⟨start, last⟩ (.point start :: steps.map .point) =
      decide (last - start - steps.length ≤ slop) := by
  have hcovered := Interval.totalLength_map_point (start :: steps)
  rw [List.map_cons] at hcovered
  rw [Bool.eq_iff_iff, gapsWithin_some, hcovered, decide_eq_true_eq, Interval.length,
    List.length_cons, Nat.add_sub_add_right]

theorem chainSpan?_map_point {lists : List (List Nat)}
    (h : ∀ positions ∈ lists, positions.Pairwise (· < ·)) (start : Nat) :
    chainSpan? (some slop) (lists.map (·.map .point)) (.point start) =
      (Query.phraseSpan? slop lists start).map .ofPair := by
  simp only [chainSpan?, Query.phraseSpan?, Query.phraseEnd?_eq, chain?_map_point h, bind]
  cases hsteps : Query.phraseSteps? start lists with
  | none => rfl
  | some steps =>
    have hfirst : (Interval.point start).first = start := rfl
    simp only [Option.map_some, Option.bind_some, Interval.last_getLast_map_point, hfirst,
      gapsWithin_map_point, decide_eq_true_eq, Query.length_of_phraseSteps? hsteps]
    split <;> rfl

theorem intervalsOfEach_terms {f : FieldIndex} (h : InOrder f.tokens) (terms : List String) :
    intervalsOfEach f (terms.map .term) = (terms.map f.positions).map (·.map .point) := by
  simp only [intervalsOfEach_eq_map, List.map_map]
  exact List.map_congr_left fun term _ => intervals_term h term

theorem chainSpans_terms (h : InOrder (d.field field).tokens) :
    chainSpans (some slop) (intervalsOfEach (d.field field) (terms.map .term)) =
      (Query.phraseSpans d field terms slop).map .ofPair := by
  cases terms with
  | nil => rfl
  | cons first rest =>
    have hpositions : ∀ positions ∈ rest.map (d.field field).positions,
        positions.Pairwise (· < ·) :=
      List.forall_mem_map.mpr fun term _ => h.pairwise_positions term
    rw [intervalsOfEach_terms h, List.map_cons, List.map_cons, chainSpans, List.filterMap_map,
      Query.phraseSpans_cons, List.map_filterMap]
    exact List.filterMap_congr fun start _ => chainSpan?_map_point hpositions start

/-- The intervals of ordered terms are the spans of the phrase. -/
theorem intervals_ordered_terms (h : InOrder (d.field field).tokens) (terms : List String)
    (slop : Nat) :
    (ordered (terms.map .term) (some slop)).intervals (d.field field) =
      (Query.phraseSpans d field terms slop).map .ofPair := by
  rw [intervals, chainSpans_terms h, Sorted.Increasing.ofList_eq]
  exact List.pairwise_map.mpr ((Query.pairwise_phraseSpans h).imp fun hlt =>
    Interval.compare_eq_lt_iff.mpr (.inl hlt))

end IntervalSource

namespace Document

/-- A phrase and the ordered interval of its terms, with the slop as the limit on gaps, match the
same documents, with the same score and the same hits. -/
theorem phrase_agrees_ordered {id : String} {default : Analyzer}
    {values : List (String × FieldValue)} {d : Document} (h : build id default values = .ok d)
    (field : String) (terms : List String) (slop : Nat) (boost : Float32) :
    let phrase := Query.phrase field terms slop boost
    let interval := Query.interval field (.ordered (terms.map .term) (some slop)) boost
    phrase.holds d.index = interval.holds d.index ∧
      phrase.score d.index = interval.score d.index ∧
      phrase.hits d.index = interval.hits d.index := by
  have hspans := IntervalSource.intervals_ordered_terms (inOrder h field) terms slop
  refine ⟨?_, ?_, ?_⟩
  · simp only [Query.holds, hspans, List.isEmpty_map]
  · simp only [Query.score, hspans, List.length_map]
  · simp only [Query.hits, hspans, List.filterMap_map]
    rfl

/-- The agreement in a document of two values, for a phrase with a repeated term and a slop that
reaches from one value to the other. -/
theorem phrase_agrees_ordered_twoValues : ∃ d,
    build "d" (.pipeline ⟨" ", .literal [' '], true⟩ [])
      [("body", .text "a b b" none), ("body", .text "a c" none)] = .ok d ∧
    let phrase := Query.phrase "body" ["a", "b", "a"] 100 2
    let interval := Query.interval "body"
      (.ordered [.term "a", .term "b", .term "a"] (some 100)) 2
    phrase.hits d.index = .ok [⟨"body", 0, 102, 0, 7⟩] ∧
      phrase.holds d.index = interval.holds d.index ∧
      phrase.score d.index = interval.score d.index ∧
      phrase.hits d.index = interval.hits d.index := by
  have hd : build "d" (.pipeline ⟨" ", .literal [' '], true⟩ [])
      [("body", .text "a b b" none), ("body", .text "a c" none)] = .ok _ := rfl
  exact ⟨_, hd, by decide +kernel, phrase_agrees_ordered hd "body" ["a", "b", "a"] 100 2⟩

end Document

end Percolator
