import Percolator.Proofs.Interval.Ordered
import Percolator.Proofs.Query.Phrase

/-!
# Where phrases are found

A phrase takes each of its terms at the first position behind the term before. The positions of a
term increase, so that this is the least one, and whoever takes another one comes to the end no
sooner. A phrase is therefore found from each position of its first term from which its terms occur
one behind the other, up to the least position at which the last of them can stand, unless there
are more positions between the terms than the slop allows.

## Main definitions

* `Query.PhraseAt` : the terms of a phrase occur one behind the other.
* `Query.phraseEnds` : where the phrases that begin at a position end.

## Main results

* `Query.isLeast_phraseEnds` : a phrase is followed to the least of its ends.
* `Document.phraseSpans_exact` : the spans of a phrase.
-/

namespace Percolator

namespace Query

variable {f : FieldIndex} {first : String} {terms rest : List String} {start e : Nat}
  {places steps : List Nat}

/-- The terms occur at the places, one behind the other. -/
structure PhraseAt (f : FieldIndex) (terms : List String) (places : List Nat) : Prop where
  occurs : List.Forall₂ f.OccursAt terms places
  increasing : places.Pairwise (· < ·)

/-- The last places of the terms where they occur one behind the other and the first of them at
`start`. -/
def phraseEnds (f : FieldIndex) (terms : List String) (start : Nat) : Set Nat :=
  {e | ∃ places, PhraseAt f terms places ∧ places.head? = some start ∧ places.getLast? = some e}

theorem mem_phraseEnds_cons : e ∈ phraseEnds f (first :: rest) start ↔
    f.OccursAt first start ∧ ∃ places, List.Forall₂ f.OccursAt rest places ∧
      (start :: places).Pairwise (· < ·) ∧ places.getLast?.getD start = e := by
  refine ⟨?_, ?_⟩
  · rintro ⟨_, ⟨_ | ⟨hfirst, hrest⟩, hincreasing⟩, hhead, hlast⟩
    obtain rfl := Option.some.inj hhead
    rw [List.getLast?_cons, Option.some.injEq] at hlast
    exact ⟨hfirst, _, hrest, hincreasing, hlast⟩
  · rintro ⟨hfirst, places, hrest, hincreasing, rfl⟩
    exact ⟨start :: places, ⟨.cons hfirst hrest, hincreasing⟩, rfl, List.getLast?_cons⟩

/-- Increasing places reach at least as far as there are places. -/
theorem add_length_le_getLast (h : (start :: places).Pairwise (· < ·)) :
    start + places.length ≤ places.getLast?.getD start := by
  induction places generalizing start with
  | nil => exact Nat.le_refl start
  | cons next places ih =>
    obtain ⟨hstart, hplaces⟩ := List.pairwise_cons.mp h
    have hnext := hstart next List.mem_cons_self
    have hreach := ih hplaces
    rw [List.getLast?_cons, Option.getD_some, List.length_cons]
    omega

theorem add_length_le_of_mem_phraseEnds (h : e ∈ phraseEnds f (first :: rest) start) :
    start + rest.length ≤ e := by
  obtain ⟨-, places, hrest, hincreasing, rfl⟩ := mem_phraseEnds_cons.mp h
  rw [hrest.length_eq]
  exact add_length_le_getLast hincreasing

/-! ### Places as intervals -/

theorem oneOfEach_map_point_iff :
    IntervalSource.OneOfEach ((rest.map f.positions).map (·.map .point)) (places.map .point) ↔
      List.Forall₂ f.OccursAt rest places := by
  have hpoint : ∀ (positions : List Nat) (place : Nat),
      Interval.point place ∈ positions.map .point ↔ place ∈ positions := fun positions place => by
    simp only [List.mem_map, Interval.point, Interval.mk.injEq, and_self, exists_eq_right]
  simp only [IntervalSource.OneOfEach, List.map_map, List.forall₂_map_left_iff,
    List.forall₂_map_right_iff, Function.comp_apply, hpoint, FieldIndex.mem_positions_iff]

theorem pairwise_map_point_iff :
    (Interval.point start :: places.map .point).Pairwise (·.last < ·.first) ↔
      (start :: places).Pairwise (· < ·) := by
  rw [← List.map_cons, List.pairwise_map]
  rfl

section Ends

variable (h : InOrder f.tokens)

include h

theorem chain?_positions (start : Nat) (rest : List String) :
    IntervalSource.chain? (.point start) ((rest.map f.positions).map (·.map .point)) =
      (phraseSteps? start (rest.map f.positions)).map (·.map .point) :=
  IntervalSource.chain?_map_point
    (List.forall_mem_map.mpr fun term _ => h.pairwise_positions term) start

/-- Wherever the terms occur one behind the other, a phrase that begins with them can be followed
to its end, and it ends no later. -/
theorem exists_phraseSteps? (hrest : List.Forall₂ f.OccursAt rest places)
    (hincreasing : (start :: places).Pairwise (· < ·)) :
    ∃ steps, phraseSteps? start (rest.map f.positions) = some steps ∧
      steps.getLast?.getD start ≤ places.getLast?.getD start := by
  obtain ⟨parts, hparts, hle⟩ := IntervalSource.exists_chain? (oneOfEach_map_point_iff.mpr hrest)
    (pairwise_map_point_iff.mpr hincreasing) (Nat.le_refl (Interval.point start).last)
  rw [chain?_positions h, Option.map_eq_some_iff] at hparts
  obtain ⟨steps, hsteps, rfl⟩ := hparts
  have hlast := IntervalSource.getLast_last_le (Nat.le_refl (Interval.point start).last) hle
  rw [Interval.last_getLast_map_point, Interval.last_getLast_map_point] at hlast
  exact ⟨steps, hsteps, hlast⟩

/-- Where a phrase takes its terms, they occur one behind the other. -/
theorem occurs_of_phraseSteps? (hsteps : phraseSteps? start (rest.map f.positions) = some steps) :
    List.Forall₂ f.OccursAt rest steps ∧ (start :: steps).Pairwise (· < ·) := by
  have hchain := (chain?_positions h start rest).trans (congrArg _ hsteps)
  have hforward : ∀ list ∈ (rest.map f.positions).map (·.map Interval.point), ∀ i ∈ list,
      i.first ≤ i.last := by
    refine List.forall_mem_map.mpr fun positions _ => List.forall_mem_map.mpr fun place _ => ?_
    exact Nat.le_refl place
  obtain ⟨hone, hpairwise⟩ := IntervalSource.oneOfEach_of_chain? hforward hchain
  exact ⟨oneOfEach_map_point_iff.mp hone, pairwise_map_point_iff.mp hpairwise⟩

/-- A phrase is followed to the least of its ends. -/
theorem isLeast_phraseEnds (hfirst : f.OccursAt first start)
    (hsteps : phraseSteps? start (rest.map f.positions) = some steps) :
    IsLeast (phraseEnds f (first :: rest) start) (steps.getLast?.getD start) := by
  obtain ⟨hoccurs, hincreasing⟩ := occurs_of_phraseSteps? h hsteps
  refine ⟨mem_phraseEnds_cons.mpr ⟨hfirst, steps, hoccurs, hincreasing, rfl⟩, fun e he => ?_⟩
  obtain ⟨-, places, hplaces, hincreasing, rfl⟩ := mem_phraseEnds_cons.mp he
  obtain ⟨others, hothers, hle⟩ := exists_phraseSteps? h hplaces hincreasing
  obtain rfl := Option.some.inj (hsteps.symm.trans hothers)
  exact hle

theorem exists_phraseSteps?_of_mem (he : e ∈ phraseEnds f (first :: rest) start) :
    f.OccursAt first start ∧
      ∃ steps, phraseSteps? start (rest.map f.positions) = some steps := by
  obtain ⟨hfirst, places, hplaces, hincreasing, -⟩ := mem_phraseEnds_cons.mp he
  obtain ⟨steps, hsteps, -⟩ := exists_phraseSteps? h hplaces hincreasing
  exact ⟨hfirst, steps, hsteps⟩

theorem isLeast_phraseEnds_iff : IsLeast (phraseEnds f (first :: rest) start) e ↔
    f.OccursAt first start ∧ phraseEnd? start (rest.map f.positions) = some e := by
  rw [phraseEnd?_eq, Option.map_eq_some_iff]
  refine ⟨fun he => ?_, ?_⟩
  · obtain ⟨hfirst, steps, hsteps⟩ := exists_phraseSteps?_of_mem h he.1
    exact ⟨hfirst, steps, hsteps, (isLeast_phraseEnds h hfirst hsteps).unique he⟩
  · rintro ⟨hfirst, steps, hsteps, rfl⟩
    exact isLeast_phraseEnds h hfirst hsteps

end Ends

theorem mem_phraseSpans_cons {d : DocumentIndex} {field : String} {slop : Nat} :
    (start, e) ∈ phraseSpans d field (first :: rest) slop ↔
      start ∈ (d.field field).positions first ∧
        phraseEnd? start (rest.map (d.field field).positions) = some e ∧
        e - start - rest.length ≤ slop := by
  simp only [phraseSpans_cons, List.mem_filterMap, phraseSpan?, bind, Option.bind_eq_some_iff,
    Option.ite_none_right_eq_some, Option.some.injEq, Prod.mk.injEq, List.length_map]
  refine ⟨?_, ?_⟩
  · rintro ⟨_, hstart, _, hend, hslop, rfl, rfl⟩
    exact ⟨hstart, hend, hslop⟩
  · rintro ⟨hstart, hend, hslop⟩
    exact ⟨start, hstart, e, hend, hslop, rfl, rfl⟩

end Query

namespace Document

/-- The spans of a phrase begin one behind the other, and they are those from a position of the
first term to the least position at which the terms behind it, one behind the other, come to an
end, if there are no more positions besides those of the terms than the slop allows. So a phrase
matches if and only if its terms occur one behind the other within the slop. The positions besides
those of the terms are counted without going below zero. -/
theorem phraseSpans_exact {id : String} {default : Analyzer} {values : List (String × FieldValue)}
    {d : Document} (h : build id default values = .ok d) (field first : String)
    (rest : List String) (slop : Nat) (boost : Float32) :
    let f := d.index.field field
    let spans := Query.phraseSpans d.index field (first :: rest) slop
    spans.Pairwise (·.1 < ·.1) ∧
      (∀ p q, (p, q) ∈ spans ↔
        IsLeast (Query.phraseEnds f (first :: rest) p) q ∧ q - p - rest.length ≤ slop) ∧
      ((Query.phrase field (first :: rest) slop boost).holds d.index = .ok true ↔
        ∃ p q, q ∈ Query.phraseEnds f (first :: rest) p ∧ q - p - rest.length ≤ slop) ∧
      ∀ p ∈ f.positions first, ∀ q, Query.phraseEnd? p (rest.map f.positions) = some q →
        p ≤ q ∧ rest.length ≤ q - p := by
  have horder := inOrder h field
  have hspans : ∀ p q, (p, q) ∈ Query.phraseSpans d.index field (first :: rest) slop ↔
      IsLeast (Query.phraseEnds (d.index.field field) (first :: rest) p) q ∧
        q - p - rest.length ≤ slop := fun p q => by
    rw [Query.mem_phraseSpans_cons, Query.isLeast_phraseEnds_iff horder,
      FieldIndex.mem_positions_iff, and_assoc]
  refine ⟨Query.pairwise_phraseSpans horder, hspans, ?_, fun p hp q hq => ?_⟩
  · rw [Query.holds, Except.ok.injEq, Bool.not_eq_true', List.isEmpty_eq_false_iff]
    refine ⟨fun hne => ?_, ?_⟩
    · obtain ⟨⟨p, q⟩, hspan⟩ := List.exists_mem_of_ne_nil _ hne
      obtain ⟨hleast, hslop⟩ := (hspans p q).mp hspan
      exact ⟨p, q, hleast.1, hslop⟩
    · rintro ⟨p, q, hq, hslop⟩
      obtain ⟨hfirst, steps, hsteps⟩ := Query.exists_phraseSteps?_of_mem horder hq
      have hleast := Query.isLeast_phraseEnds horder hfirst hsteps
      have hle := hleast.2 hq
      exact List.ne_nil_of_mem ((hspans p _).mpr ⟨hleast, by omega⟩)
  · have hleast := (Query.isLeast_phraseEnds_iff horder).mpr
      ⟨FieldIndex.mem_positions_iff.mp hp, hq⟩
    have hle := Query.add_length_le_of_mem_phraseEnds hleast.1
    omega

/-- A phrase of a repeated term, once with and once without a position between. -/
theorem phraseSpans_exact_repeated : ∃ d,
    build "d" (.pipeline ⟨" ", .literal [' '], true⟩ []) [("body", .text "a a b a" none)] = .ok d ∧
    Query.phraseSpans d.index "body" ["a", "a"] 1 = [(0, 1), (1, 3)] ∧
      IsLeast (Query.phraseEnds (d.index.field "body") ["a", "a"] 1) 3 ∧ 3 - 1 - 1 ≤ 1 := by
  have hd : build "d" (.pipeline ⟨" ", .literal [' '], true⟩ [])
      [("body", .text "a a b a" none)] = .ok _ := rfl
  have hexact := phraseSpans_exact hd "body" "a" ["a"] 1 1
  exact ⟨_, hd, by decide +kernel, (hexact.2.1 1 3).mp (by decide +kernel)⟩

end Document

end Percolator
