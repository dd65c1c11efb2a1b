import Mathlib.Order.Nat
import Percolator.Proofs.Interval.Unordered
import Percolator.Proofs.Interval.Values

/-!
# Unordered different terms

Different terms never occur at one position. When the sweep comes to an occurrence of one of them,
it has therefore in front of it, for each term, the first occurrence from there on. So it finds, for
each position of a term from which all terms still occur, the span up to the last of these first
occurrences, and the positions between the terms are counted right.

## Main definitions

* `FieldIndex.positionsFrom` : where a term occurs from a position on.

## Main results

* `IntervalSource.sweptFrom_iff_of_apart` : what a sweep has in front of it if no lists overlap.
* `Document.unordered_terms_exact` : the intervals of unordered different terms.
-/

namespace Percolator

/-- The positions from `start` on at which the term occurs. -/
def FieldIndex.positionsFrom (f : FieldIndex) (start : Nat) (term : String) : Set Nat :=
  {position | start ≤ position ∧ f.OccursAt term position}

namespace IntervalSource

variable {f : FieldIndex} {maxGaps : Option Nat} {terms : List String} {term : String}
  {lists : List (List Interval)} {list parts : List Interval} {i m span : Interval}
  {ends : List Nat} {start e : Nat}

/-! ### Lists that do not overlap -/

/-- In a list without `m` what is behind `m` is what is not before it. -/
theorem firstOf_before_iff (hm : m ∉ list) :
    Interval.FirstOf m.Before list i ↔ Interval.FirstOf (fun j => ¬j.Before m) list i := by
  have hbehind : ∀ j ∈ list, m.Before j ↔ ¬j.Before m := fun j hj => by
    refine ⟨fun hmj hjm => Interval.Before.irrefl m (hmj.trans hjm), fun hjm => ?_⟩
    refine by_contra fun hmj => hm ?_
    exact Interval.eq_of_not_before hmj hjm ▸ hj
  exact ⟨.of_iff hbehind, .of_iff fun j hj => (hbehind j hj).symm⟩

theorem firstOf_self (hm : m ∈ list) : Interval.FirstOf (fun j => ¬j.Before m) list m :=
  ⟨hm, Interval.Before.irrefl m, fun _ _ hj => hj⟩

/-- If no list overlaps another one, a sweep has in front of it the first interval of each list that
is not before the one that it comes to. -/
theorem sweptFrom_iff_of_apart (hforward : ∀ list ∈ lists, ∀ i ∈ list, i.first ≤ i.last)
    (hapart : Apart lists) :
    SweptFrom m lists parts ↔ (∃ list ∈ lists, m ∈ list) ∧
      List.Forall₂ (Interval.FirstOf fun i => ¬i.Before m) lists parts := by
  induction lists generalizing parts with
  | nil =>
    refine iff_of_false (fun h => ?_) ?_
    · cases h
    · rintro ⟨⟨list, hlist, -⟩, -⟩
      exact absurd hlist List.not_mem_nil
  | cons list rest ih =>
    obtain ⟨hlist, hrest⟩ := List.forall_mem_cons.mp hforward
    obtain ⟨hoverlap, hapart⟩ := List.pairwise_cons.mp hapart
    -- An interval overlaps itself, so that it is not in two lists.
    have hnot : (∃ other ∈ rest, m ∈ other) → m ∉ list := by
      rintro ⟨other, hother, hm⟩ hmlist
      have hself := hoverlap other hother m hmlist m hm
      have hm := hlist m hmlist
      rw [Interval.overlaps_eq_false_iff] at hself
      omega
    refine ⟨fun h => ?_, ?_⟩
    · cases h with
      | here hm htail => exact ⟨⟨list, List.mem_cons_self, hm⟩, .cons (firstOf_self hm) htail⟩
      | there hfirst htail =>
        obtain ⟨hm, htail⟩ := (ih hrest hapart).mp htail
        refine ⟨hm.imp fun other h => ⟨List.mem_cons_of_mem list h.1, h.2⟩, .cons ?_ htail⟩
        exact (firstOf_before_iff (hnot hm)).mp hfirst
    · rintro ⟨⟨other, hother, hm⟩, _ | ⟨hfirst, htail⟩⟩
      by_cases hmlist : m ∈ list
      · obtain rfl := hfirst.eq (firstOf_self hmlist)
        exact .here hmlist htail
      · have hmem : ∃ other ∈ rest, m ∈ other := by
          rcases List.mem_cons.mp hother with rfl | hother
          · exact absurd hm hmlist
          · exact ⟨other, hother, hm⟩
        exact .there ((firstOf_before_iff hmlist).mpr hfirst) ((ih hrest hapart).mpr ⟨hmem, htail⟩)

/-! ### First occurrences -/

theorem firstOf_point_iff : Interval.FirstOf (fun j => ¬j.Before (.point start))
      ((f.positions term).map .point) i ↔
    ∃ e, i = .point e ∧ IsLeast (f.positionsFrom start term) e := by
  have hbefore : ∀ p q, (Interval.point p).Before (.point q) ↔ p < q := fun p q => by
    simp only [Interval.Before, Interval.point]
    omega
  refine ⟨fun h => ?_, ?_⟩
  · obtain ⟨hmem, hi, hfirst⟩ := h
    obtain ⟨e, he, rfl⟩ := List.mem_map.mp hmem
    rw [hbefore, Nat.not_lt] at hi
    refine ⟨e, rfl, ⟨hi, FieldIndex.mem_positions_iff.mp he⟩, fun p hp => ?_⟩
    have hle := hfirst (.point p)
      (List.mem_map_of_mem (FieldIndex.mem_positions_iff.mpr hp.2))
      (fun hlt => Nat.not_lt.mpr hp.1 ((hbefore p start).mp hlt))
    rwa [hbefore, Nat.not_lt] at hle
  · rintro ⟨e, rfl, ⟨he, hoccurs⟩, hleast⟩
    have hmem := FieldIndex.mem_positions_iff.mpr hoccurs
    refine ⟨List.mem_map_of_mem hmem, ?_, fun j hj hstart => ?_⟩
    · rwa [hbefore, Nat.not_lt]
    · obtain ⟨p, hp, rfl⟩ := List.mem_map.mp hj
      rw [hbefore, Nat.not_lt] at hstart ⊢
      exact hleast ⟨hstart, FieldIndex.mem_positions_iff.mp hp⟩

/-- The places are the first ones from `start` on at which the terms occur. -/
def FirstPlaces (f : FieldIndex) (start : Nat) (terms : List String) (ends : List Nat) : Prop :=
  List.Forall₂ (fun term e => IsLeast (f.positionsFrom start term) e) terms ends

theorem forall₂_firstOf_iff : List.Forall₂ (Interval.FirstOf fun j => ¬j.Before (.point start))
      ((terms.map f.positions).map (·.map .point)) parts ↔
    ∃ ends, FirstPlaces f start terms ends ∧ parts = ends.map .point := by
  induction terms generalizing parts with
  | nil =>
    refine ⟨fun h => ?_, ?_⟩
    · cases h
      exact ⟨[], .nil, rfl⟩
    · rintro ⟨ends, _ | _, rfl⟩
      exact .nil
  | cons term rest ih =>
    rw [List.map_cons, List.map_cons]
    refine ⟨fun h => ?_, ?_⟩
    · rcases h with _ | ⟨hfirst, hrest⟩
      obtain ⟨e, rfl, he⟩ := firstOf_point_iff.mp hfirst
      obtain ⟨ends, hends, rfl⟩ := ih.mp hrest
      exact ⟨e :: ends, .cons he hends, rfl⟩
    · rintro ⟨_, _ | ⟨he, hends⟩, rfl⟩
      exact .cons (firstOf_point_iff.mpr ⟨_, rfl, he⟩) (ih.mpr ⟨_, hends, rfl⟩)

theorem FirstPlaces.mem_iff (h : FirstPlaces f start terms ends) :
    e ∈ ends ↔ ∃ term ∈ terms, IsLeast (f.positionsFrom start term) e := by
  induction h with
  | nil => simp only [List.not_mem_nil, false_and, exists_false]
  | @cons term place _ _ hplace _ ih =>
    have hhead : IsLeast (f.positionsFrom start term) e ↔ e = place :=
      ⟨fun he => he.unique hplace, fun he => he ▸ hplace⟩
    simp only [List.mem_cons, or_and_right, exists_or, exists_eq_left, ih, hhead]

theorem exists_firstPlaces_iff :
    (∃ ends, FirstPlaces f start terms ends) ↔
      ∀ term ∈ terms, (f.positionsFrom start term).Nonempty := by
  classical
  refine ⟨?_, fun h => ?_⟩
  · rintro ⟨ends, hends⟩
    induction hends with
    | nil => exact fun _ hterm => absurd hterm List.not_mem_nil
    | cons he _ ih => exact List.forall_mem_cons.mpr ⟨⟨_, he.1⟩, ih⟩
  · induction terms with
    | nil => exact ⟨[], .nil⟩
    | cons term rest ih =>
      obtain ⟨hterm, hrest⟩ := List.forall_mem_cons.mp h
      obtain ⟨ends, hends⟩ := ih hrest
      exact ⟨_, .cons hterm.isLeast_natFind hends⟩

/-- Where one of the terms occurs at `start`, this is the first of the places. -/
theorem FirstPlaces.isLeast (h : FirstPlaces f start terms ends)
    (hstart : ∃ term ∈ terms, f.OccursAt term start) : IsLeast {e | e ∈ ends} start := by
  obtain ⟨term, hterm, hoccurs⟩ := hstart
  refine ⟨h.mem_iff.mpr ⟨term, hterm, ⟨Nat.le_refl start, hoccurs⟩, fun p hp => hp.1⟩, ?_⟩
  intro e he
  obtain ⟨other, -, hother⟩ := h.mem_iff.mp he
  exact hother.1.1

theorem spans_map_point_iff : span.Spans (ends.map .point) ↔
    IsLeast {e | e ∈ ends} span.first ∧ IsGreatest {e | e ∈ ends} span.last := by
  refine ⟨?_, ?_⟩
  · rintro ⟨⟨_, hi, hfirst⟩, ⟨_, hj, hlast⟩, hle, hge⟩
    obtain ⟨first, hfirstMem, rfl⟩ := List.mem_map.mp hi
    obtain ⟨last, hlastMem, rfl⟩ := List.mem_map.mp hj
    exact ⟨⟨hfirst ▸ hfirstMem, fun e he => hle (.point e) (List.mem_map_of_mem he)⟩,
      ⟨hlast ▸ hlastMem, fun e he => hge (.point e) (List.mem_map_of_mem he)⟩⟩
  · rintro ⟨hfirst, hlast⟩
    exact ⟨⟨_, List.mem_map_of_mem hfirst.1, rfl⟩, ⟨_, List.mem_map_of_mem hlast.1, rfl⟩,
      List.forall_mem_map.mpr hfirst.2, List.forall_mem_map.mpr hlast.2⟩

theorem exists_mem_points_iff :
    (∃ list ∈ (terms.map f.positions).map (·.map .point), m ∈ list) ↔
      ∃ start, (∃ term ∈ terms, f.OccursAt term start) ∧ m = .point start := by
  refine ⟨?_, ?_⟩
  · rintro ⟨_, hlist, hm⟩
    obtain ⟨_, hpositions, rfl⟩ := List.mem_map.mp hlist
    obtain ⟨term, hterm, rfl⟩ := List.mem_map.mp hpositions
    obtain ⟨start, hstart, rfl⟩ := List.mem_map.mp hm
    exact ⟨start, ⟨term, hterm, FieldIndex.mem_positions_iff.mp hstart⟩, rfl⟩
  · rintro ⟨start, ⟨term, hterm, hstart⟩, rfl⟩
    exact ⟨_, List.mem_map_of_mem (List.mem_map_of_mem hterm),
      List.mem_map_of_mem (FieldIndex.mem_positions_iff.mpr hstart)⟩

/-- When a sweep over different terms comes to a position of one of them, it has in front of it the
first places of all terms from there on. -/
theorem swept_terms_iff (h : InOrder f.tokens) (hterms : terms.Nodup) :
    Swept (intervalsOfEach f (terms.map .term)) parts ↔
      ∃ start ends, (∃ term ∈ terms, f.OccursAt term start) ∧ FirstPlaces f start terms ends ∧
        parts = ends.map .point := by
  have hswept : ∀ m, SweptFrom m (intervalsOfEach f (terms.map .term)) parts ↔ _ := fun m =>
    sweptFrom_iff_of_apart first_le_last_of_mem_each (apart_terms h hterms)
  rw [intervalsOfEach_terms h] at hswept ⊢
  refine ⟨?_, ?_⟩
  · rintro ⟨m, hm⟩
    obtain ⟨hmem, hfirst⟩ := (hswept m).mp hm
    obtain ⟨start, hstart, rfl⟩ := exists_mem_points_iff.mp hmem
    obtain ⟨ends, hends, rfl⟩ := forall₂_firstOf_iff.mp hfirst
    exact ⟨start, ends, hstart, hends, rfl⟩
  · rintro ⟨start, ends, hstart, hends, rfl⟩
    exact ⟨_, (hswept _).mpr ⟨exists_mem_points_iff.mpr ⟨start, hstart, rfl⟩,
      forall₂_firstOf_iff.mpr ⟨ends, hends, rfl⟩⟩⟩

/-- Between different terms as many positions are uncovered as the span has more than there are
terms. -/
theorem gapsWithin_firstPlaces_iff (hends : FirstPlaces f start terms ends) :
    gapsWithin maxGaps span (ends.map .point) = true ↔
      ∀ gaps ∈ maxGaps, span.last - span.first + 1 - terms.length ≤ gaps := by
  cases maxGaps with
  | none => exact iff_of_true rfl fun _ hgaps => absurd hgaps (Option.not_mem_none _)
  | some gaps =>
    rw [gapsWithin_some, Interval.totalLength_map_point, ← List.Forall₂.length_eq hends]
    simp only [Option.mem_some_iff, forall_eq', Interval.length]

end IntervalSource

namespace Document

/-- The intervals of unordered different terms are, in order and once each, those from a position
of one of the terms from which all terms still occur to the greatest of the first positions from
there on at which they occur, if they have no more positions besides one for each term than the
limit allows. -/
theorem unordered_terms_exact {id : String} {default : Analyzer}
    {values : List (String × FieldValue)} {d : Document} (h : build id default values = .ok d)
    (field : String) (terms : List String) (hterms : terms.Nodup) (maxGaps : Option Nat) :
    let f := d.index.field field
    let found := (IntervalSource.unordered (terms.map .term) maxGaps).intervals f
    Sorted.Increasing found ∧
      ∀ span, span ∈ found ↔
        (∃ term ∈ terms, f.OccursAt term span.first) ∧
        (∀ term ∈ terms, (f.positionsFrom span.first term).Nonempty) ∧
        IsGreatest {e | ∃ term ∈ terms, IsLeast (f.positionsFrom span.first term) e} span.last ∧
        ∀ gaps ∈ maxGaps, span.last - span.first + 1 - terms.length ≤ gaps := by
  refine ⟨IntervalSource.increasing_intervals _, fun span => ?_⟩
  rw [IntervalSource.mem_unordered_iff]
  simp only [IntervalSource.swept_terms_iff (inOrder h field) hterms]
  refine ⟨?_, ?_⟩
  · rintro ⟨_, ⟨start, ends, hstart, hends, rfl⟩, hspans, hgaps⟩
    obtain ⟨hfirst, hlast⟩ := IntervalSource.spans_map_point_iff.mp hspans
    obtain rfl : span.first = start := hfirst.unique (hends.isLeast hstart)
    refine ⟨hstart, IntervalSource.exists_firstPlaces_iff.mp ⟨ends, hends⟩, ?_, ?_⟩
    · simpa only [hends.mem_iff] using hlast
    · exact (IntervalSource.gapsWithin_firstPlaces_iff hends).mp hgaps
  · rintro ⟨hstart, hoccur, hlast, hgaps⟩
    obtain ⟨ends, hends⟩ := IntervalSource.exists_firstPlaces_iff.mpr hoccur
    refine ⟨_, ⟨span.first, ends, hstart, hends, rfl⟩, ?_, ?_⟩
    · refine IntervalSource.spans_map_point_iff.mpr ⟨hends.isLeast hstart, ?_⟩
      simpa only [hends.mem_iff] using hlast
    · exact (IntervalSource.gapsWithin_firstPlaces_iff hends).mpr hgaps

/-- Two terms of which one occurs twice, within a limit. -/
theorem unordered_terms_exact_ab : ∃ d,
    build "d" (.pipeline ⟨" ", .literal [' '], true⟩ []) [("body", .text "a b x a" none)] = .ok d ∧
    let f := d.index.field "body"
    let found := (IntervalSource.unordered [.term "a", .term "b"] (some 0)).intervals f
    ["a", "b"].Nodup ∧ found = [⟨0, 1⟩] ∧
      IsGreatest {e | ∃ term ∈ ["a", "b"], IsLeast (f.positionsFrom 0 term) e} 1 := by
  have hd : build "d" (.pipeline ⟨" ", .literal [' '], true⟩ [])
      [("body", .text "a b x a" none)] = .ok _ := rfl
  have hexact := unordered_terms_exact hd "body" ["a", "b"] (by decide) (some 0)
  exact ⟨_, hd, by decide, by decide +kernel, ((hexact.2 ⟨0, 1⟩).mp (by decide +kernel)).2.2.1⟩

end Document

end Percolator
