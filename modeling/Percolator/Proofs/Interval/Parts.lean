import Mathlib.Data.List.Forall2
import Percolator.Interval.Source
import Percolator.Proofs.Sorted

/-!
# What intervals are put together from

An interval of an ordered source is the span of one interval of each source, each behind the one
before, and one of an unordered source the span of one interval of each, wherever they stand. The
positions of the span that these parts leave uncovered are within the limit of the source. What
holds of the positions of tokens, and of a span as soon as it holds of its parts, holds therefore
of all intervals of all sources.

## Main definitions

* `IntervalSource.OneOfEach` : a choice of one interval of each list.
* `Interval.Spans` : an interval begins with the first of its parts and ends with the last.
* `IntervalSource.Hereditary` : properties of positions that spans take over from their parts.

## Main results

* `IntervalSource.exists_parts_of_mem_ordered`, `IntervalSource.exists_parts_of_mem_unordered` :
  the parts of an interval.
* `IntervalSource.Hereditary.of_mem_intervals` : induction over the intervals of a source.
* `IntervalSource.first_le_last` : an interval does not end before it begins.
-/

namespace Percolator

open Std

/-! ### The order of intervals -/

instance : TransOrd Interval :=
  inferInstanceAs (TransCmp (compareLex (compareOn Interval.first) (compareOn Interval.last)))

instance : LawfulEqOrd Interval where
  eq_of_compare {i j} h := by
    obtain ⟨hfirst, hlast⟩ : compare i.first j.first = .eq ∧ compare i.last j.last = .eq := by
      simpa only [compare, Interval.compare, Ordering.then_eq_eq] using h
    cases i
    cases j
    simp only [Interval.mk.injEq]
    exact ⟨LawfulEqOrd.eq_of_compare hfirst, LawfulEqOrd.eq_of_compare hlast⟩

/-- A list that is in order already stays as it is. -/
theorem Sorted.Increasing.ofList_eq {α : Type} [Ord α] [TransOrd α] [LawfulEqOrd α] {as : List α}
    (h : Increasing as) : ofList as = as :=
  (increasing_ofList as).ext h fun _ => mem_ofList

namespace Interval

variable {i j k : Interval} {is parts : List Interval}

/-- The interval begins before the other one, or it begins with it and ends before it. -/
def Before (i j : Interval) : Prop := i.first < j.first ∨ i.first = j.first ∧ i.last < j.last

theorem compare_eq_lt_iff : compare i j = .lt ↔ i.Before j := by
  have hcompare : compare i j = (compare i.first j.first).then (compare i.last j.last) := rfl
  rw [hcompare, Ordering.then_eq_lt, Nat.compare_eq_lt, Nat.compare_eq_eq, Nat.compare_eq_lt,
    Before]

theorem before_of_increasing (h : Sorted.Increasing (i :: is)) : ∀ j ∈ is, i.Before j :=
  fun j hj => compare_eq_lt_iff.mp ((List.pairwise_cons.mp h).1 j hj)

theorem Before.irrefl (i : Interval) : ¬i.Before i := by
  simp only [Before]
  omega

theorem Before.trans (hij : i.Before j) (hjk : j.Before k) : i.Before k := by
  simp only [Before] at hij hjk ⊢
  omega

/-- Of three intervals, one that is before another is before every one that is not before it. -/
theorem Before.of_not_before (hij : i.Before j) (hkj : ¬k.Before j) : i.Before k := by
  simp only [Before] at hij hkj ⊢
  omega

theorem eq_of_not_before (hij : ¬i.Before j) (hji : ¬j.Before i) : i = j := by
  cases i
  cases j
  simp only [Before] at hij hji
  rw [Interval.mk.injEq]
  omega

/-! ### First and last intervals -/

theorem earliestEnd?_ne_none (i : Interval) (is : List Interval) :
    earliestEnd? (i :: is) ≠ none := by
  simp only [earliestEnd?]
  split
  · split <;> exact Option.some_ne_none _
  · exact Option.some_ne_none i

theorem mem_of_earliestEnd? (h : earliestEnd? is = some i) : i ∈ is := by
  induction is generalizing i with
  | nil => simp only [earliestEnd?, reduceCtorEq] at h
  | cons j rest ih =>
    simp only [earliestEnd?] at h
    split at h
    · next k hk =>
      split at h
      · exact List.mem_cons_of_mem j (ih (hk.trans h))
      · exact Option.some.inj h ▸ List.mem_cons_self
    · exact Option.some.inj h ▸ List.mem_cons_self

/-- The interval that ends first ends with every other one or before. -/
theorem last_le_of_earliestEnd? (h : earliestEnd? is = some i) : ∀ j ∈ is, i.last ≤ j.last := by
  induction is generalizing i with
  | nil => simp only [earliestEnd?, reduceCtorEq] at h
  | cons k rest ih =>
    cases hrest : earliestEnd? rest with
    | none =>
      cases rest with
      | nil =>
        simp only [earliestEnd?, Option.some.injEq] at h
        exact List.forall_mem_singleton.mpr (h ▸ Nat.le_refl _)
      | cons l rest => exact absurd hrest (earliestEnd?_ne_none l rest)
    | some l =>
      have hle := ih hrest
      simp only [earliestEnd?, hrest] at h
      split at h
      · next hlt =>
        obtain rfl := Option.some.inj h
        exact List.forall_mem_cons.mpr ⟨Nat.le_of_lt hlt, hle⟩
      · next hlt =>
        obtain rfl := Option.some.inj h
        exact List.forall_mem_cons.mpr
          ⟨Nat.le_refl _, fun j hj => Nat.le_trans (Nat.le_of_not_lt hlt) (hle j hj)⟩

/-- Of intervals that end one behind the other the first ends first. -/
theorem earliestEnd?_eq_head? (h : is.Pairwise (·.last < ·.last)) :
    earliestEnd? is = is.head? := by
  cases is with
  | nil => rfl
  | cons i rest =>
    simp only [earliestEnd?, List.head?_cons]
    split
    · next j hj =>
      exact if_neg (Nat.lt_asymm ((List.pairwise_cons.mp h).1 j (mem_of_earliestEnd? hj)))
    · rfl

theorem earliest_mem (i : Interval) (is : List Interval) : earliest i is ∈ i :: is := by
  induction is generalizing i with
  | nil => exact List.mem_cons_self
  | cons j rest ih =>
    simp only [earliest]
    split
    · exact List.mem_cons_of_mem i (ih j)
    · rcases List.mem_cons.mp (ih i) with h | h
      · exact List.mem_cons.mpr (.inl h)
      · exact List.mem_cons_of_mem i (List.mem_cons_of_mem j h)

/-- No other interval is before the one that comes first. -/
theorem not_before_earliest (i : Interval) (is : List Interval) :
    ∀ j ∈ i :: is, ¬j.Before (earliest i is) := by
  induction is generalizing i with
  | nil => exact List.forall_mem_singleton.mpr (Before.irrefl i)
  | cons k rest ih =>
    simp only [earliest]
    split
    · next hlt =>
      obtain ⟨hk, hrest⟩ := List.forall_mem_cons.mp (ih k)
      have hki := compare_eq_lt_iff.mp hlt
      exact List.forall_mem_cons.mpr
        ⟨fun hi => hk (hki.trans hi), List.forall_mem_cons.mpr ⟨hk, hrest⟩⟩
    · next hnot =>
      obtain ⟨hi, hrest⟩ := List.forall_mem_cons.mp (ih i)
      refine List.forall_mem_cons.mpr ⟨hi, List.forall_mem_cons.mpr ⟨fun hk => hnot ?_, hrest⟩⟩
      exact compare_eq_lt_iff.mpr (hk.of_not_before hi)

/-- The interval that comes first begins with every other one or before. -/
theorem first_earliest_le (i : Interval) (is : List Interval) :
    ∀ j ∈ i :: is, (earliest i is).first ≤ j.first := fun j hj =>
  Nat.le_of_not_lt fun hlt => not_before_earliest i is j hj (.inl hlt)

theorem latestEnd_foldl (is : List Interval) (n : Nat) :
    n ≤ is.foldl (fun n i => max n i.last) n ∧
      (∀ i ∈ is, i.last ≤ is.foldl (fun n i => max n i.last) n) ∧
      (is.foldl (fun n i => max n i.last) n = n ∨
        ∃ i ∈ is, i.last = is.foldl (fun n i => max n i.last) n) := by
  induction is generalizing n with
  | nil => exact ⟨Nat.le_refl n, fun _ h => absurd h List.not_mem_nil, .inl rfl⟩
  | cons i rest ih =>
    obtain ⟨hle, hlast, heq⟩ := ih (max n i.last)
    rw [List.foldl_cons]
    refine ⟨by omega, List.forall_mem_cons.mpr ⟨by omega, hlast⟩, ?_⟩
    rcases heq with heq | ⟨j, hj, heq⟩
    · rcases Nat.le_total i.last n with h | h
      · exact .inl (heq.trans (Nat.max_eq_left h))
      · exact .inr ⟨i, List.mem_cons_self, (heq.trans (Nat.max_eq_right h)).symm⟩
    · exact .inr ⟨j, List.mem_cons_of_mem i hj, heq⟩

theorem last_le_latestEnd : ∀ j ∈ is, j.last ≤ latestEnd is := (latestEnd_foldl is 0).2.1

theorem exists_last_eq_latestEnd (h : is ≠ []) : ∃ j ∈ is, j.last = latestEnd is := by
  obtain ⟨i, hi⟩ := List.exists_mem_of_ne_nil is h
  rcases (latestEnd_foldl is 0).2.2 with heq | hex
  · exact ⟨i, hi, Nat.le_antisymm (last_le_latestEnd i hi)
      (Nat.le_trans (Nat.le_of_eq heq) (Nat.zero_le i.last))⟩
  · exact hex

/-! ### Spans -/

/-- The interval begins with the first of the parts and ends with the last. -/
structure Spans (span : Interval) (parts : List Interval) : Prop where
  exists_first : ∃ i ∈ parts, i.first = span.first
  exists_last : ∃ i ∈ parts, i.last = span.last
  first_le : ∀ i ∈ parts, span.first ≤ i.first
  le_last : ∀ i ∈ parts, i.last ≤ span.last

/-- Parts have one span. -/
theorem Spans.eq (hi : i.Spans parts) (hj : j.Spans parts) : i = j := by
  obtain ⟨a, ha, hafirst⟩ := hi.exists_first
  obtain ⟨b, hb, hbfirst⟩ := hj.exists_first
  obtain ⟨c, hc, hclast⟩ := hi.exists_last
  obtain ⟨e, he, helast⟩ := hj.exists_last
  have hfirst : i.first = j.first :=
    Nat.le_antisymm (hbfirst ▸ hi.first_le b hb) (hafirst ▸ hj.first_le a ha)
  have hlast : i.last = j.last :=
    Nat.le_antisymm (hclast ▸ hj.le_last c hc) (helast ▸ hi.le_last e he)
  cases i
  cases j
  exact congrArg₂ Interval.mk hfirst hlast

/-- Intervals are spanned from where the first of them begins to where the last one ends. -/
theorem spans_earliest (i : Interval) (is : List Interval) :
    Spans ⟨(earliest i is).first, latestEnd (i :: is)⟩ (i :: is) :=
  ⟨⟨_, earliest_mem i is, rfl⟩, exists_last_eq_latestEnd (List.cons_ne_nil i is),
    first_earliest_le i is, last_le_latestEnd⟩

/-- Intervals that stand one behind the other are spanned from the first to the last. -/
theorem spans_of_pairwise (hforward : ∀ j ∈ i :: parts, j.first ≤ j.last)
    (h : (i :: parts).Pairwise (·.last < ·.first)) :
    Spans ⟨i.first, (parts.getLast?.getD i).last⟩ (i :: parts) := by
  refine ⟨⟨i, List.mem_cons_self, rfl⟩,
    ⟨_, List.mem_of_getLast? List.getLast?_cons, rfl⟩, fun j hj => ?_, fun j hj => ?_⟩
  · rcases List.mem_cons.mp hj with rfl | hj
    · exact Nat.le_refl j.first
    · have hlt := (List.pairwise_cons.mp h).1 j hj
      exact Nat.le_trans (hforward i List.mem_cons_self) (Nat.le_of_lt hlt)
  · have hlast := List.getLast?_cons (a := i) (l := parts)
    obtain ⟨front, last, hfront⟩ := (List.eq_nil_or_concat (i :: parts)).resolve_left
      (List.cons_ne_nil i parts)
    rw [hfront, List.concat_eq_append] at h hj hlast hforward
    rw [List.getLast?_concat, Option.some.injEq] at hlast
    rw [← hlast]
    rcases List.mem_append.mp hj with hj | hj
    · have hlt := (List.pairwise_append.mp h).2.2 j hj last List.mem_cons_self
      exact Nat.le_trans (Nat.le_of_lt hlt)
        (hforward last (List.mem_append_right front List.mem_cons_self))
    · obtain rfl := List.mem_singleton.mp hj
      exact Nat.le_refl j.last

end Interval

namespace IntervalSource

variable {field : FieldIndex} {maxGaps : Option Nat} {lists : List (List Interval)}
  {parts : List Interval} {i span : Interval}

/-! ### Choices of one interval of each list -/

/-- There is one interval of each of the lists, in the order of the lists. -/
def OneOfEach (lists : List (List Interval)) (parts : List Interval) : Prop :=
  List.Forall₂ (fun list i => i ∈ list) lists parts

/-- What holds of all intervals of the lists holds of a choice among them. -/
theorem OneOfEach.forall_mem {P : Interval → Prop} (h : OneOfEach lists parts)
    (hlists : ∀ list ∈ lists, ∀ i ∈ list, P i) : ∀ i ∈ parts, P i := by
  induction h with
  | nil => exact fun _ hi => absurd hi List.not_mem_nil
  | cons hi _ ih =>
    obtain ⟨hlist, hrest⟩ := List.forall_mem_cons.mp hlists
    exact List.forall_mem_cons.mpr ⟨hlist _ hi, ih hrest⟩

theorem OneOfEach.ne_nil (h : OneOfEach lists parts) : ∀ list ∈ lists, list ≠ [] := by
  induction h with
  | nil => exact fun _ hlist => absurd hlist List.not_mem_nil
  | cons hi _ ih => exact List.forall_mem_cons.mpr ⟨List.ne_nil_of_mem hi, ih⟩

/-- A chain takes one interval of each list, each behind the one before. -/
theorem oneOfEach_of_chain? (hforward : ∀ list ∈ lists, ∀ j ∈ list, j.first ≤ j.last)
    (h : chain? i lists = some parts) :
    OneOfEach lists parts ∧ (i :: parts).Pairwise (·.last < ·.first) := by
  induction lists generalizing i parts with
  | nil =>
    obtain rfl := Option.some.inj h
    exact ⟨.nil, List.pairwise_singleton _ i⟩
  | cons list rest ih =>
    simp only [chain?, bind, Option.bind_eq_some_iff, Option.some.injEq] at h
    obtain ⟨next, hnext, behind, hbehind, rfl⟩ := h
    obtain ⟨hmem, hlt⟩ := List.mem_filter.mp (Interval.mem_of_earliestEnd? hnext)
    obtain ⟨hlist, hrest⟩ := List.forall_mem_cons.mp hforward
    obtain ⟨hone, hpairwise⟩ := ih hrest hbehind
    refine ⟨.cons hmem hone, List.pairwise_cons.mpr ⟨?_, hpairwise⟩⟩
    have hlt : i.last < next.first := of_decide_eq_true hlt
    refine List.forall_mem_cons.mpr ⟨hlt, fun j hj => ?_⟩
    have hfirst := (List.pairwise_cons.mp hpairwise).1 j hj
    exact Nat.lt_trans (Nat.lt_of_lt_of_le hlt (hlist next hmem)) hfirst

/-- A chain behind an interval of the first list is, with this interval, a choice of parts one
behind the other, and its span is theirs. -/
theorem parts_of_chain? {list behind : List Interval}
    (hforward : ∀ any ∈ list :: lists, ∀ j ∈ any, j.first ≤ j.last) (hi : i ∈ list)
    (h : chain? i lists = some behind) :
    OneOfEach (list :: lists) (i :: behind) ∧ (∀ j ∈ i :: behind, j.first ≤ j.last) ∧
      (i :: behind).Pairwise (·.last < ·.first) ∧
      Interval.Spans ⟨i.first, (behind.getLast?.getD i).last⟩ (i :: behind) := by
  obtain ⟨hone, hpairwise⟩ := oneOfEach_of_chain? (List.forall_mem_cons.mp hforward).2 h
  have hone : OneOfEach (list :: lists) (i :: behind) := .cons hi hone
  have hparts := hone.forall_mem hforward
  exact ⟨hone, hparts, hpairwise, Interval.spans_of_pairwise hparts hpairwise⟩

theorem mem_chainSpans {list : List Interval} :
    span ∈ chainSpans maxGaps (list :: lists) ↔
      ∃ i ∈ list, ∃ behind, chain? i lists = some behind ∧
        span = ⟨i.first, (behind.getLast?.getD i).last⟩ ∧
        gapsWithin maxGaps span (i :: behind) = true := by
  simp only [chainSpans, List.mem_filterMap, chainSpan?, bind, Option.bind_eq_some_iff,
    Option.ite_none_right_eq_some, Option.some.injEq]
  refine exists_congr fun i => and_congr_right fun _ => exists_congr fun behind =>
    and_congr_right fun _ => ⟨?_, ?_⟩
  · rintro ⟨hgaps, rfl⟩
    exact ⟨rfl, hgaps⟩
  · rintro ⟨rfl, hgaps⟩
    exact ⟨hgaps, rfl⟩

theorem exists_parts_of_mem_chainSpans
    (hforward : ∀ list ∈ lists, ∀ j ∈ list, j.first ≤ j.last)
    (h : span ∈ chainSpans maxGaps lists) :
    ∃ parts, OneOfEach lists parts ∧ parts.Pairwise (·.last < ·.first) ∧ span.Spans parts ∧
      gapsWithin maxGaps span parts = true := by
  cases lists with
  | nil => exact absurd h List.not_mem_nil
  | cons list rest =>
    obtain ⟨i, hi, behind, hbehind, rfl, hgaps⟩ := mem_chainSpans.mp h
    obtain ⟨hone, -, hpairwise, hspans⟩ := parts_of_chain? hforward hi hbehind
    exact ⟨i :: behind, hone, hpairwise, hspans, hgaps⟩

theorem mapM_head?_cons {list heads : List Interval} :
    (list :: lists).mapM List.head? = some heads ↔
      ∃ head tail rest, list = head :: tail ∧ lists.mapM List.head? = some rest ∧
        heads = head :: rest := by
  simp only [List.mapM_cons, bind, Option.bind_eq_some_iff, pure, Option.some.injEq,
    List.head?_eq_some_iff]
  refine ⟨?_, ?_⟩
  · rintro ⟨head, ⟨tail, rfl⟩, rest, hrest, rfl⟩
    exact ⟨head, tail, rest, rfl, hrest, rfl⟩
  · rintro ⟨head, tail, rest, rfl, hrest, rfl⟩
    exact ⟨head, ⟨tail, rfl⟩, rest, hrest, rfl⟩

theorem oneOfEach_of_mapM_head? (h : lists.mapM List.head? = some parts) :
    OneOfEach lists parts := by
  induction lists generalizing parts with
  | nil =>
    obtain rfl := Option.some.inj h
    exact .nil
  | cons list rest ih =>
    obtain ⟨head, tail, heads, rfl, hheads, rfl⟩ := mapM_head?_cons.mp h
    exact .cons List.mem_cons_self (ih hheads)

/-- Lists with an interval each have first ones. -/
theorem OneOfEach.exists_heads (h : OneOfEach lists parts) :
    ∃ heads, lists.mapM List.head? = some heads := by
  induction h with
  | nil => exact ⟨[], rfl⟩
  | cons hmem _ ih =>
    obtain ⟨heads, hheads⟩ := ih
    obtain ⟨head, tail, rfl⟩ := List.exists_cons_of_ne_nil (List.ne_nil_of_mem hmem)
    exact ⟨_, mapM_head?_cons.mpr ⟨head, tail, heads, rfl, hheads, rfl⟩⟩

theorem OneOfEach.of_dropFront (h : OneOfEach (dropFront i lists) parts) :
    OneOfEach lists parts := by
  induction lists generalizing parts with
  | nil => exact h
  | cons list rest ih =>
    simp only [dropFront] at h
    split at h
    · cases h with
      | cons hi hrest => exact .cons (List.mem_of_mem_tail hi) hrest
    · cases h with
      | cons hi hrest => exact .cons hi (ih hrest)

/-- A step of a sweep finds the span of the first intervals of all lists, if it keeps to the limit,
and removes the one that comes first. -/
theorem mem_sweep_succ {fuel : Nat} {head : Interval} {heads : List Interval}
    (hheads : lists.mapM List.head? = some (head :: heads)) :
    span ∈ sweep maxGaps (fuel + 1) lists ↔
      span.Spans (head :: heads) ∧ gapsWithin maxGaps span (head :: heads) = true ∨
        span ∈ sweep maxGaps fuel (dropFront (Interval.earliest head heads) lists) := by
  have hspans := Interval.spans_earliest head heads
  rw [sweep.eq_def maxGaps (fuel + 1) lists, hheads]
  dsimp only
  split
  · next hgaps =>
    refine List.mem_cons.trans (or_congr_left ⟨?_, fun h => h.1.eq hspans⟩)
    rintro rfl
    exact ⟨hspans, hgaps⟩
  · next hgaps =>
    refine ⟨.inr, fun h => h.resolve_left fun ⟨hspan, hwithin⟩ => hgaps ?_⟩
    exact hspan.eq hspans ▸ hwithin

/-- A sweep comes to its end where a list is used up. -/
theorem sweep_eq_nil {fuel : Nat}
    (h : ∀ head heads, lists.mapM List.head? ≠ some (head :: heads)) :
    sweep maxGaps fuel lists = [] := by
  unfold sweep
  split
  · next head heads hheads => exact absurd hheads (h head heads)
  · rfl

/-- What a sweep finds are spans of the first intervals of what is left of each list. -/
theorem exists_parts_of_mem_sweep {fuel : Nat} (h : span ∈ sweep maxGaps fuel lists) :
    ∃ parts, OneOfEach lists parts ∧ span.Spans parts ∧ gapsWithin maxGaps span parts = true := by
  induction fuel generalizing lists with
  | zero => exact absurd h List.not_mem_nil
  | succ fuel ih =>
    by_cases hheads : ∃ head heads, lists.mapM List.head? = some (head :: heads)
    · obtain ⟨head, heads, hheads⟩ := hheads
      rcases (mem_sweep_succ hheads).mp h with ⟨hspans, hgaps⟩ | h
      · exact ⟨head :: heads, oneOfEach_of_mapM_head? hheads, hspans, hgaps⟩
      · obtain ⟨parts, hone, hparts⟩ := ih h
        exact ⟨parts, hone.of_dropFront, hparts⟩
    · rw [sweep_eq_nil fun head heads heq => hheads ⟨head, heads, heq⟩] at h
      exact absurd h List.not_mem_nil

/-! ### Intervals of all sources -/

/-- The property holds of the positions of the tokens of a field, and of a span if it holds of the
parts. -/
structure Hereditary (field : FieldIndex) (P : Interval → Prop) : Prop where
  first_le_last : ∀ i, P i → i.first ≤ i.last
  point : ∀ t ∈ field.tokens, P (.point t.position)
  span : ∀ span parts, span.Spans parts → (∀ i ∈ parts, P i) → P span

mutual

/-- A hereditary property holds of all intervals of a source. -/
theorem Hereditary.of_mem_intervals {P : Interval → Prop} (h : Hereditary field P) :
    (source : IntervalSource) → ∀ i ∈ source.intervals field, P i
  | .term text, i, hi => by
    rw [intervals, Sorted.mem_ofList] at hi
    obtain ⟨position, hposition, rfl⟩ := List.mem_map.mp hi
    obtain ⟨t, ht, rfl⟩ := List.mem_map.mp hposition
    exact h.point t (List.mem_filter.mp ht).1
  | .ordered sources _, i, hi => by
    rw [intervals, Sorted.mem_ofList] at hi
    have hsources := h.of_mem_intervalsOfEach sources
    obtain ⟨parts, hone, -, hparts, -⟩ := exists_parts_of_mem_chainSpans
      (fun list hlist j hj => h.first_le_last j (hsources list hlist j hj)) hi
    exact h.span i parts hparts (hone.forall_mem hsources)
  | .unordered sources _, i, hi => by
    rw [intervals, Sorted.mem_ofList] at hi
    obtain ⟨parts, hone, hparts, -⟩ := exists_parts_of_mem_sweep hi
    exact h.span i parts hparts (hone.forall_mem (h.of_mem_intervalsOfEach sources))
  | .anyOf sources, i, hi => by
    rw [intervals, Sorted.mem_ofList] at hi
    obtain ⟨list, hlist, hi⟩ := List.mem_flatten.mp hi
    exact h.of_mem_intervalsOfEach sources list hlist i hi
  | .without source _, i, hi => by
    rw [intervals] at hi
    exact h.of_mem_intervals source i (List.mem_filter.mp hi).1

theorem Hereditary.of_mem_intervalsOfEach {P : Interval → Prop} (h : Hereditary field P) :
    (sources : List IntervalSource) → ∀ list ∈ intervalsOfEach field sources, ∀ i ∈ list, P i
  | [] => fun _ hlist => absurd hlist List.not_mem_nil
  | source :: rest =>
    List.forall_mem_cons.mpr ⟨h.of_mem_intervals source, h.of_mem_intervalsOfEach rest⟩

end

/-- An interval does not end before it begins. -/
theorem first_le_last (source : IntervalSource) :
    ∀ i ∈ source.intervals field, i.first ≤ i.last := by
  refine Hereditary.of_mem_intervals ⟨fun _ h => h, fun t _ => Nat.le_refl t.position, ?_⟩ source
  intro span parts h hparts
  obtain ⟨i, hi, hfirst⟩ := h.exists_first
  exact hfirst ▸ Nat.le_trans (hparts i hi) (h.le_last i hi)

/-- The intervals of a source are in order and without repetitions. -/
theorem increasing_intervals : (source : IntervalSource) →
    Sorted.Increasing (source.intervals field)
  | .term _ | .ordered _ _ | .unordered _ _ | .anyOf _ => by
    rw [intervals]
    exact Sorted.increasing_ofList _
  | .without source _ => by
    rw [intervals]
    exact (increasing_intervals source).sublist List.filter_sublist

theorem intervalsOfEach_eq_map (field : FieldIndex) (sources : List IntervalSource) :
    intervalsOfEach field sources = sources.map (intervals field) := by
  induction sources with
  | nil => rfl
  | cons source rest ih => rw [intervalsOfEach, List.map_cons, ih]

theorem first_le_last_of_mem_each {sources : List IntervalSource} :
    ∀ list ∈ intervalsOfEach field sources, ∀ i ∈ list, i.first ≤ i.last := by
  rw [intervalsOfEach_eq_map]
  exact List.forall_mem_map.mpr fun source _ => first_le_last source

/-- An interval of an ordered source is the span of one interval of each source, each behind the
one before, that leave no more positions uncovered than the limit allows. -/
theorem exists_parts_of_mem_ordered {sources : List IntervalSource}
    (h : span ∈ (ordered sources maxGaps).intervals field) :
    ∃ parts, OneOfEach (intervalsOfEach field sources) parts ∧
      parts.Pairwise (·.last < ·.first) ∧ span.Spans parts ∧
      gapsWithin maxGaps span parts = true := by
  rw [intervals, Sorted.mem_ofList] at h
  exact exists_parts_of_mem_chainSpans first_le_last_of_mem_each h

/-- An interval of an unordered source is the span of one interval of each source that leave no
more positions uncovered than the limit allows. -/
theorem exists_parts_of_mem_unordered {sources : List IntervalSource}
    (h : span ∈ (unordered sources maxGaps).intervals field) :
    ∃ parts, OneOfEach (intervalsOfEach field sources) parts ∧ span.Spans parts ∧
      gapsWithin maxGaps span parts = true := by
  rw [intervals, Sorted.mem_ofList] at h
  exact exists_parts_of_mem_sweep h

/-- Where an ordered source has intervals, so does each of its sources. -/
theorem intervalsOfEach_ne_nil_of_ordered {sources : List IntervalSource}
    (h : (ordered sources maxGaps).intervals field ≠ []) :
    ∀ list ∈ intervalsOfEach field sources, list ≠ [] := by
  obtain ⟨span, hspan⟩ := List.exists_mem_of_ne_nil _ h
  obtain ⟨parts, hone, -⟩ := exists_parts_of_mem_ordered hspan
  exact hone.ne_nil

/-- Where an unordered source has intervals, so does each of its sources. -/
theorem intervalsOfEach_ne_nil_of_unordered {sources : List IntervalSource}
    (h : (unordered sources maxGaps).intervals field ≠ []) :
    ∀ list ∈ intervalsOfEach field sources, list ≠ [] := by
  obtain ⟨span, hspan⟩ := List.exists_mem_of_ne_nil _ h
  obtain ⟨parts, hone, -⟩ := exists_parts_of_mem_unordered hspan
  exact hone.ne_nil

end IntervalSource

end Percolator
