import Percolator.Proofs.Interval.Ordered

/-!
# The sweep over unordered sources

The sweep of an unordered source comes to the intervals of all lists in their order, and to equal
ones in the order of the lists. When it comes to an interval, it has in front of it the first
intervals of the other lists that it did not come to before; their common span is found, unless
some list has no such interval. One choice of parts is looked at for each interval, so that choices
with fewer gaps may be missed. And as the lengths of the parts are added up, positions that parts
share make the limit admit more gaps than it says. Where the parts never overlap, all that is found
keeps to the limit, and where no later interval of a list is longer, nothing is missed.

## Main definitions

* `IntervalSource.SweptFrom`, `IntervalSource.Swept` : the choices that a sweep looks at.
* `IntervalSource.Gathered` : a choice of parts that keeps to a limit on gaps.

## Main results

* `IntervalSource.mem_unordered_iff` : the intervals of an unordered source.
* `IntervalSource.unordered_within_gaps` : the intervals of an unordered source with a limit.
-/

namespace Percolator

namespace Interval

variable {i j : Interval} {list : List Interval} {p : Interval → Prop}

/-! ### The first interval with a property -/

/-- The property holds of the interval, and of none before it in the list. -/
structure FirstOf (p : Interval → Prop) (list : List Interval) (i : Interval) : Prop where
  mem : i ∈ list
  holds : p i
  not_before : ∀ j ∈ list, p j → ¬j.Before i

theorem FirstOf.eq (hi : FirstOf p list i) (hj : FirstOf p list j) : i = j :=
  eq_of_not_before (hj.not_before i hi.mem hi.holds) (hi.not_before j hj.mem hj.holds)

theorem FirstOf.of_iff {q : Interval → Prop} (hpq : ∀ j ∈ list, p j ↔ q j)
    (h : FirstOf p list i) : FirstOf q list i :=
  ⟨h.mem, (hpq i h.mem).mp h.holds, fun j hj hqj => h.not_before j hj ((hpq j hj).mpr hqj)⟩

theorem firstOf_cons_of_not (hi : ¬p i) : FirstOf p (i :: list) j ↔ FirstOf p list j := by
  refine ⟨fun h => ?_, fun h => ?_⟩
  · obtain ⟨hmem, hj, hfirst⟩ := h
    have hne : j ≠ i := fun heq => hi (heq ▸ hj)
    exact ⟨(List.mem_cons.mp hmem).resolve_left hne, hj, (List.forall_mem_cons.mp hfirst).2⟩
  · exact ⟨List.mem_cons_of_mem i h.mem, h.holds,
      List.forall_mem_cons.mpr ⟨fun hp => absurd hp hi, h.not_before⟩⟩

theorem firstOf_head (hincreasing : Sorted.Increasing (i :: list)) (hi : p i) :
    FirstOf p (i :: list) i := by
  refine ⟨List.mem_cons_self, hi, List.forall_mem_cons.mpr ⟨fun _ => Before.irrefl i, ?_⟩⟩
  intro j hj _ hji
  exact Before.irrefl i ((before_of_increasing hincreasing j hj).trans hji)

theorem exists_firstOf (hincreasing : Sorted.Increasing list) (hj : j ∈ list) (hp : p j) :
    ∃ i, FirstOf p list i := by
  induction list with
  | nil => exact absurd hj List.not_mem_nil
  | cons k rest ih =>
    by_cases hk : p k
    · exact ⟨k, firstOf_head hincreasing hk⟩
    · have hne : j ≠ k := fun heq => hk (heq ▸ hp)
      obtain ⟨i, hi⟩ := ih (List.pairwise_cons.mp hincreasing).2
        ((List.mem_cons.mp hj).resolve_left hne)
      exact ⟨i, (firstOf_cons_of_not hk).mpr hi⟩

end Interval

namespace IntervalSource

variable {field : FieldIndex} {maxGaps : Option Nat} {sources : List IntervalSource}
  {lists : List (List Interval)} {heads parts others : List Interval} {front m span : Interval}
  {gaps : Nat}

/-! ### What a sweep has in front of it -/

/-- What a sweep has in front of it when it comes to the interval `m` of one of the lists: from the
lists before that one the first intervals behind `m`, and from the lists after it the first ones
that are not before `m`. -/
inductive SweptFrom (m : Interval) : List (List Interval) → List Interval → Prop
  | here {list rest parts} (hmem : m ∈ list)
      (hrest : List.Forall₂ (Interval.FirstOf fun i => ¬i.Before m) rest parts) :
      SweptFrom m (list :: rest) (m :: parts)
  | there {list i rest parts} (hfirst : Interval.FirstOf m.Before list i)
      (hrest : SweptFrom m rest parts) : SweptFrom m (list :: rest) (i :: parts)

/-- What a sweep has in front of it when it comes to some interval. -/
def Swept (lists : List (List Interval)) (parts : List Interval) : Prop :=
  ∃ m, SweptFrom m lists parts

theorem SweptFrom.oneOfEach (h : SweptFrom m lists parts) : OneOfEach lists parts := by
  induction h with
  | here hmem hrest => exact .cons hmem (hrest.imp fun _ _ hfirst => hfirst.mem)
  | there hfirst _ ih => exact .cons hfirst.mem ih

theorem SweptFrom.mem (h : SweptFrom m lists parts) : m ∈ parts := by
  induction h with
  | here _ _ => exact List.mem_cons_self
  | there _ _ ih => exact List.mem_cons_of_mem _ ih

theorem SweptFrom.not_before (h : SweptFrom m lists parts) : ∀ i ∈ parts, ¬i.Before m := by
  induction h with
  | here _ hrest =>
    refine List.forall_mem_cons.mpr ⟨Interval.Before.irrefl m, ?_⟩
    induction hrest with
    | nil => exact fun _ hi => absurd hi List.not_mem_nil
    | cons hfirst _ ih => exact List.forall_mem_cons.mpr ⟨hfirst.holds, ih⟩
  | there hfirst _ ih =>
    refine List.forall_mem_cons.mpr ⟨fun hbefore => ?_, ih⟩
    exact Interval.Before.irrefl m (hfirst.holds.trans hbefore)

theorem SweptFrom.exists_mem (h : SweptFrom m lists parts) : ∃ list ∈ lists, m ∈ list := by
  induction h with
  | here hmem _ => exact ⟨_, List.mem_cons_self, hmem⟩
  | there _ _ ih =>
    obtain ⟨list, hlist, hm⟩ := ih
    exact ⟨list, List.mem_cons_of_mem _ hlist, hm⟩

/-! ### The first intervals of lists -/

theorem SweptFrom.exists_heads (h : SweptFrom m lists parts) :
    ∃ head rest, lists.mapM List.head? = some (head :: rest) := by
  obtain ⟨heads, hheads⟩ := h.oneOfEach.exists_heads
  cases h with
  | here _ _ | there _ _ =>
    obtain ⟨head, -, rest, -, -, rfl⟩ := mapM_head?_cons.mp hheads
    exact ⟨head, rest, hheads⟩

/-- What is not before the first interval of a list is not before any of them. -/
theorem not_before_of_heads (hincreasing : ∀ list ∈ lists, Sorted.Increasing list)
    (hheads : lists.mapM List.head? = some heads) (hfront : ∀ i ∈ heads, ¬i.Before front) :
    ∀ list ∈ lists, ∀ i ∈ list, ¬i.Before front := by
  induction lists generalizing heads with
  | nil => exact fun _ hlist => absurd hlist List.not_mem_nil
  | cons list rest ih =>
    obtain ⟨head, tail, others, rfl, hothers, rfl⟩ := mapM_head?_cons.mp hheads
    obtain ⟨hlist, hrest⟩ := List.forall_mem_cons.mp hincreasing
    obtain ⟨hhead, hothersFront⟩ := List.forall_mem_cons.mp hfront
    refine List.forall_mem_cons.mpr ⟨List.forall_mem_cons.mpr ⟨hhead, fun i hi hbefore => ?_⟩,
      ih hrest hothers hothersFront⟩
    exact hhead ((Interval.before_of_increasing hlist i hi).trans hbefore)

theorem firstOf_heads (hincreasing : ∀ list ∈ lists, Sorted.Increasing list)
    (hheads : lists.mapM List.head? = some heads)
    (hleast : ∀ list ∈ lists, ∀ i ∈ list, ¬i.Before front) :
    List.Forall₂ (Interval.FirstOf fun i => ¬i.Before front) lists heads := by
  induction lists generalizing heads with
  | nil =>
    obtain rfl := Option.some.inj hheads
    exact .nil
  | cons list rest ih =>
    obtain ⟨head, tail, others, rfl, hothers, rfl⟩ := mapM_head?_cons.mp hheads
    obtain ⟨hlist, hrest⟩ := List.forall_mem_cons.mp hincreasing
    obtain ⟨hhead, hothersLeast⟩ := List.forall_mem_cons.mp hleast
    exact .cons (Interval.firstOf_head hlist (hhead head List.mem_cons_self))
      (ih hrest hothers hothersLeast)

/-! ### Removing the first interval -/

theorem increasing_dropFront (hincreasing : ∀ list ∈ lists, Sorted.Increasing list) :
    ∀ list ∈ dropFront front lists, Sorted.Increasing list := by
  induction lists with
  | nil => exact hincreasing
  | cons list rest ih =>
    obtain ⟨hlist, hrest⟩ := List.forall_mem_cons.mp hincreasing
    simp only [dropFront]
    split
    · exact List.forall_mem_cons.mpr ⟨hlist.sublist (List.tail_sublist list), hrest⟩
    · exact List.forall_mem_cons.mpr ⟨hlist, ih hrest⟩

theorem length_flatten_dropFront (hheads : lists.mapM List.head? = some heads)
    (hfront : front ∈ heads) :
    (dropFront front lists).flatten.length + 1 = lists.flatten.length := by
  induction lists generalizing heads with
  | nil =>
    obtain rfl := Option.some.inj hheads
    exact absurd hfront List.not_mem_nil
  | cons list rest ih =>
    obtain ⟨head, tail, others, rfl, hothers, rfl⟩ := mapM_head?_cons.mp hheads
    simp only [dropFront, List.head?_cons, Option.some.injEq]
    split
    · simp only [List.tail_cons, List.flatten_cons, List.length_append, List.length_cons]
      omega
    · next hne =>
      have hrest := ih hothers ((List.mem_cons.mp hfront).resolve_left (Ne.symm hne))
      simp only [List.flatten_cons, List.length_append]
      omega

/-- What is not before a later interval is not affected when an earlier one is removed. -/
theorem forall₂_firstOf_dropFront (hfront : front.Before m) :
    List.Forall₂ (Interval.FirstOf fun i => ¬i.Before m) (dropFront front lists) parts ↔
      List.Forall₂ (Interval.FirstOf fun i => ¬i.Before m) lists parts := by
  induction lists generalizing parts with
  | nil => exact Iff.rfl
  | cons list rest ih =>
    simp only [dropFront]
    split
    · next hhead =>
      obtain ⟨tail, rfl⟩ := List.head?_eq_some_iff.mp hhead
      simp only [List.tail_cons, List.forall₂_cons_left_iff,
        Interval.firstOf_cons_of_not (p := fun i => ¬i.Before m) (not_not_intro hfront)]
    · simp only [List.forall₂_cons_left_iff, ih]

/-- If the first interval of all is removed from the first list, the sweep loses what it has in
front of it when it comes to this interval. -/
theorem sweptFrom_cons_front {tail : List Interval}
    (hheads : List.Forall₂ (Interval.FirstOf fun i => ¬i.Before front) lists heads)
    (hleast : ∀ list ∈ lists, ∀ i ∈ list, ¬i.Before front) :
    SweptFrom m ((front :: tail) :: lists) parts ↔
      m = front ∧ parts = front :: heads ∨ SweptFrom m (tail :: lists) parts := by
  have hfront : ∀ {parts}, SweptFrom m lists parts → ¬m.Before front := by
    intro parts htail
    obtain ⟨list, hlist, hm⟩ := htail.exists_mem
    exact hleast list hlist m hm
  refine ⟨fun h => ?_, ?_⟩
  · cases h with
    | here hmem htail =>
      rcases List.mem_cons.mp hmem with rfl | hmem
      · have heq := List.right_unique_forall₂' (fun _ _ _ hi hj => hi.eq hj) htail hheads
        exact .inl ⟨rfl, congrArg (m :: ·) heq⟩
      · exact .inr (.here hmem htail)
    | there hfirst htail =>
      exact .inr (.there ((Interval.firstOf_cons_of_not (hfront htail)).mp hfirst) htail)
  · rintro (⟨rfl, rfl⟩ | h)
    · exact .here List.mem_cons_self hheads
    · cases h with
      | here hmem htail => exact .here (List.mem_cons_of_mem _ hmem) htail
      | there hfirst htail =>
        exact .there ((Interval.firstOf_cons_of_not (hfront htail)).mpr hfirst) htail

/-- If the first interval of all is removed from a later list, nothing changes for the intervals of
the first list. -/
theorem sweptFrom_cons_behind {head : Interval} {tail : List Interval}
    (hlist : Sorted.Increasing (head :: tail)) (hbehind : ∀ i ∈ head :: tail, front.Before i)
    (hlists : ∀ {parts}, SweptFrom m lists parts ↔
      m = front ∧ parts = heads ∨ SweptFrom m (dropFront front lists) parts) :
    SweptFrom m ((head :: tail) :: lists) parts ↔
      m = front ∧ parts = head :: heads ∨
        SweptFrom m ((head :: tail) :: dropFront front lists) parts := by
  have hhead : Interval.FirstOf front.Before (head :: tail) head :=
    Interval.firstOf_head hlist (hbehind head List.mem_cons_self)
  refine ⟨fun h => ?_, ?_⟩
  · cases h with
    | here hmem htail =>
      exact .inr (.here hmem ((forall₂_firstOf_dropFront (hbehind m hmem)).mpr htail))
    | there hfirst htail =>
      rcases hlists.mp htail with ⟨rfl, rfl⟩ | htail
      · exact .inl ⟨rfl, congrArg (· :: _) (hfirst.eq hhead)⟩
      · exact .inr (.there hfirst htail)
  · rintro (⟨rfl, rfl⟩ | h)
    · exact .there hhead (hlists.mpr (.inl ⟨rfl, rfl⟩))
    · cases h with
      | here hmem htail =>
        exact .here hmem ((forall₂_firstOf_dropFront (hbehind m hmem)).mp htail)
      | there hfirst htail => exact .there hfirst (hlists.mpr (.inr htail))

/-- A sweep has the first intervals of all lists in front of it when it comes to the one that is
first of all, and then what it would have without that one. -/
theorem sweptFrom_iff_dropFront (hincreasing : ∀ list ∈ lists, Sorted.Increasing list)
    (hheads : lists.mapM List.head? = some heads) (hfront : front ∈ heads)
    (hleast : ∀ list ∈ lists, ∀ i ∈ list, ¬i.Before front) :
    SweptFrom m lists parts ↔
      m = front ∧ parts = heads ∨ SweptFrom m (dropFront front lists) parts := by
  induction lists generalizing heads parts with
  | nil =>
    obtain rfl := Option.some.inj hheads
    exact absurd hfront List.not_mem_nil
  | cons list rest ih =>
    obtain ⟨head, tail, others, rfl, hothers, rfl⟩ := mapM_head?_cons.mp hheads
    obtain ⟨hlist, hrest⟩ := List.forall_mem_cons.mp hincreasing
    obtain ⟨hleastList, hleastRest⟩ := List.forall_mem_cons.mp hleast
    by_cases hhead : head = front
    · subst hhead
      rw [show dropFront head ((head :: tail) :: rest) = tail :: rest from if_pos rfl]
      exact sweptFrom_cons_front (firstOf_heads hrest hothers hleastRest) hleastRest
    · have hdrop : dropFront front ((head :: tail) :: rest) =
          (head :: tail) :: dropFront front rest :=
        if_neg fun heq => hhead (Option.some.inj heq)
      -- The list begins behind `front`, and goes on behind it.
      have hbehind : ∀ i ∈ head :: tail, front.Before i := by
        have hfrontHead : front.Before head := by_contra fun hnot =>
          hhead (Interval.eq_of_not_before (hleastList head List.mem_cons_self) hnot)
        exact List.forall_mem_cons.mpr ⟨hfrontHead, fun i hi =>
          hfrontHead.trans (Interval.before_of_increasing hlist i hi)⟩
      rw [hdrop]
      exact sweptFrom_cons_behind hlist hbehind
        (ih hrest hothers ((List.mem_cons.mp hfront).resolve_left (Ne.symm hhead)) hleastRest)

/-- A sweep that goes on for long enough finds the spans of all that it has in front of it and that
keeps to the limit. -/
theorem mem_sweep_iff {fuel : Nat} (hincreasing : ∀ list ∈ lists, Sorted.Increasing list)
    (hfuel : lists.flatten.length ≤ fuel) :
    span ∈ sweep maxGaps fuel lists ↔
      ∃ parts, Swept lists parts ∧ span.Spans parts ∧ gapsWithin maxGaps span parts = true := by
  induction fuel generalizing lists with
  | zero =>
    refine iff_of_false List.not_mem_nil ?_
    rintro ⟨parts, ⟨m, hswept⟩, -⟩
    obtain ⟨list, hlist, hm⟩ := hswept.exists_mem
    have hpos := List.length_pos_of_mem (List.mem_flatten_of_mem hlist hm)
    omega
  | succ fuel ih =>
    by_cases hheads : ∃ head heads, lists.mapM List.head? = some (head :: heads)
    · obtain ⟨head, heads, hheads⟩ := hheads
      have hfront := Interval.earliest_mem head heads
      have hleast := not_before_of_heads hincreasing hheads
        (Interval.not_before_earliest head heads)
      have hlength := length_flatten_dropFront hheads hfront
      have hswept : ∀ parts, Swept lists parts ↔ parts = head :: heads ∨
          Swept (dropFront (Interval.earliest head heads) lists) parts := fun parts => by
        simp only [Swept, sweptFrom_iff_dropFront hincreasing hheads hfront hleast, exists_or,
          exists_eq_left]
      rw [mem_sweep_succ hheads, ih (increasing_dropFront hincreasing) (by omega)]
      simp only [hswept, or_and_right, exists_or, exists_eq_left]
    · rw [sweep_eq_nil fun head heads heq => hheads ⟨head, heads, heq⟩]
      refine iff_of_false List.not_mem_nil ?_
      rintro ⟨parts, ⟨m, hswept⟩, -⟩
      exact hheads hswept.exists_heads

/-- The intervals of an unordered source are the spans of what the sweep has in front of it when it
comes to the intervals of its sources, if they keep to the limit. -/
theorem mem_unordered_iff : span ∈ (unordered sources maxGaps).intervals field ↔
    ∃ parts, Swept (intervalsOfEach field sources) parts ∧ span.Spans parts ∧
      gapsWithin maxGaps span parts = true := by
  rw [intervals, Sorted.mem_ofList]
  exact mem_sweep_iff increasing_of_mem_each (Nat.le_refl _)

/-! ### Choices within a limit on gaps -/

/-- One interval of each list, wherever they stand, that leave no more positions of their span
uncovered than the limit says. -/
structure Gathered (lists : List (List Interval)) (gaps : Nat) (parts : List Interval)
    (span : Interval) : Prop where
  oneOfEach : OneOfEach lists parts
  spans : span.Spans parts
  uncovered_le : Interval.uncovered span parts ≤ gaps

theorem OneOfEach.exists_firstOf (hone : OneOfEach lists others)
    (hincreasing : ∀ list ∈ lists, Sorted.Increasing list) (hfirst : ∀ i ∈ others, ¬i.Before m) :
    ∃ parts, List.Forall₂ (Interval.FirstOf fun i => ¬i.Before m) lists parts ∧
      List.Forall₂ (fun part other => ¬other.Before part) parts others := by
  induction hone with
  | nil => exact ⟨[], .nil, .nil⟩
  | cons hi _ ih =>
    obtain ⟨hlist, hlists⟩ := List.forall_mem_cons.mp hincreasing
    obtain ⟨hother, hothers⟩ := List.forall_mem_cons.mp hfirst
    obtain ⟨part, hpart⟩ := Interval.exists_firstOf (p := fun i => ¬i.Before m) hlist hi hother
    obtain ⟨parts, hparts, hle⟩ := ih hlists hothers
    exact ⟨part :: parts, .cons hpart hparts, .cons (hpart.not_before _ hi hother) hle⟩

/-- From each choice of parts the sweep has another one in front of it when it comes to the first
of them, and none of its parts is behind the chosen one. -/
theorem OneOfEach.exists_sweptFrom (hone : OneOfEach lists others)
    (hincreasing : ∀ list ∈ lists, Sorted.Increasing list) (hm : m ∈ others)
    (hfirst : ∀ i ∈ others, ¬i.Before m) :
    ∃ parts, SweptFrom m lists parts ∧
      List.Forall₂ (fun part other => ¬other.Before part) parts others := by
  induction hone with
  | nil => exact absurd hm List.not_mem_nil
  | @cons list other lists others hi hone ih =>
    obtain ⟨hlist, hlists⟩ := List.forall_mem_cons.mp hincreasing
    obtain ⟨hother, hothers⟩ := List.forall_mem_cons.mp hfirst
    by_cases heq : other = m
    · subst heq
      obtain ⟨parts, hparts, hle⟩ := OneOfEach.exists_firstOf hone hlists hothers
      exact ⟨other :: parts, .here hi hparts, .cons (Interval.Before.irrefl other) hle⟩
    · have hbehind : m.Before other := by_contra fun hnot =>
        heq (Interval.eq_of_not_before hother hnot)
      obtain ⟨part, hpart⟩ := Interval.exists_firstOf hlist hi hbehind
      obtain ⟨parts, hparts, hle⟩ :=
        ih hlists ((List.mem_cons.mp hm).resolve_left (Ne.symm heq)) hothers
      exact ⟨part :: parts, .there hpart hparts, .cons (hpart.not_before other hi hbehind) hle⟩

/-- Where no later interval of a list is longer, intervals that are not behind others of their
lists do not end behind them either. -/
theorem forall₂_last_le (hforward : ∀ list ∈ lists, ∀ i ∈ list, i.first ≤ i.last)
    (hlonger : NoneLonger lists) (hparts : OneOfEach lists parts) (hothers : OneOfEach lists others)
    (hle : List.Forall₂ (fun part other => ¬other.Before part) parts others) :
    List.Forall₂ (fun part other => part.last ≤ other.last) parts others := by
  induction hle generalizing lists with
  | nil => exact .nil
  | @cons part other parts others hbefore _ ih =>
    cases hparts with
    | cons hpart hparts =>
      cases hothers with
      | cons hother hothers =>
        obtain ⟨hlist, hlists⟩ := List.forall_mem_cons.mp hforward
        obtain ⟨hlistLonger, hlistsLonger⟩ := List.forall_mem_cons.mp hlonger
        refine .cons (Nat.le_of_not_lt fun hlt => ?_) (ih hlists hlistsLonger hparts hothers)
        -- Else the part would begin no later and end later than an interval not longer than it is.
        have hlength := hlistLonger other hother part hpart (Nat.le_of_lt hlt)
        have hpartForward := hlist part hpart
        have hotherForward := hlist other hother
        simp only [Interval.length] at hlength
        simp only [Interval.Before] at hbefore
        omega

/-- Parts that do not end behind others end before these come to an end. -/
theorem forall_last_le {n : Nat}
    (h : List.Forall₂ (fun part other => part.last ≤ other.last) parts others)
    (hothers : ∀ other ∈ others, other.last ≤ n) : ∀ part ∈ parts, part.last ≤ n := by
  induction h with
  | nil => exact fun _ hpart => absurd hpart List.not_mem_nil
  | cons hle _ ih =>
    obtain ⟨hother, hothers⟩ := List.forall_mem_cons.mp hothers
    exact List.forall_mem_cons.mpr ⟨Nat.le_trans hle hother, ih hothers⟩

/-- Where no later interval of a list is longer, the sweep finds a span if some choice keeps to the
limit. -/
theorem Gathered.exists_swept (hforward : ∀ list ∈ lists, ∀ i ∈ list, i.first ≤ i.last)
    (hincreasing : ∀ list ∈ lists, Sorted.Increasing list) (hlonger : NoneLonger lists)
    (h : Gathered lists gaps others span) :
    ∃ parts found, Swept lists parts ∧ found.Spans parts ∧
      gapsWithin (some gaps) found parts = true := by
  obtain ⟨hone, hspans, huncovered⟩ := h
  obtain ⟨i, hi, hifirst⟩ := hspans.exists_first
  obtain ⟨other, rest, rfl⟩ := List.exists_cons_of_ne_nil (List.ne_nil_of_mem hi)
  have hm := Interval.earliest_mem other rest
  obtain ⟨parts, hswept, hle⟩ :=
    hone.exists_sweptFrom hincreasing hm (Interval.not_before_earliest other rest)
  have hlast := forall₂_last_le hforward hlonger hswept.oneOfEach hone hle
  have htotal := totalLength_le hlonger hswept.oneOfEach hone hlast
  -- The span of what the sweep has in front of it lies within that of the choice.
  obtain ⟨part, parts, rfl⟩ := List.exists_cons_of_ne_nil (List.ne_nil_of_mem hswept.mem)
  have hfound := Interval.spans_earliest part parts
  obtain ⟨front, hfront, hfrontFirst⟩ := hfound.exists_first
  obtain ⟨back, hback, hbackLast⟩ := hfound.exists_last
  have hmfront : (Interval.earliest other rest).first ≤ front.first :=
    Nat.le_of_not_lt fun hlt => hswept.not_before front hfront (.inl hlt)
  have hfirst := hspans.first_le _ hm
  have hbackLe := forall_last_le hlast hspans.le_last back hback
  have hlength := hspans.length_eq (hone.forall_mem hforward)
  have hcard := Interval.card_covered_le (hone.forall_mem hforward)
  refine ⟨part :: parts, _, ⟨_, hswept⟩, hfound, gapsWithin_some.mpr ?_⟩
  rw [Interval.length] at hlength ⊢
  omega

/-- An unordered source with a limit on gaps has the spans of what the sweep has in front of it when
it comes to the intervals of its sources, if they leave no more positions uncovered than the limit
says and their parts count again. Where no interval of a source overlaps one of another source,
these are spans of choices that keep to the limit. Where no later interval of a source is longer,
there is an interval if some choice keeps to the limit. -/
theorem unordered_within_gaps (field : FieldIndex) (sources : List IntervalSource) (gaps : Nat) :
    (∀ span, span ∈ (unordered sources (some gaps)).intervals field ↔
      ∃ parts, Swept (intervalsOfEach field sources) parts ∧ span.Spans parts ∧
        Interval.uncovered span parts ≤ gaps + Interval.overlap parts) ∧
    (Apart (intervalsOfEach field sources) →
      ∀ span ∈ (unordered sources (some gaps)).intervals field,
        ∃ parts, Gathered (intervalsOfEach field sources) gaps parts span) ∧
    (NoneLonger (intervalsOfEach field sources) →
      (∃ parts span, Gathered (intervalsOfEach field sources) gaps parts span) →
        (unordered sources (some gaps)).intervals field ≠ []) := by
  have hiff : ∀ span, span ∈ (unordered sources (some gaps)).intervals field ↔
      ∃ parts, Swept (intervalsOfEach field sources) parts ∧ span.Spans parts ∧
        Interval.uncovered span parts ≤ gaps + Interval.overlap parts := fun span => by
    rw [mem_unordered_iff]
    refine exists_congr fun parts => and_congr_right fun hswept => and_congr_right fun hspans => ?_
    obtain ⟨m, hswept⟩ := hswept
    exact gapsWithin_iff hspans (hswept.oneOfEach.forall_mem first_le_last_of_mem_each)
  refine ⟨hiff, fun hapart span hspan => ?_, ?_⟩
  · obtain ⟨parts, ⟨m, hswept⟩, hspans, huncovered⟩ := (hiff span).mp hspan
    have hone := hswept.oneOfEach
    rw [Interval.overlap_eq_zero (hone.forall_mem first_le_last_of_mem_each) (hapart.pairwise hone),
      Nat.add_zero] at huncovered
    exact ⟨parts, hone, hspans, huncovered⟩
  · rintro hlonger ⟨parts, span, hgathered⟩
    obtain ⟨found, span, hswept⟩ :=
      hgathered.exists_swept first_le_last_of_mem_each increasing_of_mem_each hlonger
    exact List.ne_nil_of_mem (mem_unordered_iff.mpr ⟨found, hswept⟩)

/-- A term and a pair of terms that do not overlap, found on both sides of each other. -/
theorem unordered_within_gaps_nested : ∃ d,
    Document.build "d" (.pipeline ⟨" ", .literal [' '], true⟩ [])
      [("body", .text "a x b c a" none)] = .ok d ∧
    let sources : List IntervalSource := [.term "a", .ordered [.term "b", .term "c"] none]
    let field := d.index.field "body"
    Apart (intervalsOfEach field sources) ∧ NoneLonger (intervalsOfEach field sources) ∧
      Gathered (intervalsOfEach field sources) 1 [⟨0, 0⟩, ⟨2, 3⟩] ⟨0, 3⟩ ∧
      (unordered sources (some 1)).intervals field ≠ [] ∧
      ⟨2, 4⟩ ∈ (unordered sources (some 1)).intervals field ∧
      ∃ parts, Gathered (intervalsOfEach field sources) 1 parts ⟨2, 4⟩ := by
  have hd : Document.build "d" (.pipeline ⟨" ", .literal [' '], true⟩ [])
      [("body", .text "a x b c a" none)] = .ok _ := rfl
  have hfound : ∀ (field : FieldIndex) (sources : List IntervalSource) (parts : List Interval)
      (span other : Interval), Apart (intervalsOfEach field sources) →
      NoneLonger (intervalsOfEach field sources) →
      Gathered (intervalsOfEach field sources) 1 parts span →
      other ∈ (unordered sources (some 1)).intervals field →
      Apart (intervalsOfEach field sources) ∧ NoneLonger (intervalsOfEach field sources) ∧
        Gathered (intervalsOfEach field sources) 1 parts span ∧
        (unordered sources (some 1)).intervals field ≠ [] ∧
        other ∈ (unordered sources (some 1)).intervals field ∧
        ∃ parts, Gathered (intervalsOfEach field sources) 1 parts other :=
    fun field sources parts span other hapart hlonger hgathered hother =>
      have hwithin := unordered_within_gaps field sources 1
      ⟨hapart, hlonger, hgathered, hwithin.2.2 hlonger ⟨_, _, hgathered⟩, hother,
        hwithin.2.1 hapart other hother⟩
  refine ⟨_, hd, hfound _ _ _ _ _ (by decide +kernel) (by decide +kernel) ?_ (by decide +kernel)⟩
  exact ⟨.cons (by decide +kernel) (.cons (by decide +kernel) .nil),
    ⟨by decide, by decide, by decide, by decide⟩, by decide⟩

/-- Two occurrences of a source at one position make up for a gap, so that an interval is found that
is the span of no choice within the limit; and a choice within the limit is missed where the sweep
has a shorter part in front of it and then ends. -/
theorem found_not_gathered_and_gathered_not_found :
    (∃ d, Document.build "d" (.pipeline ⟨" ", .literal [' '], true⟩ [])
        [("body", .text "a x b" none)] = .ok d ∧
      let sources : List IntervalSource := [.term "a", .term "a", .term "b"]
      (unordered sources (some 0)).intervals (d.index.field "body") = [⟨0, 2⟩] ∧
        ¬∃ parts span, Gathered (intervalsOfEach (d.index.field "body") sources) 0 parts span) ∧
    ∃ d, Document.build "d" (.pipeline ⟨" ", .literal [' '], true⟩ [])
        [("body", .text "a b c d e" none)] = .ok d ∧
      let sources : List IntervalSource :=
        [.term "a", .anyOf [.term "b", .ordered [.term "c", .term "d"] none], .term "e"]
      (unordered sources (some 1)).intervals (d.index.field "body") = [] ∧
        ∃ parts span, Gathered (intervalsOfEach (d.index.field "body") sources) 1 parts span := by
  have hshared : Document.build "d" (.pipeline ⟨" ", .literal [' '], true⟩ [])
      [("body", .text "a x b" none)] = .ok _ := rfl
  have hmissed : Document.build "d" (.pipeline ⟨" ", .literal [' '], true⟩ [])
      [("body", .text "a b c d e" none)] = .ok _ := rfl
  refine ⟨⟨_, hshared, by decide +kernel, ?_⟩, _, hmissed, by decide +kernel,
    [⟨0, 0⟩, ⟨2, 3⟩, ⟨4, 4⟩], ⟨0, 4⟩, ?_⟩
  · rintro ⟨parts, span, hone, hspans, huncovered⟩
    rw [show intervalsOfEach _ _ = [[⟨0, 0⟩], [⟨0, 0⟩], [⟨2, 2⟩]] by decide +kernel] at hone
    rcases hone with _ | ⟨ha, _ | ⟨ha', _ | ⟨hb, _ | _⟩⟩⟩
    obtain rfl := List.mem_singleton.mp ha
    obtain rfl := List.mem_singleton.mp ha'
    obtain rfl := List.mem_singleton.mp hb
    obtain rfl : span = ⟨0, 2⟩ :=
      hspans.eq ⟨by decide, by decide, by decide, by decide⟩
    exact absurd huncovered (by decide)
  · exact ⟨.cons (by decide +kernel) (.cons (by decide +kernel) (.cons (by decide +kernel) .nil)),
      ⟨by decide, by decide, by decide, by decide⟩, by decide⟩

end IntervalSource

end Percolator
