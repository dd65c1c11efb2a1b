import Percolator.Document.Basic
import Percolator.Proofs.Interval.Covered

/-!
# Choices of ordered sources

An ordered source is found hurriedly: behind each interval of its first source the next part is the
one that ends first, and so on. Whoever takes other parts ends no sooner, so that this finds a chain
wherever there is one. But it does not find the one that leaves the fewest positions uncovered: a
part that ends later may be the longer one. Within a limit on gaps an ordered source has therefore
the spans of the hurried choices that keep to the limit, and it may have none although another
choice keeps to it. Where no later interval of a source is longer, nothing is missed. Without a
limit nothing is missed either, and the spans are the shortest ones from where they begin.

## Main definitions

* `IntervalSource.Hurried` : each part behind the first is the one that ends first.
* `IntervalSource.Chosen` : a choice of parts, one behind the other, that keeps to a limit on gaps.
* `IntervalSource.chainEnds` : where the choices from an interval on come to an end.

## Main results

* `IntervalSource.exists_chain?` : a hurried choice exists wherever there is a choice, and each of
  its parts ends no later.
* `IntervalSource.ordered_within_gaps` : the intervals of an ordered source with a limit on gaps.
* `IntervalSource.noneLonger_terms` : nothing is missed where the sources are terms.
* `IntervalSource.ordered_tightest` : the intervals of an ordered source without a limit.
-/

namespace Percolator

namespace Interval

variable {i j : Interval} {is : List Interval}

/-! ### The interval that ends first -/

/-- The interval ends before the other one, or it ends with it and begins no later. -/
def EndsFirst (i j : Interval) : Prop := i.last < j.last ∨ i.last = j.last ∧ i.first ≤ j.first

theorem EndsFirst.antisymm (hij : i.EndsFirst j) (hji : j.EndsFirst i) : i = j := by
  cases i
  cases j
  simp only [EndsFirst] at hij hji
  rw [Interval.mk.injEq]
  omega

/-- Of intervals in order that end together the first one is taken. -/
theorem endsFirst_of_earliestEnd? (hincreasing : Sorted.Increasing is)
    (h : earliestEnd? is = some i) : ∀ j ∈ is, i.EndsFirst j := by
  induction is generalizing i with
  | nil => exact fun _ hj => absurd hj List.not_mem_nil
  | cons k rest ih =>
    have hrest := (List.pairwise_cons.mp hincreasing).2
    have hfirst : ∀ j ∈ rest, k.first ≤ j.first := fun j hj => by
      rcases before_of_increasing hincreasing j hj with hlt | heq
      · exact Nat.le_of_lt hlt
      · exact Nat.le_of_eq heq.1
    have hhead : earliestEnd? (k :: rest) = some k → ∀ j ∈ k :: rest, k.EndsFirst j := by
      intro hk
      have hlast := (List.forall_mem_cons.mp (last_le_of_earliestEnd? hk)).2
      exact List.forall_mem_cons.mpr ⟨.inr ⟨rfl, Nat.le_refl _⟩, fun j hj =>
        (Nat.lt_or_eq_of_le (hlast j hj)).imp_right fun heq => ⟨heq, hfirst j hj⟩⟩
    have hsome := h
    simp only [earliestEnd?] at h
    split at h
    · next l hl =>
      split at h
      · next hlt =>
        obtain rfl := Option.some.inj h
        exact List.forall_mem_cons.mpr ⟨.inl hlt, ih hrest hl⟩
      · obtain rfl := Option.some.inj h
        exact hhead hsome
    · obtain rfl := Option.some.inj h
      exact hhead hsome

theorem exists_earliestEnd? (h : i ∈ is) : ∃ j, earliestEnd? is = some j := by
  obtain ⟨front, rest, rfl⟩ := List.exists_cons_of_ne_nil (List.ne_nil_of_mem h)
  exact Option.ne_none_iff_exists'.mp (earliestEnd?_ne_none front rest)

theorem earliestEnd?_eq_some_iff (hincreasing : Sorted.Increasing is) :
    earliestEnd? is = some i ↔ i ∈ is ∧ ∀ j ∈ is, i.EndsFirst j := by
  refine ⟨fun h => ⟨mem_of_earliestEnd? h, endsFirst_of_earliestEnd? hincreasing h⟩, ?_⟩
  rintro ⟨hi, hends⟩
  obtain ⟨j, hj⟩ := exists_earliestEnd? hi
  have hij := hends j (mem_of_earliestEnd? hj)
  rw [hj, hij.antisymm (endsFirst_of_earliestEnd? hincreasing hj i hi)]

end Interval

namespace IntervalSource

variable {field : FieldIndex} {lists : List (List Interval)} {parts others : List Interval}
  {i j span : Interval} {gaps : Nat}

/-! ### Hurried choices -/

/-- Each of the parts ends first among the intervals of its list that are behind the part before,
from an interval on. -/
inductive HurriedFrom : Interval → List (List Interval) → List Interval → Prop
  | nil {last} : HurriedFrom last [] []
  | cons {last next list rest parts} (hmem : next ∈ list) (hbehind : last.last < next.first)
      (hfirst : ∀ j ∈ list, last.last < j.first → next.EndsFirst j)
      (hrest : HurriedFrom next rest parts) : HurriedFrom last (list :: rest) (next :: parts)

/-- The first part is any interval of the first list; each part behind it ends first among the
intervals of its list that are behind the part before. -/
inductive Hurried : List (List Interval) → List Interval → Prop
  | cons {first list rest parts} (hmem : first ∈ list) (hrest : HurriedFrom first rest parts) :
      Hurried (list :: rest) (first :: parts)

theorem hurriedFrom_iff_chain? (hincreasing : ∀ list ∈ lists, Sorted.Increasing list) :
    HurriedFrom i lists parts ↔ chain? i lists = some parts := by
  induction lists generalizing i parts with
  | nil =>
    refine ⟨fun h => ?_, fun h => ?_⟩
    · cases h with
      | nil => rfl
    · obtain rfl := Option.some.inj h
      exact .nil
  | cons list rest ih =>
    obtain ⟨hlist, hrest⟩ := List.forall_mem_cons.mp hincreasing
    have hbehind : Sorted.Increasing (list.filter (i.last < ·.first)) :=
      hlist.sublist List.filter_sublist
    simp only [chain?, bind, Option.bind_eq_some_iff, Option.some.injEq,
      Interval.earliestEnd?_eq_some_iff hbehind, List.mem_filter, decide_eq_true_eq, and_imp,
      ← ih hrest]
    refine ⟨fun h => ?_, ?_⟩
    · cases h with
      | cons hmem hlt hfirst hparts =>
        exact ⟨_, ⟨⟨hmem, hlt⟩, hfirst⟩, _, hparts, rfl⟩
    · rintro ⟨next, ⟨⟨hmem, hlt⟩, hfirst⟩, behind, hparts, rfl⟩
      exact .cons hmem hlt hfirst hparts

/-- Wherever there is a choice of parts one behind the other there is a hurried one, from the same
interval or one that ends sooner, and none of its parts ends later. -/
theorem exists_chain? (hone : OneOfEach lists others)
    (hbehind : (j :: others).Pairwise (·.last < ·.first)) (hij : i.last ≤ j.last) :
    ∃ parts, chain? i lists = some parts ∧
      List.Forall₂ (fun part other => part.last ≤ other.last) parts others := by
  induction hone generalizing i j with
  | nil => exact ⟨[], rfl, .nil⟩
  | @cons list k rest others hk hone ih =>
    obtain ⟨hfirst, hbehind⟩ := List.pairwise_cons.mp hbehind
    have hmem : k ∈ list.filter (i.last < ·.first) := List.mem_filter.mpr
      ⟨hk, decide_eq_true (Nat.lt_of_le_of_lt hij (hfirst k List.mem_cons_self))⟩
    obtain ⟨next, hnext⟩ := Interval.exists_earliestEnd? hmem
    have hle := Interval.last_le_of_earliestEnd? hnext k hmem
    obtain ⟨parts, hparts, hlast⟩ := ih hbehind hle
    refine ⟨next :: parts, ?_, .cons hle hlast⟩
    simp only [chain?, bind, hnext, hparts, Option.bind_some]

/-! ### Choices within a limit on gaps -/

/-- One interval of each list, each behind the one before, that leave no more positions of their
span uncovered than the limit says. -/
structure Chosen (lists : List (List Interval)) (gaps : Nat) (parts : List Interval)
    (span : Interval) : Prop where
  oneOfEach : OneOfEach lists parts
  behind : parts.Pairwise (·.last < ·.first)
  spans : span.Spans parts
  uncovered_le : Interval.uncovered span parts ≤ gaps

/-- In each list no interval is longer than one that ends before it. -/
def NoneLonger (lists : List (List Interval)) : Prop :=
  ∀ list ∈ lists, ∀ i ∈ list, ∀ j ∈ list, i.last ≤ j.last → j.length ≤ i.length

instance (lists : List (List Interval)) : Decidable (NoneLonger lists) :=
  inferInstanceAs (Decidable (∀ list ∈ lists, ∀ i ∈ list, ∀ j ∈ list, _))

/-- All intervals of terms are of the same length. -/
theorem noneLonger_terms (field : FieldIndex) (terms : List String) :
    NoneLonger (intervalsOfEach field (terms.map .term)) := by
  have hlength : ∀ list ∈ intervalsOfEach field (terms.map .term), ∀ i ∈ list, i.length = 1 := by
    rw [intervalsOfEach_eq_map, List.map_map]
    refine List.forall_mem_map.mpr fun term _ i hi => ?_
    rw [Function.comp_apply, intervals, Sorted.mem_ofList] at hi
    obtain ⟨position, -, rfl⟩ := List.mem_map.mp hi
    exact Interval.length_point position
  intro list hlist i hi j hj _
  rw [hlength list hlist i hi, hlength list hlist j hj]

/-- Where no later interval is longer, parts that end sooner are together as long at least. -/
theorem totalLength_le (hlonger : NoneLonger lists) (hparts : OneOfEach lists parts)
    (hothers : OneOfEach lists others)
    (hlast : List.Forall₂ (fun part other => part.last ≤ other.last) parts others) :
    Interval.totalLength others ≤ Interval.totalLength parts := by
  induction hlast generalizing lists with
  | nil => exact Nat.le_refl _
  | @cons part other parts others hle _ ih =>
    cases hparts with
    | cons hpart hparts =>
      cases hothers with
      | cons hother hothers =>
        obtain ⟨hlist, hrest⟩ := List.forall_mem_cons.mp hlonger
        rw [Interval.totalLength_cons, Interval.totalLength_cons]
        exact Nat.add_le_add (hlist _ hpart _ hother hle) (ih hrest hparts hothers)

/-- The spans of an ordered source are those of the hurried choices that keep to the limit. -/
theorem mem_chainSpans_iff_hurried (hforward : ∀ list ∈ lists, ∀ j ∈ list, j.first ≤ j.last)
    (hincreasing : ∀ list ∈ lists, Sorted.Increasing list) :
    span ∈ chainSpans (some gaps) lists ↔
      ∃ parts, Hurried lists parts ∧ Chosen lists gaps parts span := by
  cases lists with
  | nil =>
    refine ⟨fun h => absurd h List.not_mem_nil, ?_⟩
    rintro ⟨parts, h, -⟩
    cases h
  | cons list rest =>
    have hrest := (List.forall_mem_cons.mp hincreasing).2
    rw [mem_chainSpans]
    refine ⟨?_, ?_⟩
    · rintro ⟨i, hi, behind, hbehind, rfl, hgaps⟩
      obtain ⟨hone, hparts, hpairwise, hspans⟩ := parts_of_chain? hforward hi hbehind
      exact ⟨i :: behind, .cons hi ((hurriedFrom_iff_chain? hrest).mpr hbehind), hone, hpairwise,
        hspans, (gapsWithin_iff_of_behind hspans hparts hpairwise).mp hgaps⟩
    · rintro ⟨_, hhurried, hchosen⟩
      cases hhurried with
      | @cons i _ _ behind hi hbehind =>
        rw [hurriedFrom_iff_chain? hrest] at hbehind
        obtain ⟨-, hparts, hpairwise, hspans⟩ := parts_of_chain? hforward hi hbehind
        exact ⟨i, hi, behind, hbehind, hchosen.spans.eq hspans,
          (gapsWithin_iff_of_behind hchosen.spans hparts hpairwise).mpr hchosen.uncovered_le⟩

/-- The last of parts that end no later ends no later. -/
theorem getLast_last_le (hij : i.last ≤ j.last)
    (h : List.Forall₂ (fun part other => part.last ≤ other.last) parts others) :
    (parts.getLast?.getD i).last ≤ (others.getLast?.getD j).last := by
  induction h generalizing i j with
  | nil => exact hij
  | cons hle _ ih =>
    rw [List.getLast?_cons, List.getLast?_cons]
    exact ih hle

/-- Where no later interval is longer, the chain from the first part of a choice keeps to every
limit that the choice keeps to. -/
theorem Chosen.chainSpans_ne_nil (hforward : ∀ list ∈ lists, ∀ j ∈ list, j.first ≤ j.last)
    (hlonger : NoneLonger lists.tail) (h : Chosen lists gaps others span) :
    chainSpans (some gaps) lists ≠ [] := by
  obtain ⟨hone, hbehind, hspans, huncovered⟩ := h
  have hothers := hone.forall_mem hforward
  cases hone with
  | nil =>
    obtain ⟨i, hi, -⟩ := hspans.exists_first
    exact absurd hi List.not_mem_nil
  | @cons list i rest others hi hone =>
    obtain ⟨parts, hparts, hends⟩ := exists_chain? hone hbehind (Nat.le_refl i.last)
    obtain ⟨hchosen, hpartsForward, hpartsBehind, hpartsSpans⟩ := parts_of_chain? hforward hi hparts
    have hchain : OneOfEach rest parts := by
      cases hchosen with
      | cons _ h => exact h
    -- Both spans begin with the same interval, and the chain ends no later.
    obtain rfl := hspans.eq (Interval.spans_of_pairwise hothers hbehind)
    have hlength := hspans.length_eq_of_behind hothers hbehind
    have hpartsLength := hpartsSpans.length_eq_of_behind hpartsForward hpartsBehind
    have htotal := totalLength_le hlonger hchain hone hends
    have hlast := getLast_last_le (Nat.le_refl i.last) hends
    rw [Interval.totalLength_cons, Interval.length] at hlength hpartsLength
    refine List.ne_nil_of_mem (mem_chainSpans.mpr ⟨i, hi, parts, hparts, rfl, ?_⟩)
    rw [gapsWithin_iff_of_behind hpartsSpans hpartsForward hpartsBehind]
    dsimp only at hlength hpartsLength
    omega

theorem increasing_of_mem_each {sources : List IntervalSource} :
    ∀ list ∈ intervalsOfEach field sources, Sorted.Increasing list := by
  rw [intervalsOfEach_eq_map]
  exact List.forall_mem_map.mpr fun source _ => increasing_intervals source

/-- An ordered source with a limit on gaps has the spans of the hurried choices that keep to the
limit. Where behind the first source no later interval is longer, it has an interval if and only if
some choice keeps to the limit. -/
theorem ordered_within_gaps (field : FieldIndex) (sources : List IntervalSource) (gaps : Nat) :
    (∀ span, span ∈ (ordered sources (some gaps)).intervals field ↔
      ∃ parts, Hurried (intervalsOfEach field sources) parts ∧
        Chosen (intervalsOfEach field sources) gaps parts span) ∧
    (NoneLonger (intervalsOfEach field sources).tail →
      ((ordered sources (some gaps)).intervals field ≠ [] ↔
        ∃ parts span, Chosen (intervalsOfEach field sources) gaps parts span)) := by
  have hiff : ∀ span, span ∈ (ordered sources (some gaps)).intervals field ↔
      ∃ parts, Hurried (intervalsOfEach field sources) parts ∧
        Chosen (intervalsOfEach field sources) gaps parts span := fun span => by
    rw [intervals, Sorted.mem_ofList]
    exact mem_chainSpans_iff_hurried first_le_last_of_mem_each increasing_of_mem_each
  refine ⟨hiff, fun hlonger => ⟨fun h => ?_, ?_⟩⟩
  · obtain ⟨span, hspan⟩ := List.exists_mem_of_ne_nil _ h
    obtain ⟨parts, -, hchosen⟩ := (hiff span).mp hspan
    exact ⟨parts, span, hchosen⟩
  · rintro ⟨parts, span, hchosen⟩
    rw [intervals, Sorted.ofList_ne_nil_iff]
    exact hchosen.chainSpans_ne_nil first_le_last_of_mem_each hlonger

/-- An interval of two sources, the second of which has two intervals of the same length. -/
theorem ordered_within_gaps_nested : ∃ d,
    Document.build "d" (.pipeline ⟨" ", .literal [' '], true⟩ [])
      [("body", .text "a x b c b c" none)] = .ok d ∧
    let sources : List IntervalSource := [.term "a", .ordered [.term "b", .term "c"] none]
    NoneLonger (intervalsOfEach (d.index.field "body") sources).tail ∧
      Chosen (intervalsOfEach (d.index.field "body") sources) 1 [⟨0, 0⟩, ⟨2, 3⟩] ⟨0, 3⟩ ∧
      (ordered sources (some 1)).intervals (d.index.field "body") ≠ [] := by
  have hd : Document.build "d" (.pipeline ⟨" ", .literal [' '], true⟩ [])
      [("body", .text "a x b c b c" none)] = .ok _ := rfl
  have hfound : ∀ (field : FieldIndex) (sources : List IntervalSource) (parts : List Interval)
      (span : Interval), NoneLonger (intervalsOfEach field sources).tail →
      Chosen (intervalsOfEach field sources) 1 parts span →
      NoneLonger (intervalsOfEach field sources).tail ∧
        Chosen (intervalsOfEach field sources) 1 parts span ∧
        (ordered sources (some 1)).intervals field ≠ [] :=
    fun field sources parts span hlonger hchosen =>
      ⟨hlonger, hchosen, ((ordered_within_gaps field sources 1).2 hlonger).mpr ⟨_, _, hchosen⟩⟩
  refine ⟨_, hd, hfound _ _ _ _ (by decide +kernel) ?_⟩
  exact ⟨.cons (by decide +kernel) (.cons (by decide +kernel) .nil), by decide,
    ⟨by decide, by decide, by decide, by decide⟩, by decide⟩

/-- A choice without a gap is missed where the part that ends first is the shorter one. -/
theorem chosen_not_found : ∃ d,
    Document.build "d" (.pipeline ⟨" ", .literal [' '], true⟩ [])
      [("body", .text "a b c d" none)] = .ok d ∧
    let sources : List IntervalSource :=
      [.term "a", .anyOf [.ordered [.term "b", .term "d"] none, .term "c"]]
    (∃ parts span, Chosen (intervalsOfEach (d.index.field "body") sources) 0 parts span) ∧
      (ordered sources (some 0)).intervals (d.index.field "body") = [] := by
  have hd : Document.build "d" (.pipeline ⟨" ", .literal [' '], true⟩ [])
      [("body", .text "a b c d" none)] = .ok _ := rfl
  refine ⟨_, hd, ⟨[⟨0, 0⟩, ⟨1, 3⟩], ⟨0, 3⟩, ?_⟩, by decide +kernel⟩
  exact ⟨.cons (by decide +kernel) (.cons (by decide +kernel) .nil), by decide,
    ⟨by decide, by decide, by decide, by decide⟩, by decide⟩

/-! ### Choices without a limit -/

/-- Where the choices of one interval of each list, each beginning behind the end of the one before
and the first one behind `i`, come to an end. -/
def chainEnds (i : Interval) (lists : List (List Interval)) : Set Nat :=
  {e | ∃ parts, OneOfEach lists parts ∧ (i :: parts).IsChain (·.last < ·.first) ∧
    (parts.getLast?.getD i).last = e}

/-- Intervals each behind the one before are behind all that come before. -/
theorem pairwise_of_isChain (hforward : ∀ j ∈ parts, j.first ≤ j.last)
    (h : (i :: parts).IsChain (·.last < ·.first)) :
    (i :: parts).Pairwise (·.last < ·.first) := by
  induction parts generalizing i with
  | nil => exact List.pairwise_singleton _ i
  | cons j parts ih =>
    obtain ⟨hij, hrest⟩ := List.isChain_cons_cons.mp h
    obtain ⟨hj, hparts⟩ := List.forall_mem_cons.mp hforward
    have hpairwise := ih hparts hrest
    refine List.pairwise_cons.mpr ⟨List.forall_mem_cons.mpr ⟨hij, fun k hk => ?_⟩, hpairwise⟩
    have hjk := (List.pairwise_cons.mp hpairwise).1 k hk
    exact Nat.lt_trans (Nat.lt_of_lt_of_le hij hj) hjk

section Ends

variable (hforward : ∀ list ∈ lists, ∀ j ∈ list, j.first ≤ j.last)

include hforward

/-- The hurried choice from an interval on comes to an end before every other one, or with it. -/
theorem isLeast_chainEnds (h : chain? i lists = some parts) :
    IsLeast (chainEnds i lists) (parts.getLast?.getD i).last := by
  obtain ⟨hone, hpairwise⟩ := oneOfEach_of_chain? hforward h
  refine ⟨⟨parts, hone, hpairwise.isChain, rfl⟩, ?_⟩
  rintro e ⟨others, hothers, hchain, rfl⟩
  have hbehind := pairwise_of_isChain (hothers.forall_mem hforward) hchain
  obtain ⟨least, hleast, hle⟩ := exists_chain? hothers hbehind (Nat.le_refl i.last)
  obtain rfl := Option.some.inj (h.symm.trans hleast)
  exact getLast_last_le (Nat.le_refl i.last) hle

theorem isLeast_chainEnds_iff {e : Nat} : IsLeast (chainEnds i lists) e ↔
    ∃ parts, chain? i lists = some parts ∧ (parts.getLast?.getD i).last = e := by
  refine ⟨fun h => ?_, ?_⟩
  · obtain ⟨others, hothers, hchain, -⟩ := h.1
    have hbehind := pairwise_of_isChain (hothers.forall_mem hforward) hchain
    obtain ⟨parts, hparts, -⟩ := exists_chain? hothers hbehind (Nat.le_refl i.last)
    exact ⟨parts, hparts, (isLeast_chainEnds hforward hparts).unique h⟩
  · rintro ⟨parts, hparts, rfl⟩
    exact isLeast_chainEnds hforward hparts

end Ends

/-- Without a limit an ordered source has, in order and once each, the spans from the intervals of
its first source from which there is a choice to the least end of such a choice. -/
theorem ordered_tightest (field : FieldIndex) (first : IntervalSource)
    (rest : List IntervalSource) :
    Sorted.Increasing ((ordered (first :: rest) none).intervals field) ∧
    ∀ span, span ∈ (ordered (first :: rest) none).intervals field ↔
      ∃ i ∈ first.intervals field, span.first = i.first ∧
        IsLeast (chainEnds i (intervalsOfEach field rest)) span.last := by
  refine ⟨increasing_intervals _, fun span => ?_⟩
  rw [intervals, Sorted.mem_ofList, intervalsOfEach, mem_chainSpans]
  refine exists_congr fun i => and_congr_right fun _ => ?_
  rw [isLeast_chainEnds_iff first_le_last_of_mem_each]
  refine ⟨?_, ?_⟩
  · rintro ⟨parts, hparts, rfl, -⟩
    exact ⟨rfl, parts, hparts, rfl⟩
  · rintro ⟨hfirst, parts, hparts, hlast⟩
    cases span
    exact ⟨parts, hparts, congrArg₂ Interval.mk hfirst hlast.symm, rfl⟩

end IntervalSource

end Percolator
