import Mathlib.Order.Interval.Finset.Nat
import Percolator.Proofs.Interval.Parts

/-!
# Positions that parts cover

A limit on gaps is compared with the length of a span less the lengths of its parts. Where parts
overlap, this counts the positions that they share more than once, so that the limit admits as many
more uncovered positions as positions are counted again. Parts that do not overlap are counted
right.

## Main definitions

* `Interval.covered`, `Interval.uncovered` : the positions that parts cover, and how many of a span
  they leave uncovered.
* `Interval.overlap` : how many positions are counted again.
* `IntervalSource.Apart` : no interval of a list overlaps one of another list.

## Main results

* `IntervalSource.gapsWithin_iff` : what a limit on gaps admits.
* `Interval.overlap_eq_zero` : parts that do not overlap are counted right.
-/

namespace Percolator

namespace Interval

variable {i j span : Interval} {parts : List Interval}

/-- The positions of an interval. -/
def positions (i : Interval) : Finset Nat := Finset.Icc i.first i.last

/-- The positions that some part covers. -/
def covered : List Interval → Finset Nat
  | [] => ∅
  | i :: rest => i.positions ∪ covered rest

/-- The lengths of all parts together. -/
def totalLength (parts : List Interval) : Nat := (parts.map length).foldl (· + ·) 0

/-- How many positions are counted again when the lengths of parts are added up. -/
def overlap (parts : List Interval) : Nat := totalLength parts - (covered parts).card

/-- How many positions of a span no part covers. -/
def uncovered (span : Interval) (parts : List Interval) : Nat :=
  (span.positions \ covered parts).card

theorem overlaps_eq_false_iff : i.overlaps j = false ↔ j.last < i.first ∨ i.last < j.first := by
  simp only [overlaps, Bool.and_eq_false_iff, decide_eq_false_iff_not, Nat.not_le]

theorem mem_positions {p : Nat} : p ∈ i.positions ↔ i.first ≤ p ∧ p ≤ i.last := Finset.mem_Icc

theorem mem_covered {p : Nat} : p ∈ covered parts ↔ ∃ i ∈ parts, p ∈ i.positions := by
  induction parts with
  | nil => simp only [covered, Finset.notMem_empty, List.not_mem_nil, false_and, exists_false]
  | cons i rest ih =>
    simp only [covered, Finset.mem_union, ih, List.mem_cons, or_and_right, exists_or,
      exists_eq_left]

theorem card_positions (h : i.first ≤ i.last) : i.positions.card = i.length := by
  rw [positions, Nat.card_Icc, length]
  omega

theorem totalLength_cons : totalLength (i :: parts) = i.length + totalLength parts := by
  have hfoldl : ∀ (ns : List Nat) (n : Nat), ns.foldl (· + ·) n = n + ns.foldl (· + ·) 0 := by
    intro ns
    induction ns with
    | nil => exact fun n => rfl
    | cons m ns ih =>
      intro n
      rw [List.foldl_cons, List.foldl_cons, ih (n + m), ih (0 + m), Nat.zero_add, Nat.add_assoc]
  rw [totalLength, List.map_cons, List.foldl_cons, hfoldl, Nat.zero_add, totalLength]

theorem length_point (position : Nat) : (point position).length = 1 :=
  congrArg (· + 1) (Nat.sub_self position)

theorem totalLength_map_point (positions : List Nat) :
    totalLength (positions.map point) = positions.length := by
  induction positions with
  | nil => rfl
  | cons position rest ih =>
    rw [List.map_cons, totalLength_cons, ih, length_point, List.length_cons, Nat.add_comm]

theorem card_covered_le (h : ∀ i ∈ parts, i.first ≤ i.last) :
    (covered parts).card ≤ totalLength parts := by
  induction parts with
  | nil => exact Nat.le_refl 0
  | cons i rest ih =>
    obtain ⟨hi, hrest⟩ := List.forall_mem_cons.mp h
    rw [covered, totalLength_cons, ← card_positions hi]
    exact Nat.le_trans (Finset.card_union_le _ _) (Nat.add_le_add_left (ih hrest) _)

theorem Spans.covered_subset (h : span.Spans parts) : covered parts ⊆ span.positions := by
  intro p hp
  obtain ⟨i, hi, hp⟩ := mem_covered.mp hp
  obtain ⟨hfirst, hlast⟩ := mem_positions.mp hp
  exact mem_positions.mpr ⟨Nat.le_trans (h.first_le i hi) hfirst,
    Nat.le_trans hlast (h.le_last i hi)⟩

/-- A span consists of the positions that its parts cover and of the others. -/
theorem Spans.length_eq (h : span.Spans parts) (hforward : ∀ i ∈ parts, i.first ≤ i.last) :
    span.length = uncovered span parts + (covered parts).card := by
  obtain ⟨i, hi, hfirst⟩ := h.exists_first
  have hspan : span.first ≤ span.last :=
    hfirst ▸ Nat.le_trans (hforward i hi) (h.le_last i hi)
  rw [uncovered, Finset.card_sdiff_add_card_eq_card h.covered_subset, card_positions hspan]

/-- Parts that do not overlap are counted right. -/
theorem overlap_eq_zero (hforward : ∀ i ∈ parts, i.first ≤ i.last)
    (h : parts.Pairwise fun i j => i.overlaps j = false) : overlap parts = 0 := by
  have hcard : (covered parts).card = totalLength parts := by
    induction parts with
    | nil => rfl
    | cons i rest ih =>
      obtain ⟨hi, hrest⟩ := List.forall_mem_cons.mp hforward
      obtain ⟨hfirst, hpairwise⟩ := List.pairwise_cons.mp h
      have hdisjoint : Disjoint i.positions (covered rest) := by
        refine Finset.disjoint_left.mpr fun p hp hcovered => ?_
        obtain ⟨j, hj, hpj⟩ := mem_covered.mp hcovered
        obtain ⟨hi₁, hi₂⟩ := mem_positions.mp hp
        obtain ⟨hj₁, hj₂⟩ := mem_positions.mp hpj
        have hoverlaps := overlaps_eq_false_iff.mp (hfirst j hj)
        omega
      rw [covered, Finset.card_union_of_disjoint hdisjoint, ih hrest hpairwise,
        card_positions hi, totalLength_cons]
  rw [overlap, hcard, Nat.sub_self]

/-- Parts that stand one behind the other do not overlap. -/
theorem pairwise_not_overlaps (h : parts.Pairwise (·.last < ·.first)) :
    parts.Pairwise fun i j => i.overlaps j = false :=
  h.imp fun hlt => overlaps_eq_false_iff.mpr (.inr hlt)

/-- The span of parts that stand one behind the other is as long as they are together, and as what
they leave uncovered. -/
theorem Spans.length_eq_of_behind (h : span.Spans parts) (hforward : ∀ i ∈ parts, i.first ≤ i.last)
    (hbehind : parts.Pairwise (·.last < ·.first)) :
    span.length = uncovered span parts + totalLength parts := by
  have hcard := card_covered_le hforward
  have hoverlap := overlap_eq_zero hforward (pairwise_not_overlaps hbehind)
  rw [overlap] at hoverlap
  rw [h.length_eq hforward]
  omega

end Interval

namespace IntervalSource

variable {lists : List (List Interval)} {span : Interval} {parts : List Interval} {gaps : Nat}

/-! ### Lists that do not overlap -/

/-- No interval of a list overlaps one of another list. -/
def Apart (lists : List (List Interval)) : Prop :=
  lists.Pairwise fun list other => ∀ i ∈ list, ∀ j ∈ other, i.overlaps j = false

instance (lists : List (List Interval)) : Decidable (Apart lists) :=
  inferInstanceAs (Decidable (lists.Pairwise _))

theorem Apart.pairwise (h : Apart lists) (hone : OneOfEach lists parts) :
    parts.Pairwise fun i j => i.overlaps j = false := by
  induction hone with
  | nil => exact List.Pairwise.nil
  | cons hi hrest ih =>
    obtain ⟨hlist, hlists⟩ := List.pairwise_cons.mp h
    refine List.pairwise_cons.mpr ⟨?_, ih hlists⟩
    exact OneOfEach.forall_mem hrest fun other hother j hj => hlist other hother _ hi j hj

/-! ### Limits on gaps -/

/-- A limit on gaps is compared with the length of the span less the lengths of the parts. -/
theorem gapsWithin_some :
    gapsWithin (some gaps) span parts = true ↔
      span.length - Interval.totalLength parts ≤ gaps :=
  decide_eq_true_iff

/-- A limit on gaps admits the spans with at most as many uncovered positions as the limit says and
positions are counted again. -/
theorem gapsWithin_iff (h : span.Spans parts) (hforward : ∀ i ∈ parts, i.first ≤ i.last) :
    gapsWithin (some gaps) span parts = true ↔
      Interval.uncovered span parts ≤ gaps + Interval.overlap parts := by
  have hlength := h.length_eq hforward
  have hcard := Interval.card_covered_le hforward
  rw [gapsWithin_some, Interval.overlap]
  omega

/-- Of parts that stand one behind the other a limit on gaps admits as many uncovered positions as
it says. -/
theorem gapsWithin_iff_of_behind (h : span.Spans parts)
    (hforward : ∀ i ∈ parts, i.first ≤ i.last) (hbehind : parts.Pairwise (·.last < ·.first)) :
    gapsWithin (some gaps) span parts = true ↔ Interval.uncovered span parts ≤ gaps := by
  rw [gapsWithin_iff h hforward,
    Interval.overlap_eq_zero hforward (Interval.pairwise_not_overlaps hbehind), Nat.add_zero]

end IntervalSource

end Percolator
