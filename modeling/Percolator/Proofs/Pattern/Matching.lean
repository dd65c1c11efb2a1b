import Percolator.Proofs.Pattern.Language
import Percolator.Proofs.Sorted

/-!
# The places that are found are those of the matches

`Expr.ends` finds the places where matches end by steps from places to places. Steps that find no
new place are not taken again, and a repetition without an upper bound takes no more steps than the
text has characters. Nothing is lost by that: a place that is left out of a step was met before,
when as many steps or more were left, and a match that stays where it is can be left out.

## Main definitions

* `Pattern.Follows` : a step from places to places follows a relation.

## Main results

* `Pattern.Follows.mem_stepsExactly`, `Pattern.Follows.mem_stepsUpTo` : what several steps find.
* `Pattern.Expr.mem_ends_iff` : the places that are found are those where matches end.
-/

namespace Percolator.Pattern

variable {text : Array Char} {size i j : Nat} {places : List Nat}

/-! ### Steps -/

/-- The step leads from places in a text to the places that the relation leads to, which are behind
them in the text. -/
structure Follows (size : Nat) (R : Nat → Nat → Prop) (step : List Nat → List Nat) : Prop where
  mem_iff : ∀ places, (∀ i ∈ places, i ≤ size) → ∀ j, j ∈ step places ↔ ∃ i ∈ places, R i j
  le : ∀ i j, R i j → i ≤ j
  le_size : ∀ i j, R i j → i ≤ size → j ≤ size

namespace Follows

variable {R : Nat → Nat → Prop} {step : List Nat → List Nat} {n : Nat} {found latest : List Nat}

theorem step_le_size (h : Follows size R step) (hplaces : ∀ i ∈ places, i ≤ size) :
    ∀ j ∈ step places, j ≤ size := by
  intro j hj
  obtain ⟨i, hi, hR⟩ := (h.mem_iff places hplaces j).mp hj
  exact h.le_size i j hR (hplaces i hi)

/-- The first of several steps. -/
theorem exists_times_succ (h : Follows size R step) (hplaces : ∀ i ∈ places, i ≤ size) :
    (∃ i ∈ places, Times R (n + 1) i j) ↔ ∃ i ∈ step places, Times R n i j := by
  simp only [h.mem_iff places hplaces, Times]
  constructor
  · rintro ⟨i, hi, k, hk, hrest⟩
    exact ⟨k, ⟨i, hi, hk⟩, hrest⟩
  · rintro ⟨k, ⟨i, hi, hk⟩, hrest⟩
    exact ⟨i, hi, k, hk, hrest⟩

/-- Places that a step leaves as they are can be reached in any number of steps, and no others. -/
theorem exists_times_of_fixed (h : Follows size R step) (hplaces : ∀ i ∈ places, i ≤ size)
    (hfixed : step places = places) : (∃ i ∈ places, Times R n i j) ↔ j ∈ places := by
  induction n with
  | zero => simp only [Times, exists_eq_right]
  | succ n ih => rw [h.exists_times_succ hplaces, hfixed, ih]

theorem mem_stepsExactly (h : Follows size R step) (hplaces : ∀ i ∈ places, i ≤ size) :
    j ∈ stepsExactly step n places ↔ ∃ i ∈ places, Times R n i j := by
  induction n generalizing places with
  | zero => simp only [stepsExactly, Times, exists_eq_right]
  | succ n ih =>
    simp only [stepsExactly]
    split
    · next hfixed => exact (h.exists_times_of_fixed hplaces (beq_iff_eq.mp hfixed)).symm
    · rw [ih (h.step_le_size hplaces), h.exists_times_succ hplaces]

/-- A step from the latest places finds whatever a step from all places finds. -/
theorem mem_union_fresh (h : Follows size R step) (hfound : ∀ i ∈ found, i ≤ size)
    (hlatest : ∀ i ∈ latest, i ∈ found)
    (hsettled : ∀ i ∈ found, i ∉ latest → ∀ j, R i j → j ∈ found) :
    j ∈ Sorted.union found (Sorted.diff (step latest) found) ↔
      j ∈ found ∨ ∃ i ∈ found, R i j := by
  have hstep := h.mem_iff latest (fun i hi => hfound i (hlatest i hi)) j
  rw [Sorted.mem_union]
  constructor
  · rintro (hj | hj)
    · exact .inl hj
    · obtain ⟨i, hi, hR⟩ := hstep.mp (Sorted.mem_of_mem_diff hj)
      exact .inr ⟨i, hlatest i hi, hR⟩
  · rintro (hj | ⟨i, hi, hR⟩)
    · exact .inl hj
    · by_cases hj : j ∈ found
      · exact .inl hj
      · -- Only a step from one of the latest places leads to a place that is not found yet.
        have hi : i ∈ latest := Classical.byContradiction fun hnot => hj (hsettled i hi hnot j hR)
        exact .inr (Sorted.mem_diff_of_not_mem (hstep.mpr ⟨i, hi, hR⟩) hj)

theorem mem_stepsUpTo (h : Follows size R step) (hfound : ∀ i ∈ found, i ≤ size)
    (hlatest : ∀ i ∈ latest, i ∈ found)
    (hsettled : ∀ i ∈ found, i ∉ latest → ∀ j, R i j → j ∈ found) :
    j ∈ stepsUpTo step n found latest ↔ ∃ i ∈ found, ∃ m ≤ n, Times R m i j := by
  induction n generalizing found latest with
  | zero => simp only [stepsUpTo, Nat.le_zero, exists_eq_left, Times, exists_eq_right]
  | succ n ih =>
    have hunion := fun j => @mem_union_fresh _ j _ _ _ _ h hfound hlatest hsettled
    simp only [stepsUpTo]
    split
    · next hempty =>
      -- No step leads out of the places that are found.
      rw [List.isEmpty_iff.mp hempty] at hunion
      have hclosed : ∀ i j, R i j → i ∈ found → j ∈ found := by
        intro i j hR hi
        exact (Sorted.mem_union.mp ((hunion j).mpr (.inr ⟨i, hi, hR⟩))).resolve_right
          List.not_mem_nil
      constructor
      · exact fun hj => ⟨j, hj, 0, Nat.zero_le _, rfl⟩
      · rintro ⟨i, hi, m, -, htimes⟩
        exact htimes.preserves hclosed hi
    · have hle : ∀ i ∈ Sorted.union found (Sorted.diff (step latest) found), i ≤ size := by
        intro i hi
        rcases (hunion i).mp hi with hi | ⟨k, hk, hR⟩
        · exact hfound i hi
        · exact h.le_size k i hR (hfound k hk)
      rw [ih hle (fun i hi => Sorted.mem_union.mpr (.inr hi)) fun i hi hnot j hR => (hunion j).mpr
        (.inr ⟨i, (Sorted.mem_union.mp hi).resolve_right hnot, hR⟩)]
      constructor
      · rintro ⟨i, hi, m, hm, htimes⟩
        rcases (hunion i).mp hi with hi | ⟨k, hk, hR⟩
        · exact ⟨i, hi, m, Nat.le_succ_of_le hm, htimes⟩
        · exact ⟨k, hk, m + 1, Nat.succ_le_succ hm, i, hR, htimes⟩
      · rintro ⟨i, hi, _ | m, hm, htimes⟩
        · exact ⟨i, (hunion i).mpr (.inl hi), 0, Nat.zero_le n, htimes⟩
        · obtain ⟨k, hk, hrest⟩ := htimes
          exact ⟨k, (hunion k).mpr (.inr ⟨i, hi, hk⟩), m, Nat.le_of_succ_le_succ hm, hrest⟩

end Follows

namespace Expr

/-- What is found for a repetition. -/
theorem mem_ends_repetition {least : Nat} {most : Option Nat} {greedy : Bool} {body : Expr}
    (hleast : ∀ m, most = some m → least ≤ m) (hplaces : ∀ i ∈ places, i ≤ text.size)
    (hbody : Follows text.size (fun i j => body.Matches text i j) (body.ends text)) :
    j ∈ ends text (.repetition least most greedy body) places ↔
      ∃ i ∈ places, (Expr.repetition least most greedy body).Matches text i j := by
  have hfirst := fun j => @Follows.mem_stepsExactly _ j _ _ _ least hbody hplaces
  have hle : ∀ k ∈ stepsExactly (ends text body) least places, k ≤ text.size := by
    intro k hk
    obtain ⟨i, hi, htimes⟩ := (hfirst k).mp hk
    exact htimes.preserves (P := (· ≤ text.size)) hbody.le_size (hplaces i hi)
  simp only [ends, Matches]
  rw [hbody.mem_stepsUpTo hle (fun _ hk => hk) fun _ hk hnot => absurd hk hnot]
  simp only [hfirst]
  constructor
  · rintro ⟨k, ⟨i, hi, hk⟩, m, hm, hrest⟩
    refine ⟨i, hi, least + m, Nat.le_add_right least m, fun most' hmost => ?_,
      Times.add_iff.mpr ⟨k, hk, hrest⟩⟩
    subst hmost
    have hcounts := hleast most' rfl
    simp only at hm
    omega
  · rintro ⟨i, hi, n, hn, hmost, htimes⟩
    obtain ⟨m, rfl⟩ := Nat.exists_eq_add_of_le hn
    obtain ⟨k, hk, hrest⟩ := Times.add_iff.mp htimes
    cases most with
    | none =>
      -- Without an upper bound, as many steps are enough as the text has characters.
      obtain ⟨m, hm, hshort⟩ := hrest.exists_le_sub hbody.le
      have hj : j ≤ text.size := hrest.preserves (P := (· ≤ text.size)) hbody.le_size
        (hle k ((hfirst k).mpr ⟨i, hi, hk⟩))
      exact ⟨k, ⟨i, hi, hk⟩, m, by simp only; omega, hshort⟩
    | some most =>
      have hm := hmost most rfl
      exact ⟨k, ⟨i, hi, hk⟩, m, by simp only; omega, hrest⟩

mutual

/-- The places that are found for an expression are those where its matches end. -/
theorem mem_ends_iff : (e : Expr) → e.Feasible → (places : List Nat) →
    (∀ i ∈ places, i ≤ text.size) → ∀ j, j ∈ e.ends text places ↔ ∃ i ∈ places, e.Matches text i j
  | .empty, _, places, _, j => by simp only [ends, Matches, exists_eq_right]
  | .literal s, _, places, _, j => by
    simp only [ends, List.mem_map, List.mem_filter, Matches, and_assoc, eq_comm]
  | .oneOf _ set, _, places, _, j => by
    simp only [ends, List.mem_map, List.mem_filter, Option.any_eq_true, Matches]
    constructor
    · rintro ⟨i, ⟨hi, hc⟩, rfl⟩
      exact ⟨i, hi, hc, rfl⟩
    · rintro ⟨i, hi, hc, rfl⟩
      exact ⟨i, ⟨hi, hc⟩, rfl⟩
  | .look place, _, places, _, j => by
    simp only [ends, List.mem_filter, Matches, ← and_assoc, exists_eq_right]
  | .repetition _ _ _ body, h, places, hplaces, j =>
    mem_ends_repetition h.1 hplaces ⟨mem_ends_iff body h.2, fun _ _ => Matches.le body,
      fun _ _ => Matches.le_size body⟩
  | .group _ body, h, places, hplaces, j => mem_ends_iff body h places hplaces j
  | .concat parts, h, places, hplaces, j => mem_endsOfAll_iff parts h places hplaces j
  | .alternation choices, h, places, hplaces, j => mem_endsOfAny_iff choices h places hplaces j

/-- The places that are found for a sequence. -/
theorem mem_endsOfAll_iff : (es : List Expr) → AllFeasible es → (places : List Nat) →
    (∀ i ∈ places, i ≤ text.size) →
      ∀ j, j ∈ endsOfAll text es places ↔ ∃ i ∈ places, MatchesAll text es i j
  | [], _, places, _, j => by simp only [endsOfAll, MatchesAll, exists_eq_right]
  | e :: rest, h, places, hplaces, j => by
    have he := mem_ends_iff e h.1 places hplaces
    have hends : ∀ k ∈ ends text e places, k ≤ text.size := by
      intro k hk
      obtain ⟨i, hi, hmatch⟩ := (he k).mp hk
      exact Matches.le_size e hmatch (hplaces i hi)
    simp only [endsOfAll, mem_endsOfAll_iff rest h.2 _ hends, he, MatchesAll]
    constructor
    · rintro ⟨k, ⟨i, hi, hk⟩, hrest⟩
      exact ⟨i, hi, k, hk, hrest⟩
    · rintro ⟨i, hi, k, hk, hrest⟩
      exact ⟨k, ⟨i, hi, hk⟩, hrest⟩

/-- The places that are found for one of several expressions. -/
theorem mem_endsOfAny_iff : (es : List Expr) → AllFeasible es → (places : List Nat) →
    (∀ i ∈ places, i ≤ text.size) →
      ∀ j, j ∈ endsOfAny text es places ↔ ∃ i ∈ places, MatchesAny text es i j
  | [], _, places, _, j => by
    simp only [endsOfAny, MatchesAny, List.not_mem_nil, and_false, exists_false]
  | e :: rest, h, places, hplaces, j => by
    rw [endsOfAny, Sorted.mem_union, mem_ends_iff e h.1 places hplaces,
      mem_endsOfAny_iff rest h.2 places hplaces]
    simp only [MatchesAny, and_or_left, exists_or]

end

/-- An expression is found to reach the end of a text if it matches the whole text. -/
theorem size_mem_ends_iff {e : Expr} (he : e.Feasible) :
    text.size ∈ e.ends text [0] ↔ e.MatchesText text := by
  rw [mem_ends_iff e he [0] fun i hi => List.mem_singleton.mp hi ▸ Nat.zero_le _]
  simp only [List.mem_singleton, exists_eq_left, MatchesText]

end Expr

end Percolator.Pattern
