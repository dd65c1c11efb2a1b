import Percolator.Proofs.Pattern.Feasible
import Percolator.Proofs.Pattern.Matching

/-!
# Sequences between the start and the end of a text

The builder of sequences flattens sequences and joins texts, which changes nothing in what is
matched. So a sequence that begins with the start of the text and ends with its end occurs in a text
if what stands between the two matches the whole text.

## Main results

* `Pattern.Expr.matches_seq_iff` : the builder of sequences keeps what is matched.
* `Pattern.Expr.occursIn_anchored_iff` : a sequence between the start and the end of the text.
-/

namespace Percolator.Pattern

variable {text : Array Char} {i j : Nat}

theorem le_size_of_standsAt_self {s : List Char} (h : standsAt text i s = true) :
    i ≤ text.size :=
  Nat.le_of_add_right_le (le_size_of_standsAt s i h)

theorem standsAt_append (s t : List Char) (i : Nat) :
    standsAt text i (s ++ t) = true ↔
      standsAt text i s = true ∧ standsAt text (i + s.length) t = true := by
  induction s generalizing i with
  | nil =>
    constructor
    · exact fun h => ⟨decide_eq_true (le_size_of_standsAt_self h), h⟩
    · exact fun h => h.2
  | cons c s ih =>
    have hplace : i + 1 + s.length = i + (c :: s).length := by
      rw [List.length_cons, Nat.add_assoc, Nat.add_comm 1]
    simp only [List.cons_append, standsAt, Bool.and_eq_true, ih, and_assoc, hplace]

namespace Expr

theorem matchesAll_append {front back : List Expr} :
    MatchesAll text (front ++ back) i j ↔
      ∃ k, MatchesAll text front i k ∧ MatchesAll text back k j := by
  induction front generalizing i with
  | nil => simp only [List.nil_append, MatchesAll, exists_eq_left']
  | cons e front ih =>
    simp only [List.cons_append, MatchesAll, ih]
    constructor
    · rintro ⟨k, he, l, hfront, hback⟩
      exact ⟨l, ⟨k, he, hfront⟩, hback⟩
    · rintro ⟨l, ⟨k, he, hfront⟩, hback⟩
      exact ⟨k, he, l, hfront, hback⟩

theorem matchesAll_singleton {e : Expr} : MatchesAll text [e] i j ↔ e.Matches text i j := by
  simp only [MatchesAll, exists_eq_right]

theorem matchesAll_parts (e : Expr) : MatchesAll text e.parts i j ↔ e.Matches text i j := by
  cases e with
  | empty => exact Iff.rfl
  | concat parts => exact Iff.rfl
  | literal _ | oneOf _ _ | look _ | repetition _ _ _ _ | group _ _ | alternation _ =>
    exact matchesAll_singleton

theorem matchesAll_glue (e : Expr) (es : List Expr) :
    MatchesAll text (glue e es) i j ↔ ∃ k, e.Matches text i k ∧ MatchesAll text es k j := by
  unfold glue
  split
  · next s t rest =>
    simp only [MatchesAll, Matches, standsAt_append, List.length_append]
    constructor
    · rintro ⟨k, ⟨⟨hs, ht⟩, rfl⟩, hrest⟩
      exact ⟨i + s.length, ⟨hs, rfl⟩, _, ⟨ht, rfl⟩, (Nat.add_assoc i _ _).symm ▸ hrest⟩
    · rintro ⟨k, ⟨hs, rfl⟩, l, ⟨ht, rfl⟩, hrest⟩
      exact ⟨_, ⟨⟨hs, ht⟩, rfl⟩, Nat.add_assoc i _ _ ▸ hrest⟩
  · exact Iff.rfl

theorem matchesAll_foldr_glue (es : List Expr) :
    MatchesAll text (es.foldr glue []) i j ↔ MatchesAll text es i j := by
  induction es generalizing i with
  | nil => exact Iff.rfl
  | cons e es ih => simp only [List.foldr_cons, matchesAll_glue, ih, MatchesAll]

theorem matchesAll_flatMap_parts (es : List Expr) :
    MatchesAll text (es.flatMap parts) i j ↔ MatchesAll text es i j := by
  induction es generalizing i with
  | nil => exact Iff.rfl
  | cons e es ih =>
    simp only [List.flatMap_cons, matchesAll_append, matchesAll_parts, ih, MatchesAll]

/-- A sequence matches what its parts match one after the other. -/
theorem matches_seq_iff (es : List Expr) :
    (seq es).Matches text i j ↔ MatchesAll text es i j := by
  rw [← matchesAll_flatMap_parts, ← matchesAll_foldr_glue, seq]
  split
  · next hnil => rw [hnil]; exact Iff.rfl
  · next e hone => rw [hone, matchesAll_singleton]
  · exact Iff.rfl

theorem occursIn_iff {e : Expr} (he : e.Feasible) :
    e.occursIn text = true ↔ ∃ i ≤ text.size, ∃ j, e.Matches text i j := by
  have hends := mem_ends_iff e he (List.range (text.size + 1)) fun i hi =>
    Nat.le_of_lt_succ (List.mem_range.mp hi)
  simp only [occursIn, Bool.not_eq_true', List.isEmpty_eq_false_iff_exists_mem, hends,
    List.mem_range, Nat.lt_succ_iff]
  constructor
  · rintro ⟨j, i, hi, hmatch⟩
    exact ⟨i, hi, j, hmatch⟩
  · rintro ⟨i, hi, j, hmatch⟩
    exact ⟨j, i, hi, hmatch⟩

/-- What stands between the start and the end of the text matches the whole text. -/
theorem occursIn_anchored_iff {es : List Expr} (h : AllFeasible es) :
    (seq (.look .textStart :: es ++ [.look .textEnd])).occursIn text = true ↔
      MatchesAll text es 0 text.size := by
  have hfeasible : AllFeasible (.look .textStart :: es ++ [.look .textEnd]) := by
    refine allFeasible_iff.mpr fun e he => ?_
    rcases List.mem_append.mp he with he | he
    · rcases List.mem_cons.mp he with rfl | he
      · exact trivial
      · exact allFeasible_iff.mp h e he
    · rw [List.mem_singleton.mp he]
      exact trivial
  rw [occursIn_iff (feasible_seq hfeasible)]
  simp only [matches_seq_iff, matchesAll_append, MatchesAll, Matches, Look.holds, beq_iff_eq]
  constructor
  · rintro ⟨i, -, j, k, ⟨start, ⟨rfl, rfl⟩, hes⟩, behind, ⟨rfl, -⟩, -⟩
    exact hes
  · intro hes
    exact ⟨0, Nat.zero_le _, _, _, ⟨0, ⟨rfl, rfl⟩, hes⟩, _, ⟨rfl, rfl⟩, rfl⟩

end Expr

end Percolator.Pattern
