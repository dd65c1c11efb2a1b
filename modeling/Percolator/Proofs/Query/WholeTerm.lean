import Percolator.Proofs.Pattern.Anchored
import Percolator.Proofs.Presearch.Extraction

/-!
# Regular expressions for whole terms

A regular expression in a query is to match whole terms, and to be refused if its pattern is not
valid. Both hold of patterns that are valid by themselves, apart from those that end in a comment:
they are refused, since the comment takes in what is put behind the pattern. A pattern that is not
valid is accepted where a parenthesis of its own closes the group that is put around it, and then
the start of the text belongs to one part of it and the end of the text to another one.

## Main results

* `Regexp.ofPattern_eq_ok_iff` : what is accepted.
* `Regexp.contains_iff_matchesText` : a valid pattern that is accepted matches whole terms.
* `Regexp.accepts_and_matches` : for every pattern, what is accepted and what is matched.
* `Regexp.faithful_of_ofPattern` : what is matched in a query, the pattern matches in full.
-/

namespace Percolator.Regexp

open Pattern

variable {pattern : String} {r : Regexp} {e : Expr} {depth : Nat}

theorem filter_read?_anchor_eq_some_iff :
    (Expr.read? (anchor pattern)).filter (·.fits) = some e ↔ ∃ depth,
      Expr.nested? (Pattern.anchored pattern.toList) = some (e, depth) ∧ depth ≤ deepest ∧
        e.fits = true := by
  rw [Option.filter_eq_some_iff, Expr.read?_eq, toList_anchor, Option.bind_eq_some_iff]
  simp only [Prod.exists, Option.ite_none_right_eq_some, Option.some.injEq]
  constructor
  · rintro ⟨⟨e', depth, hnested, hdepth, rfl⟩, hfits⟩
    exact ⟨depth, hnested, hdepth, hfits⟩
  · rintro ⟨depth, hnested, hdepth, hfits⟩
    exact ⟨⟨e, depth, hnested, hdepth, rfl⟩, hfits⟩

/-- A pattern is accepted if it is valid in its group, not nested too deep and not too large. -/
theorem ofPattern_eq_ok_iff :
    ofPattern pattern = .ok r ↔ r.pattern = pattern ∧ ∃ depth,
      Expr.nested? (Pattern.anchored pattern.toList) = some (r.anchored, depth) ∧
        depth ≤ deepest ∧ r.anchored.fits = true := by
  rw [← filter_read?_anchor_eq_some_iff, ofPattern]
  cases (Expr.read? (anchor pattern)).filter (·.fits) with
  | none => simp only [reduceCtorEq, and_false]
  | some e =>
    simp only [Except.ok.injEq, Option.some.injEq]
    constructor
    · rintro rfl
      exact ⟨rfl, rfl⟩
    · rintro ⟨rfl, rfl⟩
      rfl

theorem valid_anchored_of_ofPattern (h : ofPattern pattern = .ok r) :
    Valid (Pattern.anchored pattern.toList) := by
  obtain ⟨-, depth, hnested, -⟩ := ofPattern_eq_ok_iff.mp h
  exact Option.isSome_of_eq_some hnested

/-- A valid pattern is accepted unless a parenthesis behind it is part of it, within the limits for
what is around it. -/
theorem exists_ofPattern_iff (h : Expr.nested? pattern.toList = some (e, depth)) :
    (∃ r, ofPattern pattern = .ok r) ↔
      ¬Valid (pattern.toList ++ [')']) ∧ depth + 2 ≤ deepest ∧
        (Expr.seq [.look .textStart, e, .look .textEnd]).fits = true := by
  simp only [ofPattern_eq_ok_iff, nested?_anchored_iff h, Prod.mk.injEq]
  constructor
  · rintro ⟨r, -, _, ⟨hclosed, hanchored, rfl⟩, hdepth, hfits⟩
    exact ⟨hclosed, hdepth, hanchored ▸ hfits⟩
  · rintro ⟨hclosed, hdepth, hfits⟩
    exact ⟨⟨pattern, _⟩, rfl, _, ⟨hclosed, rfl, rfl⟩, hdepth, hfits⟩

/-- A valid pattern that is accepted matches whole terms. -/
theorem contains_iff_matchesText (h : Expr.nested? pattern.toList = some (e, depth))
    (hr : ofPattern pattern = .ok r) (term : String) :
    r.contains term = true ↔ e.MatchesText term.toList.toArray := by
  obtain ⟨-, _, hnested, -⟩ := ofPattern_eq_ok_iff.mp hr
  have hanchored : r.anchored = .seq [.look .textStart, e, .look .textEnd] :=
    congrArg Prod.fst ((nested?_anchored_iff h).mp hnested).2
  have hfeasible : Expr.AllFeasible [e] :=
    Expr.allFeasible_iff.mpr fun _ he =>
      List.mem_singleton.mp he ▸ Expr.feasible_of_nested? h
  rw [contains, hanchored, Expr.MatchesText, ← Expr.matchesAll_singleton]
  exact Expr.occursIn_anchored_iff hfeasible

/-- A pattern that is valid by itself is accepted, within the limits, unless it ends in a comment,
which needs a number sign in it. If it is accepted, it matches whole terms. A pattern that is not
valid is only accepted if it goes on, behind a valid pattern, with a parenthesis that closes the
group around it. -/
theorem accepts_and_matches (pattern : String) :
    (∀ e depth, Expr.nested? pattern.toList = some (e, depth) →
      ((∃ r, ofPattern pattern = .ok r) ↔
        ¬Valid (pattern.toList ++ [')']) ∧ depth + 2 ≤ deepest ∧
          (Expr.seq [.look .textStart, e, .look .textEnd]).fits = true) ∧
      ∀ r, ofPattern pattern = .ok r → ∀ term,
        (r.contains term = true ↔ e.MatchesText term.toList.toArray)) ∧
    (Valid pattern.toList → Valid (pattern.toList ++ [')']) → '#' ∈ pattern.toList) ∧
    (¬Valid pattern.toList → ∀ r, ofPattern pattern = .ok r →
      ∃ front rest, pattern.toList = front ++ ')' :: rest ∧
        Valid front ∧ ¬Valid (front ++ [')'])) := by
  refine ⟨fun e depth h => ⟨exists_ofPattern_iff h, fun r hr => contains_iff_matchesText h hr⟩,
    mem_of_valid_paren, fun h r hr => ?_⟩
  exact exists_valid_front h (valid_anchored_of_ofPattern hr)

/-- Texts that start with `"a"`, and texts that end with `"b"`, which is a group. -/
def startsOrEnds : Expr :=
  .alternation [.concat [.look .textStart, .literal ['a']],
    .concat [.group 0 (.literal ['b']), .look .textEnd]]

/-- The text `"ab"`, or the text `"c"`. -/
def abOrC : Expr := .alternation [.literal ['a', 'b'], .literal ['c']]

/-- The group holds an alternation as a whole, a pattern that ends in a comment takes in the end of
the group, and a pattern that is not valid closes the group itself. -/
theorem accepts_and_matches_abOrC :
    (∃ r, ofPattern "ab|c" = .ok r ∧ ∀ term,
      (r.contains term = true ↔ abOrC.MatchesText term.toList.toArray)) ∧
    '#' ∈ "(?x)a#".toList ∧
    ∃ front rest, "a)|(b".toList = front ++ ')' :: rest ∧
      Valid front ∧ ¬Valid (front ++ [')']) := by
  obtain ⟨haccepts, hmatches⟩ := (accepts_and_matches "ab|c").1 abOrC 2 (by cbv)
  obtain ⟨r, hr⟩ := haccepts.mpr ⟨by decide, by decide, by cbv⟩
  have hcomment : '#' ∈ "(?x)a#".toList :=
    (accepts_and_matches "(?x)a#").2.1 (by cbv) (by cbv)
  have hcloses := (accepts_and_matches "a)|(b").2.2 (by decide) ⟨"a)|(b", startsOrEnds⟩ (by cbv)
  exact ⟨⟨r, hr, hmatches r hr⟩, hcomment, hcloses⟩

/-- A pattern that is not valid is accepted and matches a term beyond its end, and a valid one that
ends in a comment is refused. -/
theorem not_accepts_of_valid :
    (¬Valid "a)|(b".toList ∧ ∃ r, ofPattern "a)|(b" = .ok r ∧ r.contains "ax" = true) ∧
      (Valid "(?x)a#".toList ∧ ofPattern "(?x)a#" = .error .invalidRegexp) :=
  ⟨⟨by decide, ⟨"a)|(b", startsOrEnds⟩, by cbv, by cbv⟩, by cbv, by cbv⟩

theorem faithful_of_ofPattern (h : ofPattern pattern = .ok r) : r.Faithful := by
  intro e hread term hcontains
  obtain ⟨hpattern, -⟩ := ofPattern_eq_ok_iff.mp h
  rw [hpattern, Expr.read?_eq, Option.bind_eq_some_iff] at hread
  obtain ⟨⟨e', depth⟩, hnested, hdepth⟩ := hread
  obtain ⟨-, rfl⟩ : depth ≤ deepest ∧ e' = e := by simpa using hdepth
  rw [Expr.size_mem_ends_iff (Expr.feasible_of_nested? hnested)]
  exact (contains_iff_matchesText hnested h term).mp hcontains

end Percolator.Regexp
