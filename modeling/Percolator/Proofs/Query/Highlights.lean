import Percolator.Proofs.Query.Scores
import Percolator.Verification.Strategy

/-!
# Highlights come from satisfied leaves

The hits of a boolean query are those of its clauses that must match, and of those that should match
and do. The former are not asked again whether they match: where the query itself matches they do.
So the hits of a query that matches are those of its leaves that match, together with all boolean
queries around them, and are reached without going through a clause that must not match.

## Main definitions

* `Query.Branch`, `Query.branches` : the leaves of a query with the boolean queries around them.
* `Query.satisfiedLeaves` : the leaves that match, with all boolean queries around them.

## Main results

* `Query.hitsOf_satisfiedLeaves` : induction over the query.
* `Query.hits_from_satisfiedLeaves` : the hits of a query that matches, and what is reported of it.
-/

namespace Percolator

namespace Query

variable {d : DocumentIndex} {clauses rest : List (Occur × Query)} {occur : Occur} {q : Query}

/-! ### Leaves -/

/-- A leaf of a query, which is not a boolean one itself, in its place. -/
structure Branch where
  /-- The boolean queries around the leaf, from the outside in. -/
  around : List Query
  leaf : Query

/-- The branch inside one more boolean query. -/
def Branch.inside (q : Query) (b : Branch) : Branch := ⟨q :: b.around, b.leaf⟩

/-- The leaf matches, and so do all boolean queries around it. -/
def Branch.satisfied (d : DocumentIndex) (b : Branch) : Bool :=
  b.around.all (truth d) && b.leaf.truth d

mutual

/-- The leaves that are reached through clauses that must or should match. -/
def branches : Query → List Branch
  | .boolean clauses minShould boost =>
    (clauseBranches clauses).map (.inside (.boolean clauses minShould boost))
  | q => [⟨[], q⟩]

/-- The leaves that are reached through the clauses that must or should match. -/
def clauseBranches : List (Occur × Query) → List Branch
  | [] => []
  | (occur, q) :: rest =>
    if occur = .mustNot then clauseBranches rest else branches q ++ clauseBranches rest

end

/-- The leaves of branches that match, with all boolean queries around them. -/
def leavesOf (d : DocumentIndex) (bs : List Branch) : List Query :=
  (bs.filter (·.satisfied d)).map (·.leaf)

/-- The leaves of a query that match, with all boolean queries around them, and are not reached
through a clause that must not match. -/
def satisfiedLeaves (d : DocumentIndex) (q : Query) : List Query := leavesOf d q.branches

theorem leavesOf_append (bs cs : List Branch) :
    leavesOf d (bs ++ cs) = leavesOf d bs ++ leavesOf d cs := by
  rw [leavesOf, List.filter_append, List.map_append, leavesOf, leavesOf]

theorem leavesOf_inside (h : q.truth d = true) (bs : List Branch) :
    leavesOf d (bs.map (.inside q)) = leavesOf d bs := by
  have hsatisfied : ∀ b : Branch, (b.inside q).satisfied d = b.satisfied d := fun b => by
    rw [Branch.satisfied, Branch.inside, List.all_cons, h, Bool.true_and, Branch.satisfied]
  rw [leavesOf, List.filter_map, List.map_map]
  exact congrArg (List.map _) (List.filter_congr fun b _ => hsatisfied b)

/-- A query that does not match has no satisfied leaves. -/
theorem satisfiedLeaves_eq_nil (h : q.truth d = false) : q.satisfiedLeaves d = [] := by
  have hnone : ∀ b ∈ q.branches, ¬b.satisfied d = true := by
    cases q with
    | boolean clauses minShould boost =>
      refine List.forall_mem_map.mpr fun b _ => ?_
      simp only [Branch.satisfied, Branch.inside, List.all_cons, h, Bool.false_and,
        Bool.false_eq_true, not_false_eq_true]
    | _ =>
      refine List.forall_mem_singleton.mpr ?_
      simp only [Branch.satisfied, h, Bool.and_false, Bool.false_eq_true, not_false_eq_true]
  rw [satisfiedLeaves, leavesOf, List.filter_eq_nil_iff.mpr hnone, List.map_nil]

/-! ### Hits -/

/-- If a boolean query matches, so do its clauses that must match. -/
theorem truth_of_must_mem (hclauses : EachOf BuiltIn clauses) {minShould : Nat} {boost : Float32}
    (h : (Query.boolean clauses minShould boost).truth d = true) :
    ∀ q, (.must, q) ∈ clauses → q.truth d = true := by
  rw [truth_boolean hclauses, satisfied_iff] at h
  exact of_countWhere_eq_countOf h.2.1

/-- The hits of some leaves are found, and they are the hits that a query or clauses have. -/
def HitsOf (d : DocumentIndex) (leaves : List Query) (found : Except Fault (List Hit)) : Prop :=
  ∃ each, leaves.mapM (hits d) = .ok each ∧ found = .ok each.flatten

theorem HitsOf.nil : HitsOf d [] (.ok []) := ⟨[], rfl, rfl⟩

theorem HitsOf.append {leaves others : List Query} {here behind : Except Fault (List Hit)}
    (h : HitsOf d leaves here) (hothers : HitsOf d others behind) :
    HitsOf d (leaves ++ others) (do .ok ((← here) ++ (← behind))) := by
  obtain ⟨each, heach, rfl⟩ := h
  obtain ⟨more, hmore, rfl⟩ := hothers
  refine ⟨each ++ more, ?_, ?_⟩
  · rw [List.mapM_append, heach, hmore]
    rfl
  · rw [List.flatten_append]
    rfl

/-- A leaf that matches is the only satisfied leaf of itself. -/
theorem hitsOf_leaf {found : List Hit} (h : q.truth d = true) (hbranches : q.branches = [⟨[], q⟩])
    (hq : q.hits d = .ok found) : HitsOf d (q.satisfiedLeaves d) (q.hits d) := by
  refine ⟨[found], ?_, by rw [hq, List.flatten_singleton]⟩
  have hsatisfied : Branch.satisfied d ⟨[], q⟩ = true := h
  rw [satisfiedLeaves, leavesOf, hbranches, List.filter_cons_of_pos hsatisfied, List.filter_nil,
    List.map_singleton, List.mapM_cons, hq]
  rfl

mutual

/-- The hits of a query that matches are those of its satisfied leaves. -/
theorem hitsOf_satisfiedLeaves : (q : Query) → q.Each BuiltIn → q.truth d = true →
    HitsOf d (q.satisfiedLeaves d) (q.hits d)
  | .all _, _, h | .term _ _ _, _, h | .phrase _ _ _ _, _, h | .interval _ _ _, _, h
  | .anyTerm _ _ _, _, h => hitsOf_leaf h rfl rfl
  | .boolean clauses minShould boost, hq, h => by
    rw [satisfiedLeaves, branches, leavesOf_inside h]
    exact hitsOf_clauses clauses hq.2 (truth_of_must_mem hq.2 h)
  | .custom c, hq, _ => absurd rfl (hq c)

/-- The hits of clauses of which those that must match do. -/
theorem hitsOf_clauses : (clauses : List (Occur × Query)) → EachOf BuiltIn clauses →
    (∀ q, (.must, q) ∈ clauses → q.truth d = true) →
    HitsOf d (leavesOf d (clauseBranches clauses)) (clauseHits d clauses)
  | [], _, _ => ⟨[], rfl, rfl⟩
  | (occur, q) :: rest, hclauses, hmust => by
    have hrest := hitsOf_clauses rest hclauses.2 fun q hq => hmust q (List.mem_cons_of_mem _ hq)
    simp only [clauseBranches, clauseHits]
    cases occur with
    | must =>
      rw [if_neg Occur.noConfusion, leavesOf_append]
      exact (hitsOf_satisfiedLeaves q hclauses.1 (hmust q List.mem_cons_self)).append hrest
    | should =>
      rw [if_neg Occur.noConfusion, leavesOf_append]
      simp only [holds_eq_truth q hclauses.1]
      cases h : q.truth d with
      | true => exact (hitsOf_satisfiedLeaves q hclauses.1 h).append hrest
      | false =>
        have hnone : HitsOf d (q.satisfiedLeaves d) (.ok []) := by
          rw [satisfiedLeaves_eq_nil h]
          exact .nil
        exact hnone.append hrest
    | mustNot =>
      rw [if_pos rfl]
      exact HitsOf.nil.append hrest

end

/-- A query that matches has the hits of its satisfied leaves, each as often as it has them and as
often as there is such a leaf, and no others. All of these are found, and they are what is reported
for the query, unless a query to highlight has hits of its own. -/
theorem hits_from_satisfiedLeaves (hq : q.Each BuiltIn) (h : q.holds d = .ok true) :
    ∃ each, (q.satisfiedLeaves d).mapM (hits d) = .ok each ∧ q.hits d = .ok each.flatten ∧
      ∀ c : Candidate, c.query = q → Strategy.highlightHits d c = .ok [] →
        Strategy.highlighting.verify d c = .ok (some (Sorted.ofList each.flatten)) := by
  have htruth : q.truth d = true := by rw [truth, h, gives, id]
  obtain ⟨each, heach, hhits⟩ := hitsOf_satisfiedLeaves q hq htruth
  refine ⟨each, heach, hhits, ?_⟩
  rintro c rfl hhighlight
  have hreported : Strategy.reportedHits d c = .ok each.flatten := by
    rw [← hhits, Strategy.reportedHits, hhighlight]
    rfl
  simp only [Strategy.highlighting, h, hreported, bind, Except.bind, if_true]

/-- A text of three words. -/
def redFoxRan : DocumentIndex := DocumentIndex.add {} "body" [
  { text := "red", position := 0, endOffset := 3 },
  { text := "fox", position := 1, startOffset := 4, endOffset := 7 },
  { text := "ran", position := 2, startOffset := 8, endOffset := 11 }]

/-- A query that the text matches, although one of its clauses and a part of another one do not. -/
def redOrFoxesAndCows : Query := .boolean [
  (.must, .boolean [
    (.should, .term "body" "red" 1),
    (.should, .boolean [(.must, .term "body" "fox" 1), (.must, .term "body" "cow" 1)] 0 1)] 0 1),
  (.should, .phrase "body" ["fox", "ran"] 0 1),
  (.mustNot, .boolean [(.must, .term "body" "ran" 1), (.must, .term "body" "cow" 1)] 0 1)] 0 1

/-- The query has the hits of the first word and of the phrase. The second word occurs in it
besides, but only with one that the text does not have. -/
theorem hits_from_satisfiedLeaves_redFoxRan : redOrFoxesAndCows.Each BuiltIn ∧
    redOrFoxesAndCows.holds redFoxRan = .ok true ∧
    redOrFoxesAndCows.hits redFoxRan = .ok [⟨"body", 0, 0, 0, 3⟩, ⟨"body", 1, 2, 4, 11⟩] ∧
    ∃ each, (redOrFoxesAndCows.satisfiedLeaves redFoxRan).mapM (hits redFoxRan) = .ok each ∧
      redOrFoxesAndCows.hits redFoxRan = .ok each.flatten ∧
      ∀ c : Candidate, c.query = redOrFoxesAndCows → Strategy.highlightHits redFoxRan c = .ok [] →
        Strategy.highlighting.verify redFoxRan c =
          .ok (some (Sorted.ofList each.flatten)) := by
  have hbuiltIn : redOrFoxesAndCows.Each BuiltIn := by
    simp only [redOrFoxesAndCows, Each, EachOf, BuiltIn, ne_eq, reduceCtorEq, not_false_eq_true,
      implies_true, and_self]
  have hholds : redOrFoxesAndCows.holds redFoxRan = .ok true := by decide +kernel
  exact ⟨hbuiltIn, hholds, by decide +kernel, hits_from_satisfiedLeaves hbuiltIn hholds⟩

end Query

end Percolator
