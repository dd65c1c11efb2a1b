import Percolator.Query.Evaluation

/-!
# Clauses of boolean queries

The clauses of a boolean query are evaluated as far as the result is open. Where every clause has a
truth value, the result is that of counting: all clauses that must match do, enough of those that
should do, and none of those that must not.

## Main definitions

* `Query.Each` : a property of a query and of all queries in it.
* `Query.countWhere` : how many clauses with a role are true.
* `Query.satisfied` : the clauses are true as their roles say.

## Main results

* `Query.holds_boolean_eq` : a boolean query matches if its clauses are true as their roles say.
-/

namespace Percolator.Query

variable {d : DocumentIndex} {clauses rest : List (Occur × Query)} {occur role : Occur}
  {q : Query} {f : Query → Bool} {P : Query → Prop}

/-! ### Properties of a query and of all queries in it -/

mutual

/-- The property holds of the query and of all queries in it. -/
def Each (P : Query → Prop) : Query → Prop
  | .boolean clauses minShould boost => P (.boolean clauses minShould boost) ∧ EachOf P clauses
  | q => P q

/-- The property holds of the query of each clause and of all queries in it. -/
def EachOf (P : Query → Prop) : List (Occur × Query) → Prop
  | [] => True
  | (_, q) :: rest => Each P q ∧ EachOf P rest

end

mutual

theorem Each.imp {Q : Query → Prop} (hPQ : ∀ q, P q → Q q) : (q : Query) → q.Each P → q.Each Q
  | .boolean _ _ _, h => ⟨hPQ _ h.1, EachOf.imp hPQ _ h.2⟩
  | .all _, h | .term _ _ _, h | .phrase _ _ _ _, h | .interval _ _ _, h | .anyTerm _ _ _, h
  | .custom _, h => hPQ _ h

theorem EachOf.imp {Q : Query → Prop} (hPQ : ∀ q, P q → Q q) :
    (clauses : List (Occur × Query)) → EachOf P clauses → EachOf Q clauses
  | [], _ => trivial
  | (_, q) :: rest, h => ⟨Each.imp hPQ q h.1, EachOf.imp hPQ rest h.2⟩

end

/-! ### Clauses that count -/

/-- How many of the clauses with a role are true. -/
def countWhere (f : Query → Bool) (role : Occur) : List (Occur × Query) → Nat
  | [] => 0
  | (occur, q) :: rest =>
    if occur = role ∧ f q = true then countWhere f role rest + 1 else countWhere f role rest

/-- The clauses are true as their roles say. -/
def satisfied (f : Query → Bool) (clauses : List (Occur × Query)) (minShould : Nat) : Bool :=
  !clauses.isEmpty && countWhere f .must clauses == countOf .must clauses &&
    requiredShould clauses minShould ≤ countWhere f .should clauses &&
    countWhere f .mustNot clauses == 0

theorem satisfied_iff {minShould : Nat} : satisfied f clauses minShould = true ↔
    clauses ≠ [] ∧ countWhere f .must clauses = countOf .must clauses ∧
      requiredShould clauses minShould ≤ countWhere f .should clauses ∧
      countWhere f .mustNot clauses = 0 := by
  simp only [satisfied, Bool.and_eq_true, Bool.not_eq_true', List.isEmpty_eq_false_iff, beq_iff_eq,
    decide_eq_true_eq, and_assoc]

theorem countOf_cons : countOf role ((occur, q) :: clauses) =
    if occur = role then countOf role clauses + 1 else countOf role clauses := by
  simp only [countOf, List.filter_cons, decide_eq_true_eq]
  split <;> rfl

theorem countWhere_le_countOf : countWhere f role clauses ≤ countOf role clauses := by
  induction clauses with
  | nil => exact Nat.zero_le _
  | cons clause rest ih =>
    obtain ⟨occur, q⟩ := clause
    rw [countWhere, countOf_cons]
    by_cases hrole : occur = role
    · rw [if_pos hrole]
      split <;> omega
    · rwa [if_neg hrole, if_neg fun h => hrole h.1]

/-- If as many clauses with a role are true as there are, each of them is. -/
theorem of_countWhere_eq_countOf (h : countWhere f role clauses = countOf role clauses) :
    ∀ q, (role, q) ∈ clauses → f q = true := by
  induction clauses with
  | nil => exact fun _ hq => absurd hq List.not_mem_nil
  | cons clause rest ih =>
    obtain ⟨occur, q⟩ := clause
    have hle : countWhere f role rest ≤ countOf role rest := countWhere_le_countOf
    rw [countWhere, countOf_cons] at h
    intro q' hq'
    by_cases hrole : occur = role
    · by_cases hq : f q = true
      · rw [if_pos ⟨hrole, hq⟩, if_pos hrole] at h
        rcases List.mem_cons.mp hq' with heq | hq'
        · exact (Prod.mk.inj heq).2 ▸ hq
        · exact ih (Nat.succ.inj h) q' hq'
      · rw [if_neg fun h => hq h.2, if_pos hrole] at h
        omega
    · rw [if_neg fun h => hrole h.1, if_neg hrole] at h
      rcases List.mem_cons.mp hq' with heq | hq'
      · exact absurd (Prod.mk.inj heq).1.symm hrole
      · exact ih h q' hq'

theorem everyMust_cons_of_ne (h : occur ≠ .must) :
    everyMust d ((occur, q) :: rest) = everyMust d rest := by
  simp only [everyMust, if_neg h]

theorem enoughShould_cons_of_ne {required : Nat} (h : occur ≠ .should) (hpos : 0 < required) :
    enoughShould d required ((occur, q) :: rest) = enoughShould d required rest := by
  simp only [enoughShould, if_neg h, if_neg (Nat.ne_of_gt hpos)]

/-! ### Clauses that have truth values -/

section Truth

variable (h : ∀ clause ∈ clauses, clause.2.holds d = .ok (f clause.2))
include h

theorem everyMust_eq : everyMust d clauses =
    .ok (countWhere f .must clauses == countOf .must clauses) := by
  induction clauses with
  | nil => rfl
  | cons clause rest ih =>
    obtain ⟨occur, q⟩ := clause
    obtain ⟨hq, hrest⟩ := List.forall_mem_cons.mp h
    rw [countWhere, countOf_cons]
    by_cases hoccur : occur = .must
    · have hle : countWhere f .must rest ≤ countOf .must rest := countWhere_le_countOf
      simp only [everyMust, hoccur, if_true, hq, ih hrest, bind, Except.bind, true_and]
      cases f q with
      | true => simp
      | false =>
        have hne : countWhere f .must rest ≠ countOf .must rest + 1 :=
          Nat.ne_of_lt (Nat.lt_succ_of_le hle)
        simp [hne]
    · rw [everyMust_cons_of_ne hoccur, ih hrest, if_neg hoccur, if_neg fun h => hoccur h.1]

theorem enoughShould_eq (required : Nat) : enoughShould d required clauses =
    .ok (decide (required ≤ countWhere f .should clauses)) := by
  induction clauses generalizing required with
  | nil => cases required <;> rfl
  | cons clause rest ih =>
    obtain ⟨occur, q⟩ := clause
    obtain ⟨hq, hrest⟩ := List.forall_mem_cons.mp h
    cases required with
    | zero => simp [enoughShould]
    | succ required =>
      rw [countWhere]
      by_cases hoccur : occur = .should
      · simp only [enoughShould, hoccur, if_true, hq, ih hrest, bind, Except.bind, true_and]
        cases f q with
        | true => simp
        | false => simp
      · rw [enoughShould_cons_of_ne hoccur (Nat.succ_pos _), ih hrest,
          if_neg fun h => hoccur h.1]

theorem someMustNot_eq : someMustNot d clauses =
    .ok (!(countWhere f .mustNot clauses == 0)) := by
  induction clauses with
  | nil => rfl
  | cons clause rest ih =>
    obtain ⟨occur, q⟩ := clause
    obtain ⟨hq, hrest⟩ := List.forall_mem_cons.mp h
    rw [countWhere]
    by_cases hoccur : occur = .mustNot
    · simp only [someMustNot, hoccur, if_true, hq, ih hrest, bind, Except.bind, true_and]
      cases f q with
      | true => simp
      | false => simp
    · rw [someMustNot, if_neg hoccur, ih hrest, if_neg fun h => hoccur h.1]

/-- A boolean query matches if its clauses are true as their roles say. -/
theorem holds_boolean_eq {minShould : Nat} {boost : Float32} :
    (Query.boolean clauses minShould boost).holds d = .ok (satisfied f clauses minShould) := by
  simp only [holds, everyMust_eq h, enoughShould_eq h, someMustNot_eq h, bind, Except.bind,
    satisfied]
  cases clauses.isEmpty <;> cases countWhere f .must clauses == countOf .must clauses <;>
    cases decide (requiredShould clauses minShould ≤ countWhere f .should clauses) <;>
    simp

end Truth

end Percolator.Query
