import Percolator.Query.Evaluation

/-!
# How long evaluations take

Of the queries only the user-defined ones take time, which they bring with them. An evaluation
takes the time of those that it comes to: it stops where its result is known, or where a clause
fails to evaluate. For each way of evaluating a query and its clauses there is a function here that
follows the same path and adds up the times, in nanoseconds.
-/

namespace Percolator.Query

/-- An evaluation went well with a result that satisfies `p`. -/
def gives {α : Type} (p : α → Bool) : Except Fault α → Bool
  | .ok a => p a
  | .error _ => false

mutual

/-- How long it takes to decide whether the query matches. -/
def holdsPause (d : DocumentIndex) : Query → Nat
  | .boolean clauses minShould _ =>
    let required := requiredShould clauses minShould
    if clauses.isEmpty then 0
    else if !gives id (everyMust d clauses) then everyMustPause d clauses
    else if !gives id (enoughShould d required clauses) then
      everyMustPause d clauses + enoughShouldPause d required clauses
    else
      everyMustPause d clauses + enoughShouldPause d required clauses +
        someMustNotPause d clauses
  | .custom query => query.pause
  | _ => 0

/-- How long it takes to decide whether every clause that must match does. -/
def everyMustPause (d : DocumentIndex) : List (Occur × Query) → Nat
  | [] => 0
  | (occur, q) :: rest =>
    if occur ≠ .must then everyMustPause d rest
    else holdsPause d q + if gives id (holds d q) then everyMustPause d rest else 0

/-- How long it takes to find `required` clauses that should match and do. -/
def enoughShouldPause (d : DocumentIndex) (required : Nat) : List (Occur × Query) → Nat
  | [] => 0
  | (occur, q) :: rest =>
    if required = 0 then 0
    else if occur ≠ .should then enoughShouldPause d required rest
    else
      match holds d q with
      | .ok matched =>
        holdsPause d q + enoughShouldPause d (if matched then required - 1 else required) rest
      | .error _ => holdsPause d q

/-- How long it takes to decide whether some clause that must not match does. -/
def someMustNotPause (d : DocumentIndex) : List (Occur × Query) → Nat
  | [] => 0
  | (occur, q) :: rest =>
    if occur ≠ .mustNot then someMustNotPause d rest
    else holdsPause d q + if gives (!·) (holds d q) then someMustNotPause d rest else 0

end

mutual

/-- How long it takes to find the score. -/
def scorePause (d : DocumentIndex) : Query → Nat
  | .boolean clauses _ _ =>
    if clauses.isEmpty then 0
    else if !gives (!·) (someMustNot d clauses) then someMustNotPause d clauses
    else if !gives Option.isSome (mustTotal? d 0 clauses) then
      someMustNotPause d clauses + mustTotalPause d clauses
    else someMustNotPause d clauses + mustTotalPause d clauses + shouldTotalPause d clauses
  | .custom query => query.pause
  | _ => 0

/-- How long it takes to add up the scores of the clauses that must match. -/
def mustTotalPause (d : DocumentIndex) : List (Occur × Query) → Nat
  | [] => 0
  | (occur, q) :: rest =>
    if occur ≠ .must then mustTotalPause d rest
    else scorePause d q + if gives (!· ≤ 0) (score d q) then mustTotalPause d rest else 0

/-- How long it takes to add up the scores of the clauses that should match. -/
def shouldTotalPause (d : DocumentIndex) : List (Occur × Query) → Nat
  | [] => 0
  | (occur, q) :: rest =>
    if occur ≠ .should then shouldTotalPause d rest
    else scorePause d q + if gives (fun _ => true) (score d q) then shouldTotalPause d rest else 0

end

mutual

/-- How long it takes to find the hits. A user-defined query has none, which takes no time. -/
def hitsPause (d : DocumentIndex) : Query → Nat
  | .boolean clauses _ _ => clauseHitsPause d clauses
  | _ => 0

/-- How long it takes to find the hits of the clauses that must match, and of those that should and
do. -/
def clauseHitsPause (d : DocumentIndex) : List (Occur × Query) → Nat
  | [] => 0
  | (occur, q) :: rest =>
    let behind := clauseHitsPause d rest
    let withHits := hitsPause d q + if gives (fun _ => true) (hits d q) then behind else 0
    match occur with
    | .must => withHits
    | .should =>
      match holds d q with
      | .ok matched => holdsPause d q + if matched then withHits else behind
      | .error _ => holdsPause d q
    | .mustNot => behind

end

end Percolator.Query
