import Percolator.Query.Basic

/-!
# Evaluating queries

A query is evaluated against the index of one document in three ways: whether it matches, its
score, which is zero where it does not match, and the hits to highlight. The clauses of a boolean
query are evaluated one after the other, and only as far as the result is open, so that a clause
that fails to evaluate behind that point does no harm.
-/

namespace Percolator.Query

/-- The last position of a phrase whose last term so far stands at `last`: each of the other terms
is taken at its first occurrence behind the one before. -/
def phraseEnd? (last : Nat) : List (List Nat) → Option Nat
  | [] => some last
  | positions :: rest => do
    let next ← positions.find? (last < ·)
    phraseEnd? next rest

/-- The first and the last position of each occurrence of a phrase. -/
def phraseSpans (d : DocumentIndex) (field : String) (terms : List String) (slop : Nat) :
    List (Nat × Nat) :=
  match terms with
  | [] => []
  | first :: rest =>
    ((d.field field).positions first).filterMap fun start => do
      let last ← phraseEnd? start (rest.map (d.field field).positions)
      if last - start - rest.length ≤ slop then some (start, last) else none

/-- The terms of a field that are in a set. -/
def termsIn (d : DocumentIndex) (field : String) (set : TermSet) : List String :=
  d.matchingTerms field set.contains

/-- The score of a query that only matches or does not. -/
def constantScore (matched : Bool) (boost : Float32) : Float32 := if matched then boost else 0

/-- The hits of the occurrences of a term. -/
def termHits (d : DocumentIndex) (field term : String) : List Hit :=
  ((d.field field).occurrences term).map (.ofToken field)

mutual

/-- The query matches the document. -/
def holds (d : DocumentIndex) : Query → Except Fault Bool
  | .all _ => .ok true
  | .term field text _ => .ok (!((d.field field).occurrences text).isEmpty)
  | .phrase field terms slop _ => .ok (!(phraseSpans d field terms slop).isEmpty)
  | .interval field source _ => .ok (!(source.intervals (d.field field)).isEmpty)
  | .anyTerm field set _ => .ok (!(termsIn d field set).isEmpty)
  | .boolean clauses minShould _ => do
    if clauses.isEmpty then .ok false
    else if !(← everyMust d clauses) then .ok false
    else if !(← enoughShould d (requiredShould clauses minShould) clauses) then .ok false
    else .ok (!(← someMustNot d clauses))
  | .custom query => query.result.map (0 < ·)

/-- Every clause that must match does. -/
def everyMust (d : DocumentIndex) : List (Occur × Query) → Except Fault Bool
  | [] => .ok true
  | (occur, q) :: rest => do
    if occur = .must then
      if ← holds d q then everyMust d rest else .ok false
    else everyMust d rest

/-- At least `required` of the clauses that should match do. -/
def enoughShould (d : DocumentIndex) (required : Nat) :
    List (Occur × Query) → Except Fault Bool
  | [] => .ok (required == 0)
  | (occur, q) :: rest => do
    if required = 0 then .ok true
    else if occur = .should then
      if ← holds d q then enoughShould d (required - 1) rest
      else enoughShould d required rest
    else enoughShould d required rest

/-- Some clause that must not match does. -/
def someMustNot (d : DocumentIndex) : List (Occur × Query) → Except Fault Bool
  | [] => .ok false
  | (occur, q) :: rest => do
    if occur = .mustNot then
      if ← holds d q then .ok true else someMustNot d rest
    else someMustNot d rest

end

mutual

/-- The score of the document. -/
def score (d : DocumentIndex) : Query → Except Fault Float32
  | .all boost => .ok boost
  | .term field text boost =>
    .ok (d.frequencyScore field ((d.field field).occurrences text).length * boost)
  | .phrase field terms slop boost =>
    .ok (d.frequencyScore field (phraseSpans d field terms slop).length * boost)
  | .interval field source boost =>
    .ok (d.frequencyScore field (source.intervals (d.field field)).length * boost)
  | .anyTerm field set boost => .ok (constantScore (!(termsIn d field set).isEmpty) boost)
  | .boolean clauses minShould boost => do
    if clauses.isEmpty then .ok 0
    else if ← someMustNot d clauses then .ok 0
    else
      match ← mustTotal? d 0 clauses with
      | none => .ok 0
      | some total =>
        let (count, total) ← shouldTotal d 0 total clauses
        if count < requiredShould clauses minShould then .ok 0
        else .ok ((if total == 0 then 1 else total) * boost)
  | .custom query => query.result

/-- The sum of `total` and the scores of the clauses that must match, unless one is not positive. -/
def mustTotal? (d : DocumentIndex) (total : Float32) :
    List (Occur × Query) → Except Fault (Option Float32)
  | [] => .ok (some total)
  | (occur, q) :: rest => do
    if occur = .must then
      let s ← score d q
      if s ≤ 0 then .ok none else mustTotal? d (total + s) rest
    else mustTotal? d total rest

/-- Adds the positive scores of the clauses that should match to `total`, and their number to
`count`. -/
def shouldTotal (d : DocumentIndex) (count : Nat) (total : Float32) :
    List (Occur × Query) → Except Fault (Nat × Float32)
  | [] => .ok (count, total)
  | (occur, q) :: rest => do
    if occur = .should then
      let s ← score d q
      if 0 < s then shouldTotal d (count + 1) (total + s) rest
      else shouldTotal d count total rest
    else shouldTotal d count total rest

end

mutual

/-- The hits of a query that matches the document. -/
def hits (d : DocumentIndex) : Query → Except Fault (List Hit)
  | .all _ => .ok []
  | .term field text _ => .ok (termHits d field text)
  | .phrase field terms slop _ =>
    .ok ((phraseSpans d field terms slop).filterMap fun (i, j) => d.hit? field i j)
  | .interval field source _ =>
    .ok ((source.intervals (d.field field)).filterMap fun i => d.hit? field i.first i.last)
  | .anyTerm field set _ => .ok ((termsIn d field set).flatMap (termHits d field))
  | .boolean clauses _ _ => clauseHits d clauses
  | .custom _ => .ok []

/-- The hits of the clauses that must match, and of those that should and do. -/
def clauseHits (d : DocumentIndex) : List (Occur × Query) → Except Fault (List Hit)
  | [] => .ok []
  | (occur, q) :: rest => do
    let here ← match occur with
      | .must => hits d q
      | .should => do if ← holds d q then hits d q else .ok []
      | .mustNot => .ok []
    let behind ← clauseHits d rest
    .ok (here ++ behind)

end

end Percolator.Query
