import Percolator.Interval.Source
import Percolator.Query.TermSet

/-!
# Queries

A query describes documents. Its leaves look at one field each; a boolean query combines clauses
that must, should or must not match. Beside the queries of this library there are user-defined
ones, which bring the result of their evaluation with them.

Every query has a boost, by which its score is multiplied; that of a user-defined query is one.
-/

namespace Percolator

/-- A user-defined query. -/
structure CustomQuery where
  field : Option String
  /-- The score that its evaluation gives, or the reason why it gives none. -/
  result : Except Fault Float32
  /-- How long an evaluation takes, in nanoseconds. -/
  pause : Nat

/-- The role of a clause in a boolean query. -/
inductive Occur where
  | must
  | should
  | mustNot
deriving DecidableEq, Repr

/-- A query. -/
inductive Query where
  /-- Every document. -/
  | all (boost : Float32)
  /-- A term occurs in a field. -/
  | term (field text : String) (boost : Float32)
  /-- Terms occur one behind the other, with at most `slop` more positions between them. -/
  | phrase (field : String) (terms : List String) (slop : Nat) (boost : Float32)
  /-- A source has intervals in a field. -/
  | interval (field : String) (source : IntervalSource) (boost : Float32)
  /-- Some term of a set occurs in a field. -/
  | anyTerm (field : String) (set : TermSet) (boost : Float32)
  /-- The clauses match as their roles say. -/
  | boolean (clauses : List (Occur × Query)) (minShould : Nat) (boost : Float32)
  | custom (query : CustomQuery)

namespace Query

/-- The boost of a query. -/
def boost : Query → Float32
  | .all boost => boost
  | .term _ _ boost => boost
  | .phrase _ _ _ boost => boost
  | .interval _ _ boost => boost
  | .anyTerm _ _ boost => boost
  | .boolean _ _ boost => boost
  | .custom _ => 1

/-- The query with another boost. -/
def withBoost (boost : Float32) : Query → Query
  | .all _ => .all boost
  | .term field text _ => .term field text boost
  | .phrase field terms slop _ => .phrase field terms slop boost
  | .interval field source _ => .interval field source boost
  | .anyTerm field set _ => .anyTerm field set boost
  | .boolean clauses minShould _ => .boolean clauses minShould boost
  | .custom query => .custom query

/-- The field that a query looks at, if it is a single one. -/
def field? : Query → Option String
  | .all _ => none
  | .term field _ _ => some field
  | .phrase field _ _ _ => some field
  | .interval field _ _ => some field
  | .anyTerm field _ _ => some field
  | .boolean _ _ _ => none
  | .custom query => query.field

/-- How many clauses have a role. -/
def countOf (occur : Occur) (clauses : List (Occur × Query)) : Nat :=
  (clauses.filter (·.1 = occur)).length

/-- How many of the clauses that should match have to: as many as asked for, and otherwise one if no
clause must match. -/
def requiredShould (clauses : List (Occur × Query)) (minShould : Nat) : Nat :=
  if minShould > 0 then minShould
  else if countOf .must clauses = 0 ∧ countOf .should clauses > 0 then 1
  else 0

/-- How a boost is written behind a query: not at all if it is one. -/
def renderBoost (boost : Float32) : String :=
  if boost == 1 then "" else "^" ++ Decimal.ofFloat32 boost

/-- What the role of a clause is written as. -/
def renderOccur : Occur → String
  | .must => "+"
  | .should => ""
  | .mustNot => "-"

mutual

/-- How a query is written. -/
def render : Query → String
  | .all _ => "*:*"
  | .term field text boost => field ++ ":" ++ text ++ renderBoost boost
  | .phrase field terms slop _ =>
    field ++ ":\"" ++ " ".intercalate terms ++ "\"" ++ if slop > 0 then s!"~{slop}" else ""
  | .interval field source _ => field ++ ":" ++ source.render
  | .anyTerm field set _ => field ++ ":" ++ set.render
  | .boolean clauses minShould boost =>
    "(" ++ " ".intercalate (renderClauses clauses) ++ ")" ++
      (if minShould > 0 then s!"~{minShould}" else "") ++ renderBoost boost
  | .custom _ => "custom"

/-- How the clauses of a boolean query are written. -/
def renderClauses : List (Occur × Query) → List String
  | [] => []
  | (occur, q) :: rest => (renderOccur occur ++ render q) :: renderClauses rest

end

end Query

end Percolator
