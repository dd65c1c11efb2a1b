import Percolator.Query.Basic

/-!
# Candidates and verdicts

A candidate is a stored query that may match a document. The verification of a candidate ends with
a verdict: what is known about the match, that there is none, or why nobody knows, and how long it
took to find out.
-/

namespace Percolator

/-- A stored query that may match a document. -/
structure Candidate where
  id : String
  query : Query
  /-- The query whose hits are reported, if it is not the query itself. -/
  highlight : Option Query := none

/-- The end of the verification of one candidate. -/
structure Verdict (α : Type) where
  id : String
  /-- What is known about the match, if there is one. -/
  result : Except Fault (Option α)
  /-- How long the verification took, in nanoseconds. -/
  elapsed : Nat

/-- A match of a query. -/
structure Match (α : Type) where
  id : String
  /-- What is known about the match. -/
  known : α
deriving DecidableEq, Repr, Inhabited

/-- The match that was found. -/
def Verdict.match? {α : Type} (v : Verdict α) : Except Fault (Option (Match α)) :=
  v.result.map (·.map fun known => ⟨v.id, known⟩)

end Percolator
