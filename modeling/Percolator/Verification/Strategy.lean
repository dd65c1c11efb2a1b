import Percolator.Query.Pause
import Percolator.Verification.Verdict

/-!
# Strategies

A strategy says what is found out about a match, how long that takes, and what two matches of the
same query come to.
-/

namespace Percolator

/-- A strategy of verification. -/
structure Strategy (α : Type) where
  /-- What is known about the match of a candidate, if it matches. -/
  verify : DocumentIndex → Candidate → Except Fault (Option α)
  /-- How long user-defined queries take to find that out, in nanoseconds. -/
  pause : DocumentIndex → Candidate → Nat
  /-- What two matches of one query come to, the one that was known before in front. -/
  combine : Match α → Match α → Match α

namespace Strategy

/-- Finds out whether a query matches, and no more. -/
def simple : Strategy Unit where
  verify d c := do
    if ← c.query.holds d then .ok (some ()) else .ok none
  pause d c := c.query.holdsPause d
  combine _ new := new

/-- Finds out the score, which is positive if the query matches. The higher score counts. -/
def scoring : Strategy Float32 where
  verify d c := do
    let score ← c.query.score d
    .ok (if 0 < score then some score else none)
  pause d c := c.query.scorePause d
  combine old new := if old.known < new.known then new else old

/-- The hits of the query to highlight, if there is one. -/
def highlightHits (d : DocumentIndex) (c : Candidate) : Except Fault (List Hit) :=
  match c.highlight with
  | some q => q.hits d
  | none => .ok []

/-- The hits to report for a query that matches: those of the query to highlight if it has any. -/
def reportedHits (d : DocumentIndex) (c : Candidate) : Except Fault (List Hit) := do
  let hits ← highlightHits d c
  if hits.isEmpty then c.query.hits d else .ok hits

/-- How long it takes to find the hits to report. -/
def reportedHitsPause (d : DocumentIndex) (c : Candidate) : Nat :=
  (c.highlight.map (·.hitsPause d)).getD 0 +
    if Query.gives List.isEmpty (highlightHits d c) then c.query.hitsPause d else 0

/-- Finds out the hits of a query that matches. All hits count. -/
def highlighting : Strategy (List Hit) where
  verify d c := do
    if ← c.query.holds d then .ok (some (Sorted.ofList (← reportedHits d c))) else .ok none
  pause d c :=
    c.query.holdsPause d +
      if Query.gives id (c.query.holds d) then reportedHitsPause d c else 0
  combine old new := ⟨old.id, Sorted.union old.known new.known⟩

/-- The verdict on a candidate. A verification takes some time even where no query pauses. -/
def verdict {α : Type} (s : Strategy α) (d : DocumentIndex) (c : Candidate) : Verdict α :=
  { id := c.id, result := s.verify d c, elapsed := s.pause d c + 1 }

end Strategy

end Percolator
