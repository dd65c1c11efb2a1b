import Percolator.Document.Index
import Percolator.Interval.Basic
import Percolator.Sorted

/-!
# Sources of intervals

A source names intervals of a field: the occurrences of a term, or intervals that are put together
from those of other sources. Where a source limits its gaps, the positions of an interval that
none of its parts covers may not be more than the limit.
-/

namespace Percolator

/-- A source of intervals. -/
inductive IntervalSource where
  /-- The occurrences of a term. -/
  | term (text : String)
  /-- One interval of each source, each behind the one before. -/
  | ordered (sources : List IntervalSource) (maxGaps : Option Nat)
  /-- One interval of each source, wherever they stand. -/
  | unordered (sources : List IntervalSource) (maxGaps : Option Nat)
  /-- The intervals of any of the sources. -/
  | anyOf (sources : List IntervalSource)
  /-- The intervals of the first source that overlap none of the second. -/
  | without (source removed : IntervalSource)
deriving Repr, Inhabited

namespace IntervalSource

/-- The source with a limit on its gaps, if it is an ordered or an unordered one. -/
def withMaxGaps (gaps : Nat) : IntervalSource → IntervalSource
  | .ordered sources _ => .ordered sources (some gaps)
  | .unordered sources _ => .unordered sources (some gaps)
  | source => source

/-- The positions of the span that no part covers, counted with their overlaps, are within the
limit. -/
def gapsWithin (maxGaps : Option Nat) (span : Interval) (parts : List Interval) : Bool :=
  maxGaps.all fun gaps => span.length - (parts.map Interval.length).foldl (· + ·) 0 ≤ gaps

/-- From each list the interval that ends first among those behind the one before. -/
def chain? (last : Interval) : List (List Interval) → Option (List Interval)
  | [] => some []
  | list :: rest => do
    let next ← Interval.earliestEnd? (list.filter (last.last < ·.first))
    let behind ← chain? next rest
    some (next :: behind)

/-- The span of the chain that begins with an interval. -/
def chainSpan? (maxGaps : Option Nat) (rest : List (List Interval)) (i : Interval) :
    Option Interval := do
  let parts ← chain? i rest
  let span : Interval := ⟨i.first, (parts.getLast?.getD i).last⟩
  if gapsWithin maxGaps span (i :: parts) then some span else none

/-- The spans of chains, one for each interval of the first list that begins one. -/
def chainSpans (maxGaps : Option Nat) : List (List Interval) → List Interval
  | [] => []
  | first :: rest => first.filterMap (chainSpan? maxGaps rest)

/-- Removes an interval from the front of the first list that begins with it. -/
def dropFront (i : Interval) : List (List Interval) → List (List Interval)
  | [] => []
  | list :: rest => if list.head? = some i then list.tail :: rest else list :: dropFront i rest

/-- The spans of the first intervals of all lists, as the one that comes first is removed over and
over, until a list is used up. -/
def sweep (maxGaps : Option Nat) (fuel : Nat) (lists : List (List Interval)) : List Interval :=
  match fuel, lists.mapM List.head? with
  | fuel + 1, some (head :: heads) =>
    let front := Interval.earliest head heads
    let span : Interval := ⟨front.first, Interval.latestEnd (head :: heads)⟩
    let spans := sweep maxGaps fuel (dropFront front lists)
    if gapsWithin maxGaps span (head :: heads) then span :: spans else spans
  | _, _ => []

/-- The spans that the sweep over all intervals finds. -/
def sweepSpans (maxGaps : Option Nat) (lists : List (List Interval)) : List Interval :=
  sweep maxGaps lists.flatten.length lists

mutual

/-- The intervals of a source in a field, in order and without repetitions. -/
def intervals (field : FieldIndex) : IntervalSource → List Interval
  | .term text => Sorted.ofList ((field.positions text).map .point)
  | .ordered sources maxGaps =>
    Sorted.ofList (chainSpans maxGaps (intervalsOfEach field sources))
  | .unordered sources maxGaps =>
    Sorted.ofList (sweepSpans maxGaps (intervalsOfEach field sources))
  | .anyOf sources => Sorted.ofList (intervalsOfEach field sources).flatten
  | .without source removed =>
    let removed := intervals field removed
    (intervals field source).filter fun i => !removed.any (·.overlaps i)

/-- The intervals of each source. -/
def intervalsOfEach (field : FieldIndex) : List IntervalSource → List (List Interval)
  | [] => []
  | source :: rest => intervals field source :: intervalsOfEach field rest

end

/-- How a limit on gaps is written. -/
def renderGaps : Option Nat → String
  | some gaps => s!"~{gaps}"
  | none => ""

mutual

/-- How a source is written. -/
def render : IntervalSource → String
  | .term text => text
  | .ordered sources maxGaps =>
    "ORDERED(" ++ ",".intercalate (renderEach sources) ++ ")" ++ renderGaps maxGaps
  | .unordered sources maxGaps =>
    "UNORDERED(" ++ ",".intercalate (renderEach sources) ++ ")" ++ renderGaps maxGaps
  | .anyOf sources => "OR(" ++ ",".intercalate (renderEach sources) ++ ")"
  | .without source removed => "NON_OVERLAPPING(" ++ render source ++ "," ++ render removed ++ ")"

/-- How each source is written. -/
def renderEach : List IntervalSource → List String
  | [] => []
  | source :: rest => render source :: renderEach rest

end

end IntervalSource

end Percolator
