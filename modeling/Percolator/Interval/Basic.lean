/-!
# Intervals

An interval is a stretch of positions of a field, from its first to its last.
-/

namespace Percolator

/-- The positions from `first` to `last`, both included. -/
structure Interval where
  first : Nat
  last : Nat
deriving DecidableEq, Repr, Inhabited

namespace Interval

/-- The interval of one position. -/
def point (position : Nat) : Interval := ⟨position, position⟩

/-- The number of positions. -/
def length (i : Interval) : Nat := i.last - i.first + 1

/-- The intervals share a position. -/
def overlaps (i j : Interval) : Bool := i.first ≤ j.last && j.first ≤ i.last

/-- The positions of the second interval are positions of the first. -/
def contains (i j : Interval) : Bool := i.first ≤ j.first && j.last ≤ i.last

/-- The order of intervals: by the first position, then by the last. -/
protected def compare (i j : Interval) : Ordering :=
  (compare i.first j.first).then (compare i.last j.last)

instance : Ord Interval := ⟨Interval.compare⟩

/-- The interval that ends first, the first of several. -/
def earliestEnd? : List Interval → Option Interval
  | [] => none
  | i :: rest =>
    match earliestEnd? rest with
    | some j => if j.last < i.last then some j else some i
    | none => some i

/-- The interval that comes first in the order. -/
def earliest (i : Interval) : List Interval → Interval
  | [] => i
  | j :: rest => earliest (if compare j i = .lt then j else i) rest

/-- The last position of any of the intervals. -/
def latestEnd (is : List Interval) : Nat := is.foldl (fun n i => max n i.last) 0

end Interval

end Percolator
