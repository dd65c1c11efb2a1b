import Percolator.Decimal.Reading
import Percolator.Decimal.Shortest
import Percolator.Error
import Percolator.Glob
import Percolator.Pattern.Matching
import Percolator.Pattern.Read

/-!
# Sets of terms

A set of terms is given by a glob, by what its terms begin with, by a regular expression, or by
bounds in the order of texts or of numbers. `TermSet.contains` decides whether a term is in the
set, and `TermSet.render` writes the set as it stands behind the field of a query.
-/

namespace Percolator

/-- A bound of a range. -/
inductive Bound (α : Type) where
  | unbounded
  | included (value : α)
  | excluded (value : α)
deriving Repr

namespace Bound

variable {α : Type} [LE α] [LT α] [DecidableLE α] [DecidableLT α]

/-- The value satisfies the bound as a lower bound. -/
def admitsAbove (value : α) : Bound α → Bool
  | .unbounded => true
  | .included bound => bound ≤ value
  | .excluded bound => bound < value

/-- The value satisfies the bound as an upper bound. -/
def admitsBelow (value : α) : Bound α → Bool
  | .unbounded => true
  | .included bound => value ≤ bound
  | .excluded bound => value < bound

end Bound

/-- A regular expression for whole terms. -/
structure Regexp where
  /-- The pattern as it was written. -/
  pattern : String
  /-- The expression of the pattern between the start and the end of the text. -/
  anchored : Pattern.Expr

namespace Regexp

/-- The pattern in a group between the start and the end of the text. -/
def anchor (pattern : String) : String := "^(?:" ++ pattern ++ ")$"

/-- The regular expression of a pattern, unless it is too large. -/
def ofPattern (pattern : String) : Except Error Regexp :=
  match (Pattern.Expr.read? (anchor pattern)).filter (·.fits) with
  | some anchored => .ok ⟨pattern, anchored⟩
  | none => .error .invalidRegexp

/-- The anchored expression matches somewhere in the term. -/
def contains (r : Regexp) (term : String) : Bool := r.anchored.occursIn term.toList.toArray

end Regexp

/-- A set of terms. -/
inductive TermSet where
  | glob (glob : Glob)
  | startsWith (start : String)
  | regexp (regexp : Regexp)
  | range (lower upper : Bound String)
  | numericRange (lower upper : Bound Float)

namespace TermSet

/-- The term is in the set. A term that is not a number is in no range of numbers. -/
def contains : TermSet → String → Bool
  | .glob g, term => g.contains term
  | .startsWith start, term => start.toList.isPrefixOf term.toList
  | .regexp r, term => r.contains term
  | .range lower upper, term => lower.admitsAbove term && upper.admitsBelow term
  | .numericRange lower upper, term =>
    (Decimal.readFloat? term).any fun x =>
      !x.isNaN && lower.admitsAbove x && upper.admitsBelow x

/-- How bounds are written; a brace stands for an excluded bound. -/
def renderBounds (lower upper : Bound String) : String :=
  let left := match lower with
    | .unbounded => "[*"
    | .included v => "[" ++ v
    | .excluded v => "\x7b" ++ v
  let right := match upper with
    | .unbounded => "*]"
    | .included v => v ++ "]"
    | .excluded v => v ++ "\x7d"
  left ++ " TO " ++ right

/-- The bound in decimals. -/
def decimalBound : Bound Float → Bound String
  | .unbounded => .unbounded
  | .included x => .included (Decimal.ofFloat x)
  | .excluded x => .excluded (Decimal.ofFloat x)

/-- How a set is written. -/
def render : TermSet → String
  | .glob g => g.source
  | .startsWith start => start ++ "*"
  | .regexp r => "/" ++ r.pattern ++ "/"
  | .range lower upper => renderBounds lower upper
  | .numericRange lower upper => renderBounds (decimalBound lower) (decimalBound upper)

end TermSet

end Percolator
