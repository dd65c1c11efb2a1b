import Percolator.Token.Distinct
import Percolator.Unicode.Casing

/-!
# Token filters

A filter changes the tokens of one value of a field.
-/

namespace Percolator

/-- The filters. -/
inductive TokenFilter where
  /-- Writes every token that is not marked as removed in lower case. -/
  | lowercase
  /-- Keeps the first token of each text, and none that is marked as removed. -/
  | distinct
deriving DecidableEq, Repr

namespace TokenFilter

/-- The name of a filter. -/
def name : TokenFilter → String
  | .lowercase => "lowercase"
  | .distinct => "duplicate_removal"

/-- The tokens behind a filter. -/
def apply (filter : TokenFilter) (tokens : List Token) : List Token :=
  match filter with
  | .lowercase =>
    tokens.map fun t => if t.stopped then t else t.withText (Unicode.lowercase t.text)
  | .distinct => DistinctStream.toList { input := tokens }

/-- The tokens behind filters that are applied one after the other. -/
def applyAll (filters : List TokenFilter) (tokens : List Token) : List Token :=
  filters.foldl (fun tokens filter => filter.apply tokens) tokens

end TokenFilter

end Percolator
