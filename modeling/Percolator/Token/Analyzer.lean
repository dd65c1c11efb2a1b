import Percolator.Token.Filter
import Percolator.Token.Tokenizer

/-!
# Analyzers

An analyzer turns one value of a field into tokens: a tokenizer cuts the text, and filters change
the tokens one after the other.
-/

namespace Percolator

/-- The analyzers. -/
inductive Analyzer where
  /-- Words in lower case. -/
  | standard
  | pipeline (tokenizer : Tokenizer) (filters : List TokenFilter)

namespace Analyzer

/-- The name of an analyzer. -/
def name : Analyzer → String
  | .standard => "standard"
  | .pipeline _ _ => "pipeline"

/-- The tokenizer of an analyzer. -/
def tokenizer : Analyzer → Tokenizer
  | .standard => .words
  | .pipeline tokenizer _ => tokenizer

/-- The filters of an analyzer. -/
def filters : Analyzer → List TokenFilter
  | .standard => [.lowercase]
  | .pipeline _ filters => filters

/-- The tokens of a text. -/
def tokens (a : Analyzer) (text : String) : List Token :=
  TokenFilter.applyAll a.filters (a.tokenizer.tokens text)

end Analyzer

end Percolator
