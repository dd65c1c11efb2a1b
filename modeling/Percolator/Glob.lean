import Percolator.Error
import Percolator.Pattern.Blueprint
import Percolator.Text

/-!
# Globs

A glob is a pattern for whole terms: `*` stands for any number of characters and `?` for one, a
backslash takes away the meaning of the character behind it, and any other character stands for
itself. Neither `*` nor `?` stands for a line feed. A glob must not be larger, as a regular
expression, than such an expression may be.
-/

namespace Percolator

open Pattern (Expr)

/-- An element of a glob. -/
inductive GlobItem where
  | char (c : Char)
  /-- One character. -/
  | one
  /-- Any number of characters. -/
  | many
deriving DecidableEq, Repr

/-- A pattern for whole terms. -/
structure Glob where
  /-- The pattern as it was written. -/
  source : String
deriving DecidableEq, Repr, Inhabited

namespace Glob

/-- Reads the elements of a glob. A backslash at the end stands for itself. -/
def read : List Char → List GlobItem
  | [] => []
  | ['\\'] => [.char '\\']
  | '\\' :: c :: rest => .char c :: read rest
  | '*' :: rest => .many :: read rest
  | '?' :: rest => .one :: read rest
  | c :: rest => .char c :: read rest

/-- The elements of a glob. -/
def items (g : Glob) : List GlobItem := read g.source.toList

/-- A wildcard stands for the character. -/
def isWild (c : Char) : Bool := c != '\n'

/-- The expression of an element. -/
def itemExpr : GlobItem → Expr
  | .char c => .literal [c]
  | .one => .oneOf .unicode (CharSet.single '\n').complement
  | .many => .repetition 0 none true (.oneOf .unicode (CharSet.single '\n').complement)

/-- The regular expression of a glob. -/
def expr (g : Glob) : Expr :=
  .seq (.look .textStart :: g.items.map itemExpr ++ [.look .textEnd])

/-- The glob that is written as `source`, unless it is too large. -/
def ofSource (source : String) : Except Error Glob :=
  let g : Glob := ⟨source⟩
  if g.expr.fits then .ok g else .error .invalidGlob

/-- Marks the places behind the characters that `p` holds of and in front of which a place is
marked. There is a mark for every place in the text and one more for its end. -/
def advance (p : Char → Bool) (marks : List Bool) (text : List Char) : List Bool :=
  false :: marks.zipWith (fun marked c => marked && p c) text

/-- Marks the places from every marked one on, up to the first character that no wildcard stands
for. `marked` tells that the place is reached from those in front of it. -/
def spread (marked : Bool) : List Bool → List Char → List Bool
  | m :: marks, c :: text => (marked || m) :: spread ((marked || m) && isWild c) marks text
  | m :: marks, [] => (marked || m) :: marks
  | [], _ => []

/-- The places behind an element that begins at a marked place. -/
def reach (text : List Char) (marks : List Bool) : GlobItem → List Bool
  | .char c => advance (· == c) marks text
  | .one => advance isWild marks text
  | .many => spread false marks text

/-- The glob matches the term. -/
def contains (g : Glob) (term : String) : Bool :=
  let text := term.toList
  let start := true :: text.map fun _ => false
  (g.items.foldl (reach text) start).getLastD false

/-- The longest text between wildcards, the first of equally long ones. `run` is the text since the
last wildcard, and `best` the longest before it. A lone backslash at the end adds nothing. -/
def longestRun (best run : List Char) : List Char → List Char
  | [] => Text.longer best run
  | ['\\'] => Text.longer best run
  | '\\' :: c :: rest => longestRun best (run ++ [c]) rest
  | '*' :: rest => longestRun (Text.longer best run) [] rest
  | '?' :: rest => longestRun (Text.longer best run) [] rest
  | c :: rest => longestRun best (run ++ [c]) rest

/-- The longest text that stands between wildcards. -/
def longestLiteral (g : Glob) : String := String.ofList (longestRun [] [] g.source.toList)

end Glob

end Percolator
