import Percolator.Token.Basic
import Std.Data.TreeSet

/-!
# Distinct tokens

A `DistinctStream` yields the tokens of its input one at a time, leaving out those that are marked
as removed and those whose text it has yielded before. It can be given a new input, and then it
begins anew.
-/

namespace Percolator

/-- A stream of tokens with different texts. -/
structure DistinctStream where
  /-- The tokens that are left. -/
  input : List Token
  /-- The texts that were yielded. -/
  seen : Std.TreeSet String := ∅

namespace DistinctStream

/-- The first of the tokens that is not marked as removed and whose text is new, with the tokens
behind it. -/
def firstNew? (seen : Std.TreeSet String) : List Token → Option (Token × List Token)
  | [] => none
  | t :: rest =>
    if t.stopped || seen.contains t.text then firstNew? seen rest else some (t, rest)

/-- The next token and the stream behind it. -/
def next (s : DistinctStream) : Option Token × DistinctStream :=
  match firstNew? s.seen s.input with
  | some (t, rest) => (some t, ⟨rest, s.seen.insert t.text⟩)
  | none => (none, ⟨[], s.seen⟩)

/-- At most `n` tokens and the stream behind them. -/
def take (n : Nat) (s : DistinctStream) : List Token × DistinctStream :=
  match n with
  | 0 => ([], s)
  | n + 1 =>
    match s.next with
    | (some t, s) =>
      let (ts, s) := s.take n
      (t :: ts, s)
    | (none, s) => ([], s)

/-- All tokens that are left, and the stream behind them. -/
def drain (s : DistinctStream) : List Token × DistinctStream := s.take s.input.length

/-- All tokens that are left. -/
def toList (s : DistinctStream) : List Token := s.drain.1

/-- The stream of a new input. -/
def reset (_ : DistinctStream) (input : List Token) : DistinctStream := { input }

/-- How many texts were yielded. -/
def seenCount (s : DistinctStream) : Nat := s.seen.size

end DistinctStream

end Percolator
