import Percolator.Error
import Std.Data.TreeSet

/-!
# Parts of texts

The parts of a text are its stretches of at least one character, and of at most as many as a limit
allows. Places in a text are counted in words of 64 bits, and a place that the limit leads to beyond
the last word ends the computation.
-/

namespace Percolator.Parts

/-- The place behind the longest part that begins at `start`. The limit is added before the end of
the text is looked at, so the sum has to fit into a word however short the text is. -/
def bound (limit : UInt64) (text : List Char) (start : Nat) : Except Fault Nat :=
  if start + limit.toNat < UInt64.size then .ok (min (start + limit.toNat) text.length)
  else .error .crash

/-- The parts that begin at `start`. -/
def startingAt (limit : UInt64) (text : List Char) (start : Nat) : Except Fault (List String) := do
  let last ← bound limit text start
  .ok ((List.range' (start + 1) (last - start)).map fun stop =>
    String.ofList ((text.take stop).drop start))

/-- The parts of a text. -/
def all (limit : UInt64) (text : List Char) : Except Fault (List String) :=
  (List.range text.length).flatMapM (startingAt limit text)

/-- The different parts of some texts, in order. -/
def ofEach (limit : UInt64) (texts : List String) : Except Fault (List String) := do
  let parts ← texts.flatMapM fun text => all limit text.toList
  .ok (Std.TreeSet.ofList parts).toList

end Percolator.Parts
