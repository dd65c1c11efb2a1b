import Percolator.Token.Basic
import Std.Data.TreeMap
import Std.Data.TreeSet

/-!
# Document indexes

The index of a document holds the tokens of each of its fields. An occurrence of a term in a field
is a token with the text of the term. A hit names a stretch of a field by its first and last
position and by the offsets of the tokens there.
-/

namespace Percolator

/-- A stretch of a field. -/
structure Hit where
  field : String
  startPosition : Nat
  endPosition : Nat
  startOffset : Nat
  endOffset : Nat
deriving DecidableEq, Repr, Inhabited

namespace Hit

/-- The order of hits: by field, then by positions, then by offsets. -/
protected def compare (a b : Hit) : Ordering :=
  (compare a.field b.field).then <|
    (compare a.startPosition b.startPosition).then <|
      (compare a.endPosition b.endPosition).then <|
        (compare a.startOffset b.startOffset).then (compare a.endOffset b.endOffset)

instance : Ord Hit := ⟨Hit.compare⟩

/-- The hit of one token of a field. -/
def ofToken (field : String) (t : Token) : Hit :=
  ⟨field, t.position, t.position, t.startOffset, t.endOffset⟩

end Hit

/-- The tokens of a field in the order in which they were added. -/
structure FieldIndex where
  tokens : List Token := []
deriving DecidableEq, Repr, Inhabited

namespace FieldIndex

/-- The number of tokens. -/
def length (f : FieldIndex) : Nat := f.tokens.length

/-- The occurrences of a term. -/
def occurrences (f : FieldIndex) (term : String) : List Token :=
  f.tokens.filter (·.text == term)

/-- The positions at which a term occurs. -/
def positions (f : FieldIndex) (term : String) : List Nat :=
  (f.occurrences term).map (·.position)

/-- The different texts of the tokens. -/
def terms (f : FieldIndex) : Std.TreeSet String :=
  f.tokens.foldl (fun terms t => terms.insert t.text) ∅

/-- Halves the stretch of `size` tokens from `start` on, as long as it has more than one, keeping
the half that begins with a position of at most `position`, and the first half otherwise. -/
def narrow (tokens : Array Token) (position start size : Nat) : Nat :=
  if size ≤ 1 then start
  else
    let middle := start + size / 2
    let start := if (tokens[middle]?).any (·.position ≤ position) then middle else start
    narrow tokens position start (size - size / 2)
termination_by size

/-- The token at a position. The tokens are searched by halving, so their positions have to
increase. -/
def tokenAt? (f : FieldIndex) (position : Nat) : Option Token :=
  let tokens := f.tokens.toArray
  (tokens[narrow tokens position 0 tokens.size]?).filter (·.position == position)

end FieldIndex

/-- The tokens of the fields of one document. -/
structure DocumentIndex where
  fields : Std.TreeMap String FieldIndex := ∅
deriving Inhabited

namespace DocumentIndex

/-- The index of a field; a field that is absent has no tokens. -/
def field (d : DocumentIndex) (name : String) : FieldIndex := d.fields.getD name {}

/-- The index with more tokens of a field. -/
def add (d : DocumentIndex) (name : String) (tokens : List Token) : DocumentIndex :=
  ⟨d.fields.insert name ⟨(d.field name).tokens ++ tokens⟩⟩

/-- The names of the fields, in order. -/
def fieldNames (d : DocumentIndex) : List String := d.fields.keys

/-- The terms of a field that `p` holds of, in order. -/
def matchingTerms (d : DocumentIndex) (name : String) (p : String → Bool) : List String :=
  (d.field name).terms.toList.filter p

/-- The score of some occurrences in a field: the root of their number, divided by the root of the
number of tokens. -/
def frequencyScore (d : DocumentIndex) (name : String) (occurrences : Nat) : Float32 :=
  let length := (d.field name).length
  if occurrences = 0 ∨ length = 0 then 0
  else occurrences.toUInt64.toFloat32.sqrt / length.toUInt64.toFloat32.sqrt

/-- The hit from one position of a field to another, if there are tokens at both. -/
def hit? (d : DocumentIndex) (name : String) (first last : Nat) : Option Hit := do
  let a ← (d.field name).tokenAt? first
  let b ← (d.field name).tokenAt? last
  some ⟨name, first, last, a.startOffset, b.endOffset⟩

end DocumentIndex

end Percolator
