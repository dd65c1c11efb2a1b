import Percolator.Sorted

/-!
# Key terms

A stored query is found by key terms: a document can match the query only if it has one of them.
-/

namespace Percolator

/-- What it means that a document has a key term. -/
inductive KeyKind where
  /-- The text is a token of the field. -/
  | exact
  /-- The text stands inside a token of the field. -/
  | part
  /-- Every document has the term. -/
  | any
deriving DecidableEq, Repr, Inhabited

namespace KeyKind

/-- The place of a kind in the order of kinds. -/
def rank : KeyKind → Nat
  | .exact => 0
  | .part => 1
  | .any => 2

end KeyKind

/-- A term that stored queries are found by. -/
structure KeyTerm where
  field : String
  text : String
  kind : KeyKind
deriving DecidableEq, Repr, Inhabited

namespace KeyTerm

/-- The order of key terms: by field, then by text, then by kind. -/
protected def compare (s t : KeyTerm) : Ordering :=
  (compare s.field t.field).then <|
    (compare s.text t.text).then (compare s.kind.rank t.kind.rank)

instance : Ord KeyTerm := ⟨KeyTerm.compare⟩

/-- How a key term is written. -/
def render (t : KeyTerm) : String :=
  match t.kind with
  | .exact => t.field ++ ":" ++ t.text
  | .part => t.field ++ ":*" ++ t.text ++ "*"
  | .any => t.field ++ ":ANY"

end KeyTerm

end Percolator
