import Percolator.Document.Index
import Percolator.Token.Analyzer

/-!
# Documents

A document has a name and fields, and a field has one or more values. A text is analyzed into
tokens; a keyword is a token as it stands. The values of a field follow each other: the positions
of the next value begin 100 behind the last one, so that no phrase reaches from one value to
another, and its offsets begin one byte behind the end of the value before it.
-/

namespace Percolator

/-- A value of a field. -/
inductive FieldValue where
  /-- A text, with its analyzer if it is not the analyzer of the document. -/
  | text (raw : String) (analyzer : Option Analyzer)
  | keyword (raw : String)

namespace FieldValue

/-- The value as it was given. -/
def raw : FieldValue → String
  | .text raw _ => raw
  | .keyword raw => raw

/-- The tokens of a value by itself. -/
def tokens (default : Analyzer) : FieldValue → List Token
  | .text raw analyzer => (analyzer.getD default).tokens raw
  | .keyword raw => [{ text := raw, position := 0, endOffset := raw.utf8ByteSize }]

end FieldValue

/-- The distance between the positions of two values of a field. -/
def positionGap : Nat := 100

/-- The tokens of the values of a field, laid out from a position and an offset on. -/
def layOut (default : Analyzer) (position offset : Nat) : List FieldValue → List Token
  | [] => []
  | v :: rest =>
    let tokens := (v.tokens default).map (·.shift position offset)
    let last := (tokens.getLast?.map (·.position)).getD position
    tokens ++ layOut default (last + positionGap) (offset + v.raw.utf8ByteSize + 1) rest

/-- A document that was analyzed. -/
structure Document where
  id : String
  /-- The values of each field as they were given. -/
  values : Std.TreeMap String (List String)
  index : DocumentIndex

namespace Document

/-- The values of each field, in the order in which they were given. -/
def grouped (values : List (String × FieldValue)) : Std.TreeMap String (List FieldValue) :=
  values.foldl (fun groups (field, v) => groups.insert field (groups.getD field [] ++ [v])) ∅

/-- Analyzes the values of a document, texts by `default` unless they have an analyzer of their
own. -/
def build (id : String) (default : Analyzer) (values : List (String × FieldValue)) :
    Except Error Document :=
  if id.isEmpty then .error .emptyDocumentId
  else
    let groups := grouped values
    .ok {
      id
      values := groups.map fun _ vs => vs.map FieldValue.raw
      index := ⟨groups.map fun _ vs => ⟨layOut default 0 0 vs⟩⟩ }

/-- The values of a field as they were given. -/
def fieldValues (d : Document) (field : String) : List String := d.values.getD field []

end Document

end Percolator
