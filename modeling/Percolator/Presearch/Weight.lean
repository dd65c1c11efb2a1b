import Percolator.Presearch.Term
import Std.Data.TreeMap

/-!
# Weights of key terms

A weight estimates how many documents have a key term; lower is better. Longer texts are taken to
be rarer. Fields and texts that are known to be common can be made heavier.
-/

namespace Percolator

/-- What the weights of key terms are computed from. -/
structure Weights where
  /-- Factors of fields, one if absent. -/
  fields : Std.TreeMap String Float32 := ∅
  /-- Factors of texts, one if absent. -/
  texts : Std.TreeMap String Float32 := ∅
  /-- The factor of texts that stand inside a token. -/
  part : Float32 := 2
deriving Inhabited

namespace Weights

/-- The weight of every document. -/
def infinite : Float32 := 1 / 0

/-- The weight of a key term. -/
def weigh (w : Weights) (t : KeyTerm) : Float32 :=
  let byLength := 1 / (t.text.length.toUInt64.toFloat32 + 1).log
  let byText := byLength * w.fields.getD t.field 1 * w.texts.getD t.text 1
  match t.kind with
  | .exact => byText
  | .part => byText * w.part
  | .any => infinite

/-- The lower of two weights, the other one if one is not a number. -/
def lower (a b : Float32) : Float32 :=
  if a.isNaN then b else if b.isNaN then a else if b < a then b else a

/-- The higher of two weights, the other one if one is not a number. -/
def higher (a b : Float32) : Float32 :=
  if a.isNaN then b else if b.isNaN then a else if a < b then b else a

end Weights

end Percolator
