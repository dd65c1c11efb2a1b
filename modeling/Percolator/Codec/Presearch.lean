import Percolator.Codec.Record
import Percolator.Presearch.KeySet
import Percolator.Presearch.Settings
import Percolator.Presearch.Weight

/-!
# Key terms, sets of keys, settings and weights in JSON
-/

namespace Percolator

/-- What a kind of key terms is called. -/
def KeyKind.label : KeyKind → String
  | .exact => "Exact"
  | .part => "Wildcard"
  | .any => "Any"

/-- The kind of key terms that is called so. -/
def KeyKind.ofLabel? (label : String) : Option KeyKind :=
  [KeyKind.exact, .part, .any].find? (·.label = label)

/-- Reads a kind of key terms: its name, or an object whose only member has this name and is
empty. -/
def KeyKind.ofJson? : Json → Option KeyKind
  | .text label => ofLabel? label
  | .object [(label, .null)] => ofLabel? label
  | _ => none

/-- Writes a key term. -/
def KeyTerm.toJson (t : KeyTerm) : Json := .object [
  ("field", .text t.field),
  ("text", .text t.text),
  ("term_type", .text t.kind.label)]

/-- Reads a key term. -/
def KeyTerm.ofJson? (j : Json) : Option KeyTerm := do
  let r ← Record.ofJson? ["field", "text", "term_type"] false j
  some {
    field := ← r.field? "field" Json.text?
    text := ← r.field? "text" Json.text?
    kind := ← r.field? "term_type" KeyKind.ofJson? }

/-- Writes a set of keys. -/
def KeySet.toJson (s : KeySet) : Json :=
  .object [("fields", .object (s.fields.toList.map fun (field, texts) =>
    (field, .ofTexts texts.toList)))]

/-- Reads a set of keys. -/
def KeySet.ofJson? (j : Json) : Option KeySet := do
  let r ← Record.ofJson? ["fields"] false j
  let fields ← r.field? "fields" (Json.map? (Json.each? Json.text?))
  some ⟨fields.map fun _ texts => .ofList texts⟩

/-- Writes the settings of the presearch. -/
def PresearchSettings.toJson (s : PresearchSettings) : Json := .object [
  ("any_token_field", .text s.anyField),
  ("any_token", .text s.anyText),
  ("wildcard_field_suffix", .text s.partSuffix),
  ("max_ngram_length", .ofNat s.maxPart.toNat)]

/-- Reads settings of the presearch. They are not validated. -/
def PresearchSettings.ofJson? (j : Json) : Option PresearchSettings := do
  let fields := ["any_token_field", "any_token", "wildcard_field_suffix", "max_ngram_length"]
  let r ← Record.ofJson? fields false j
  some {
    anyField := ← r.field? "any_token_field" Json.text?
    anyText := ← r.field? "any_token" Json.text?
    partSuffix := ← r.field? "wildcard_field_suffix" Json.text?
    maxPart := (← r.field? "max_ngram_length" Json.word?).toUInt64 }

/-- Reads weights. Factors of fields and of texts may be absent. -/
def Weights.ofJson? (j : Json) : Option Weights := do
  let r ← Record.ofJson? ["field_weights", "term_weights", "wildcard_penalty"] false j
  some {
    fields := ← r.fieldOr? "field_weights" ∅ (Json.map? Json.single?)
    texts := ← r.fieldOr? "term_weights" ∅ (Json.map? Json.single?)
    part := ← r.field? "wildcard_penalty" Json.single? }

end Percolator
