import Percolator.Document.Basic
import Percolator.Presearch.Extraction
import Percolator.Presearch.KeySet
import Percolator.Presearch.Parts
import Percolator.Presearch.Settings
import Percolator.Token.Distinct

/-!
# Presearch

The presearch narrows stored queries down to candidates. It indexes a stored query under keys made
from its key terms, and it turns a document into a selection, a query over keys that selects every
stored query that may match the document.

A field filter ties queries to documents beyond that: where a document has values in the field, it
selects only queries whose metadata give one of these values to the field.
-/

namespace Percolator

/-- The key–value pairs that come with a stored query. -/
abbrev Metadata := Std.TreeMap String String

/-- An extension of the presearch. -/
inductive Component where
  /-- Interval queries are indexed under their terms. -/
  | intervals
  /-- The metadata of queries have to agree with a field. -/
  | fieldFilter (field : String)
deriving DecidableEq, Repr

namespace Component

/-- The name of a component. -/
def name : Component → String
  | .intervals => "intervals"
  | .fieldFilter _ => "field_filter"

/-- The rules that a component brings with it. -/
def rules : Component → List TreeRule
  | .intervals => [.own .interval]
  | .fieldFilter _ => []

/-- The component keeps the tokens of a field out of selections. -/
def hides (field : String) : Component → Bool
  | .intervals => false
  | .fieldFilter filtered => filtered == field

/-- The keys of a stored query with what the component takes from its metadata. -/
def addKeys (metadata : Metadata) (keys : KeySet) : Component → KeySet
  | .intervals => keys
  | .fieldFilter field =>
    match metadata[field]? with
    | some value => keys.add field value
    | none => keys

/-- The different values of a field of a document, in order. Values are separated by spaces. -/
def filterValues (d : Document) (field : String) : List String :=
  let pieces := (d.fieldValues field).flatMap fun value => value.toList.splitOn ' '
  (Std.TreeSet.ofList ((pieces.filter (!·.isEmpty)).map String.ofList)).toList

/-- The selection of the queries under one of the values of a field. -/
def filterClause (field : String) : List String → Query
  | [value] => .term field value 1
  | values => .boolean (values.map fun value => (.should, .term field value 1)) 0 1

/-- The selection for a document as the component restricts it. -/
def restrict (d : Document) (selection : Query) : Component → Query
  | .intervals => selection
  | .fieldFilter field =>
    match filterValues d field with
    | [] => selection
    | values => .boolean [(.must, selection), (.must, filterClause field values)] 0 1

end Component

/-- The presearch: its settings, its extractor and its components. -/
structure Presearch where
  settings : PresearchSettings := {}
  extractor : Extractor := {}
  components : List Component := []
deriving Inhabited

namespace Presearch

/-- The presearch with other settings. -/
def withSettings (p : Presearch) (settings : PresearchSettings) : Except Error Presearch := do
  .ok { p with settings := ← settings.validate }

/-- The presearch with other weights. -/
def withWeights (p : Presearch) (weights : Weights) : Presearch :=
  { p with extractor := { p.extractor with weights } }

/-- The presearch with another component, whose rules come behind all others. -/
def withComponent (p : Presearch) (component : Component) : Presearch :=
  { p with
    extractor := { p.extractor with rules := p.extractor.rules ++ component.rules }
    components := p.components ++ [component] }

/-- The field under which the parts of the tokens of a field are indexed. -/
def partField (p : Presearch) (field : String) : String := field ++ p.settings.partSuffix

/-- The key of a key term. Of a text inside tokens only the beginning is kept, which is inside the
same tokens. -/
def keyOf (p : Presearch) (t : KeyTerm) : String × String :=
  match t.kind with
  | .exact => (t.field, t.text)
  | .part => (p.partField t.field, String.ofList (t.text.toList.take p.settings.maxPart.toNat))
  | .any => (p.settings.anyField, p.settings.anyText)

/-- The key terms of a stored query. -/
def terms (p : Presearch) (q : Query) : Except Error (List KeyTerm) := p.extractor.terms q

/-- The keys of a stored query. -/
def keys (p : Presearch) (q : Query) (metadata : Metadata) : Except Error KeySet := do
  let keys := KeySet.ofPairs ((← p.terms q).map p.keyOf)
  .ok (p.components.foldl (fun keys component => component.addKeys metadata keys) keys)

/-- The tokens of a field that take part in selections. -/
def visibleTokens (p : Presearch) (d : Document) (field : String) : List Token :=
  if p.components.any (·.hides field) then [] else (d.index.field field).tokens

/-- The keys of a field with the different texts of its tokens: the texts, then their parts. -/
def keysOfTexts (p : Presearch) (field : String) (texts : List String) :
    Except Fault (List (String × String)) := do
  let parts ← Parts.ofEach p.settings.maxPart texts
  .ok (texts.map (field, ·) ++ parts.map (p.partField field, ·))

/-- The keys of fields of a document. One stream yields the different texts of all of them: it is
reset to the tokens of a field and used up before the next field. -/
def keysOfFields (p : Presearch) (d : Document) (stream : DistinctStream) :
    List String → Except Fault (List (String × String))
  | [] => .ok []
  | field :: rest => do
    let drained := (stream.reset (p.visibleTokens d field)).drain
    let keys ← p.keysOfTexts field (drained.1.map (·.text))
    let others ← keysOfFields p d drained.2 rest
    .ok (keys ++ others)

/-- The keys of a document, the key that every document has at last. -/
def documentKeys (p : Presearch) (d : Document) : Except Fault (List (String × String)) := do
  let keys ← p.keysOfFields d { input := [] } d.index.fieldNames
  .ok (keys ++ [(p.settings.anyField, p.settings.anyText)])

/-- The selection of the stored queries under one of some keys, as the components restrict it. -/
def selectionOf (p : Presearch) (d : Document) (keys : List (String × String)) : Query :=
  let clauses := keys.map fun (field, text) => (Occur.should, .term field text 1)
  p.components.foldl (fun q component => component.restrict d q) (.boolean clauses 0 1)

/-- The selection of the stored queries that may match a document. -/
def selection (p : Presearch) (d : Document) : Except Fault Query := do
  .ok (p.selectionOf d (← p.documentKeys d))

end Presearch

end Percolator
