import Percolator.Pattern.Required
import Percolator.Presearch.Tree
import Percolator.Query.Basic

/-!
# Extracting key terms

The key tree of a query says what a document needs in order to match it. Rules build the trees of
the kinds of queries from the query and from the trees of its clauses; where several rules take a
query, the lightest of their trees is kept, the first of several, and a query that no rule takes has
the tree that every document has. The rules of this library do not look at the trees of negated
clauses, because a document needs nothing of them.
-/

namespace Percolator

/-- The kinds of queries. -/
inductive QueryKind where
  | term
  | boolean
  | phrase
  | glob
  | startsWith
  | regexp
  | range
  | numericRange
  | all
  | interval
  | custom
deriving DecidableEq, Repr, Inhabited

/-- The kind of a query for the terms of a set. -/
def TermSet.kind : TermSet → QueryKind
  | .glob _ => .glob
  | .startsWith _ => .startsWith
  | .regexp _ => .regexp
  | .range _ _ => .range
  | .numericRange _ _ => .numericRange

/-- The kind of a query. -/
def Query.kind : Query → QueryKind
  | .all _ => .all
  | .term _ _ _ => .term
  | .phrase _ _ _ _ => .phrase
  | .interval _ _ _ => .interval
  | .anyTerm _ set _ => set.kind
  | .boolean _ _ _ => .boolean
  | .custom _ => .custom

/-- What the clauses of a query come to, each with its role. -/
abbrev ClauseTrees := List (Occur × Except Error KeyTree)

/-- A rule that builds key trees. -/
inductive TreeRule where
  /-- Builds the trees of the queries of a kind as this library does. -/
  | own (kind : QueryKind)
  /-- Builds the trees of the queries of a kind in a way of its own, from the weights of key terms,
  the query and the trees of its clauses. -/
  | made (name : String) (kind : QueryKind)
    (build : Weights → Query → ClauseTrees → Except Error KeyTree)

namespace TreeRule

/-- The kind of the queries that a rule takes. -/
def kind : TreeRule → QueryKind
  | .own kind => kind
  | .made _ kind _ => kind

/-- What a rule calls itself. -/
def name : TreeRule → String
  | .own .term => "term"
  | .own .boolean => "boolean"
  | .own .phrase => "phrase"
  | .own .glob => "wildcard"
  | .own .startsWith => "prefix"
  | .own .regexp => "regexp"
  | .own .range => "range"
  | .own .numericRange => "numeric_range"
  | .own .all => "match_all"
  | .own .interval => "intervals"
  | .own .custom => "custom"
  | .made name _ _ => name

/-- The rule takes the query. -/
def accepts (rule : TreeRule) (q : Query) : Bool := rule.kind = q.kind

/-- The rules that are always there. -/
def standard : List TreeRule :=
  [.own .term, .own .boolean, .own .phrase, .own .glob, .own .startsWith, .own .regexp, .own .range,
    .own .numericRange, .own .all]

end TreeRule

/-- The rules in their order, with the weights of key terms. -/
structure Extractor where
  rules : List TreeRule := TreeRule.standard
  weights : Weights := {}
deriving Inhabited

namespace Extractor

/-- The tree for tokens that a text stands in. -/
def partTree (e : Extractor) (field : String) (text : String) : KeyTree :=
  if text.isEmpty then .any field else .ofTerm e.weights ⟨field, text, .part⟩

/-- The tree for a token. -/
def exactTree (e : Extractor) (field text : String) : KeyTree :=
  .ofTerm e.weights ⟨field, text, .exact⟩

/-- The text that stands in all terms of a regular expression, unless the pattern cannot be read. -/
def regexpText? (pattern : String) : Option String :=
  (Pattern.Expr.read? pattern).map fun expr => String.ofList expr.required.longest

/-- The tree for the terms of a set. -/
def setTree (e : Extractor) (field : String) : TermSet → KeyTree
  | .glob g => e.partTree field g.longestLiteral
  | .startsWith start => e.partTree field start
  | .regexp r => ((regexpText? r.pattern).map (e.partTree field)).getD (.any field)
  | .range _ _ => .any field
  | .numericRange _ _ => .any field

/-- The tree for phrases. -/
def phraseTree (e : Extractor) (field : String) (terms : List String) : KeyTree :=
  if terms.isEmpty then .any field else .conjunction (terms.map (e.exactTree field))

mutual

/-- The tree for intervals. -/
def sourceTree (e : Extractor) (field : String) : IntervalSource → KeyTree
  | .term text => e.exactTree field text
  | .ordered sources _ =>
    if sources.isEmpty then .any field else .conjunction (sourceTrees e field sources)
  | .unordered sources _ =>
    if sources.isEmpty then .any field else .conjunction (sourceTrees e field sources)
  | .anyOf sources =>
    if sources.isEmpty then .any field else .disjunction (sourceTrees e field sources)
  | .without source _ => sourceTree e field source

/-- The trees for the intervals of each source. -/
def sourceTrees (e : Extractor) (field : String) : List IntervalSource → List KeyTree
  | [] => []
  | source :: rest => sourceTree e field source :: sourceTrees e field rest

end

/-- The tree of a boolean query from the trees of the clauses that must match, and of those that
should. -/
def booleanTree (minShould : Nat) (musts shoulds : List KeyTree) : KeyTree :=
  if !musts.isEmpty then
    if minShould > 0 ∧ !shoulds.isEmpty then .conjunction (musts ++ [.disjunction shoulds])
    else .conjunction musts
  else if !shoulds.isEmpty then .disjunction shoulds
  else .any ""

/-- The trees of the clauses that must match, and of those that should. -/
def treesByRole : ClauseTrees → Except Error (List KeyTree × List KeyTree)
  | [] => .ok ([], [])
  | (.must, outcome) :: rest => do
    let tree ← outcome
    let (musts, shoulds) ← treesByRole rest
    .ok (tree :: musts, shoulds)
  | (.should, outcome) :: rest => do
    let tree ← outcome
    let (musts, shoulds) ← treesByRole rest
    .ok (musts, tree :: shoulds)
  | (.mustNot, _) :: rest => treesByRole rest

/-- The tree that this library builds of a query whose clauses have the given trees. -/
def ownTree (e : Extractor) (parts : ClauseTrees) : Query → Except Error KeyTree
  | .all _ => .ok (.any "")
  | .term field text _ => .ok (e.exactTree field text)
  | .phrase field terms _ _ => .ok (e.phraseTree field terms)
  | .interval field source _ => .ok (e.sourceTree field source)
  | .anyTerm field set _ => .ok (e.setTree field set)
  | .boolean _ minShould _ => do
    let (musts, shoulds) ← treesByRole parts
    .ok (booleanTree minShould musts shoulds)
  | .custom query => .ok (.any (query.field.getD ""))

/-- What a rule makes of a query that it takes. -/
def outcome (e : Extractor) (q : Query) (parts : ClauseTrees) : TreeRule → Except Error KeyTree
  | .own _ => e.ownTree parts q
  | .made _ _ build => build e.weights q parts

/-- The first of the lightest trees among outcomes, unless one of them is an error. -/
def lightest? (best : Option KeyTree) : List (Except Error KeyTree) →
    Except Error (Option KeyTree)
  | [] => .ok best
  | outcome :: rest => do
    let tree ← outcome
    lightest? (if best.all (tree.weight < ·.weight) then some tree else best) rest

/-- The tree that the rules choose for a query whose clauses have the given trees. -/
def choose (e : Extractor) (q : Query) (parts : ClauseTrees) : Except Error KeyTree := do
  let outcomes := (e.rules.filter (·.accepts q)).map (e.outcome q parts)
  .ok ((← lightest? none outcomes).getD (.any (q.field?.getD "")))

mutual

/-- The tree of a query. -/
def tree (e : Extractor) : Query → Except Error KeyTree
  | .boolean clauses minShould boost =>
    e.choose (.boolean clauses minShould boost) (clauseTrees e clauses)
  | q => e.choose q []

/-- The trees of clauses. -/
def clauseTrees (e : Extractor) : List (Occur × Query) → ClauseTrees
  | [] => []
  | (occur, q) :: rest => (occur, tree e q) :: clauseTrees e rest

end

/-- The trees of the clauses of a query. -/
def partTrees (e : Extractor) : Query → ClauseTrees
  | .boolean clauses _ _ => e.clauseTrees clauses
  | _ => []

/-- The key terms of a query. -/
def terms (e : Extractor) (q : Query) : Except Error (List KeyTerm) := (e.tree q).map (·.terms)

/-- What a rule makes of a query. -/
def apply (e : Extractor) (rule : TreeRule) (q : Query) : Except Error KeyTree :=
  if rule.accepts q then e.outcome q (e.partTrees q) rule
  else .error (.cannotExtract rule.name q.render)

end Extractor

end Percolator
