import Percolator.Presearch.Weight

/-!
# Key trees

A key tree says which key terms a document needs in order to match a query. Trees are put together
by `KeyTree.ofTerm`, `KeyTree.any`, `KeyTree.conjunction` and `KeyTree.disjunction`, which keep
them in normal form: nothing is joined to a part that every document has, no conjunction stands
directly in a conjunction and no disjunction in a disjunction, and no two parts of a node are the
same.
-/

namespace Percolator

/-- A tree of key terms, each node but `everything` with its weight. -/
inductive KeyTree where
  | leaf (term : KeyTerm) (weight : Float32)
  /-- A document has to have all of the parts. -/
  | all (parts : List KeyTree) (weight : Float32)
  /-- A document has to have one of the parts. -/
  | oneOf (parts : List KeyTree) (weight : Float32)
  /-- Every document has the tree. -/
  | everything (field text : String)
deriving Inhabited

namespace KeyTree

mutual

/-- The trees are the same, their weights included; a weight that is not a number is not the same
as itself. -/
def same : KeyTree → KeyTree → Bool
  | .leaf s v, .leaf t w => s == t && v == w
  | .all as v, .all bs w => sameEach as bs && v == w
  | .oneOf as v, .oneOf bs w => sameEach as bs && v == w
  | .everything f s, .everything g t => f == g && s == t
  | _, _ => false

/-- The trees of two lists are the same one by one. -/
def sameEach : List KeyTree → List KeyTree → Bool
  | [], [] => true
  | a :: as, b :: bs => same a b && sameEach as bs
  | _, _ => false

end

/-- The weight of a tree. -/
def weight : KeyTree → Float32
  | .leaf _ weight => weight
  | .all _ weight => weight
  | .oneOf _ weight => weight
  | .everything _ _ => Weights.infinite

/-- Every document has the tree. -/
def isEverything : KeyTree → Bool
  | .everything _ _ => true
  | _ => false

/-- The tree of one key term. -/
def ofTerm (weights : Weights) (t : KeyTerm) : KeyTree :=
  match t.kind with
  | .any => .everything t.field t.text
  | _ => .leaf t (weights.weigh t)

/-- The tree that every document has, for the sake of a field. -/
def any (field : String) : KeyTree := .everything field ""

/-- A tree behind a list of trees, unless it is there. -/
def addTo (trees : List KeyTree) (tree : KeyTree) : List KeyTree :=
  if trees.any (·.same tree) then trees else trees ++ [tree]

/-- What a tree contributes to a conjunction. -/
def conjuncts : KeyTree → List KeyTree
  | .all parts _ => parts
  | .everything _ _ => []
  | tree => [tree]

/-- What a tree contributes to a disjunction. -/
def disjuncts : KeyTree → List KeyTree
  | .oneOf parts _ => parts
  | tree => [tree]

/-- The tree for documents that have all of the trees. A tree that every document has is left out;
where nothing else is there, the first such tree is the result. -/
def conjunction (trees : List KeyTree) : KeyTree :=
  match (trees.flatMap conjuncts).foldl addTo [] with
  | [] => (trees.find? isEverything).getD (any "")
  | [tree] => tree
  | parts => .all parts ((parts.map weight).foldl Weights.lower Weights.infinite)

/-- The tree for documents that have one of the trees. -/
def disjunction (trees : List KeyTree) : KeyTree :=
  match trees.find? isEverything with
  | some tree => tree
  | none =>
    match (trees.flatMap disjuncts).foldl addTo [] with
    | [] => any ""
    | [tree] => tree
    | parts => .oneOf parts ((parts.map weight).foldl Weights.higher 0)

mutual

/-- The key terms to find a query by: those of the first of the lightest parts of a conjunction, and
those of all parts of a disjunction. -/
def terms : KeyTree → List KeyTerm
  | .leaf term _ => [term]
  | .everything field text => [⟨field, text, .any⟩]
  | .all parts _ => lightestTerms none parts
  | .oneOf parts _ => allTerms parts

/-- The key terms of the first of the lightest trees, where `best` holds the weight and the terms of
the lightest tree so far. -/
def lightestTerms (best : Option (Float32 × List KeyTerm)) : List KeyTree → List KeyTerm
  | [] => (best.map (·.2)).getD []
  | tree :: rest =>
    if best.all fun (weight, _) => tree.weight < weight then
      lightestTerms (some (tree.weight, terms tree)) rest
    else lightestTerms best rest

/-- The key terms of all trees. -/
def allTerms : List KeyTree → List KeyTerm
  | [] => []
  | tree :: rest => Sorted.union (terms tree) (allTerms rest)

end

mutual

/-- How a tree is written. -/
def render : KeyTree → String
  | .leaf term _ => term.render
  | .everything field text => KeyTerm.render ⟨field, text, .any⟩
  | .all parts _ => "AND(" ++ ", ".intercalate (renderEach parts) ++ ")"
  | .oneOf parts _ => "OR(" ++ ", ".intercalate (renderEach parts) ++ ")"

/-- How each tree is written. -/
def renderEach : List KeyTree → List String
  | [] => []
  | tree :: rest => render tree :: renderEach rest

end

end KeyTree

end Percolator
