import Percolator.Presearch.KeySet
import Percolator.Query.Basic

/-!
# The index of stored queries

The index holds the keys of stored queries, each in a slot of its own, and for every key the slots
that were filed under it. Selections are evaluated slot set by slot set; only queries for terms,
for everything, and boolean queries of these are selections.

Filing into a slot that is taken replaces its keys, but the slot stays under the keys it had.
-/

namespace Percolator

/-- The index of stored queries. -/
structure KeyIndex where
  /-- The slots under each key. -/
  postings : Std.TreeMap String (Std.TreeMap String (Std.TreeSet Nat)) := ∅
  /-- The keys in each slot. -/
  slots : Std.TreeMap Nat KeySet := ∅
deriving Inhabited

namespace KeyIndex

/-- The slots under a key. -/
def slotsUnder (index : KeyIndex) (field text : String) : Std.TreeSet Nat :=
  (index.postings.getD field ∅).getD text ∅

/-- The index with the slots under a key changed. -/
def update (index : KeyIndex) (field text : String) (f : Std.TreeSet Nat → Std.TreeSet Nat) :
    KeyIndex :=
  let texts := (index.postings.getD field ∅).insert text (f (index.slotsUnder field text))
  { index with postings := index.postings.insert field texts }

/-- Files keys into a slot. -/
def add (index : KeyIndex) (slot : Nat) (keys : KeySet) : KeyIndex :=
  let filed := keys.pairs.foldl (fun index (field, text) => index.update field text (·.insert slot))
    index
  { filed with slots := filed.slots.insert slot keys }

/-- Empties a slot. -/
def remove (index : KeyIndex) (slot : Nat) : KeyIndex :=
  match index.slots[slot]? with
  | none => index
  | some keys =>
    let taken := keys.pairs.foldl
      (fun index (field, text) => index.update field text (·.erase slot)) index
    { taken with slots := taken.slots.erase slot }

/-- The keys in a slot. -/
def keys? (index : KeyIndex) (slot : Nat) : Option KeySet := index.slots[slot]?

/-- The number of slots that are taken. -/
def size (index : KeyIndex) : Nat := index.slots.size

/-- No slot is taken. -/
def isEmpty (index : KeyIndex) : Bool := index.slots.isEmpty

/-- All slots that are taken, in order. -/
def allSlots (index : KeyIndex) : List Nat := index.slots.keys

/-- The slots of `slots` that are in every one of the sets. -/
def inAll (slots : List Nat) (sets : List (List Nat)) : List Nat :=
  slots.filter fun slot => sets.all (·.contains slot)

/-- The slots that are in at least `required` of the sets, in order. -/
def inMany (required : Nat) (sets : List (List Nat)) : List Nat :=
  (Std.TreeSet.ofList sets.flatten).toList.filter fun slot =>
    required ≤ (sets.filter (·.contains slot)).length

mutual

/-- The slots that a selection selects, in order. -/
def search (index : KeyIndex) : Query → Except Error (List Nat)
  | .term field text _ => .ok (index.slotsUnder field text).toList
  | .all _ => .ok index.allSlots
  | .boolean clauses minShould _ => do
    if clauses.isEmpty then .ok []
    else
      let required := Query.requiredShould clauses minShould
      let musts ← searchEach index .must clauses
      let shoulds ← if required > 0 then searchEach index .should clauses else .ok []
      let mustNots ← searchEach index .mustNot clauses
      let sets := if required > 0 then musts ++ [inMany required shoulds] else musts
      let selected := match sets with
        | [] => index.allSlots
        | first :: rest => inAll first rest
      .ok (selected.filter fun slot => !mustNots.any (·.contains slot))
  | q => .error (.unsupportedSelection q.render)

/-- The slots that each clause with a role selects. -/
def searchEach (index : KeyIndex) (role : Occur) :
    List (Occur × Query) → Except Error (List (List Nat))
  | [] => .ok []
  | (occur, q) :: rest => do
    if occur = role then
      let slots ← search index q
      let others ← searchEach index role rest
      .ok (slots :: others)
    else searchEach index role rest

end

end KeyIndex

namespace Query

mutual

/-- The keys of the term queries in a selection, negated clauses left out. -/
def selectedPairs : Query → List (String × String)
  | .term field text _ => [(field, text)]
  | .boolean clauses _ _ => clausePairs clauses
  | _ => []

/-- The keys of the term queries in clauses. -/
def clausePairs : List (Occur × Query) → List (String × String)
  | [] => []
  | (occur, q) :: rest =>
    if occur = .mustNot then clausePairs rest else selectedPairs q ++ clausePairs rest

end

/-- The set of the keys of the term queries in a selection. -/
def selectedKeys (q : Query) : KeySet := .ofPairs q.selectedPairs

end Query

end Percolator
