import Percolator.Presearch.Basic
import Percolator.Presearch.Index
import Percolator.Verification.Verdict

/-!
# The store of queries

The store holds the queries that were registered, one for each id. Every registration takes a new
slot of the index, so the order of the slots is the order of the last registrations.
-/

namespace Percolator

/-- A query to be registered. -/
structure StoredQuery extends Candidate where
  metadata : Metadata := ∅

/-- A query that is registered. -/
structure StoreEntry where
  slot : Nat
  query : StoredQuery
  /-- The key terms that the query is indexed under. -/
  terms : List KeyTerm

/-- The queries that are registered. -/
structure Store where
  entries : Std.TreeMap String StoreEntry := ∅
  /-- The id of the query in each slot. -/
  ids : Std.TreeMap Nat String := ∅
  index : KeyIndex := {}
  nextSlot : Nat := 0
deriving Inhabited

namespace Store

/-- The store without a query. -/
def erase (s : Store) (id : String) : Store :=
  match s.entries[id]? with
  | none => s
  | some entry =>
    { s with
      entries := s.entries.erase id
      ids := s.ids.erase entry.slot
      index := s.index.remove entry.slot }

/-- The store with a query, which replaces the one with its id. -/
def insert (s : Store) (query : StoredQuery) (terms : List KeyTerm) (keys : KeySet) : Store :=
  let s := s.erase query.id
  { entries := s.entries.insert query.id ⟨s.nextSlot, query, terms⟩
    ids := s.ids.insert s.nextSlot query.id
    index := s.index.add s.nextSlot keys
    nextSlot := s.nextSlot + 1 }

/-- The store without its queries. Slots are not given again. -/
def clear (s : Store) : Store := { nextSlot := s.nextSlot }

/-- The entry of a query. -/
def get? (s : Store) (id : String) : Option StoreEntry := s.entries[id]?

/-- The number of queries. -/
def size (s : Store) : Nat := s.entries.size

/-- The entry in a slot. -/
def inSlot? (s : Store) (slot : Nat) : Option StoreEntry := do s.get? (← s.ids[slot]?)

/-- The entries that a selection selects, in the order of their slots. -/
def select (s : Store) (selection : Query) : Except Error (List StoreEntry) := do
  .ok ((← s.index.search selection).filterMap s.inSlot?)

end Store

end Percolator
