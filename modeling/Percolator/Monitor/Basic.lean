import Percolator.Monitor.Store
import Percolator.Verification.Engine
import Percolator.Verification.Strategy

/-!
# Monitors

A monitor finds the registered queries that match a document: the presearch selects candidates, and
each candidate is verified. `Monitor.explain` tells why candidates were selected.
-/

namespace Percolator

/-- The settings of a monitor. -/
structure MonitorSettings where
  /-- Verifications that take longer than this are logged, in nanoseconds. -/
  slowLimit : Nat := defaultSlowLimit
deriving DecidableEq, Repr, Inhabited

/-- A store of queries with the presearch that selects from it. -/
structure Monitor where
  presearch : Presearch := {}
  settings : MonitorSettings := {}
  store : Store := {}
deriving Inhabited

/-- Why a query was selected for a document. -/
structure Explanation where
  id : String
  /-- The keys of the query that the document has, each with its field. -/
  keys : List String
  /-- The query matches the document. -/
  holds : Bool
deriving DecidableEq, Repr, Inhabited

namespace Monitor

/-- Registers a query; one with the same id is replaced. -/
def register (m : Monitor) (query : StoredQuery) : Except Error Monitor := do
  if query.id.isEmpty then .error .emptyQueryId
  else
    let terms ← m.presearch.terms query.query
    let keys ← m.presearch.keys query.query query.metadata
    .ok { m with store := m.store.insert query terms keys }

/-- Registers queries up to the first that cannot be registered. -/
def registerAll (m : Monitor) : List StoredQuery → Monitor × Option Error
  | [] => (m, none)
  | query :: rest =>
    match m.register query with
    | .ok m => m.registerAll rest
    | .error error => (m, some error)

/-- Removes a query. -/
def delete (m : Monitor) (id : String) : Monitor := { m with store := m.store.erase id }

/-- Removes all queries. -/
def clear (m : Monitor) : Monitor := { m with store := m.store.clear }

/-- The query with an id. -/
def query? (m : Monitor) (id : String) : Option StoredQuery := (m.store.get? id).map (·.query)

/-- The key terms that a query is indexed under. -/
def terms? (m : Monitor) (id : String) : Option (List KeyTerm) := (m.store.get? id).map (·.terms)

/-- The number of queries. -/
def size (m : Monitor) : Nat := m.store.size

/-- The entries that a selection picks. -/
def picked (m : Monitor) (selection : Query) : Except Fault (List StoreEntry) :=
  (m.store.select selection).mapError Fault.error

/-- The entries that are selected for a document. -/
def selected (m : Monitor) (d : Document) : Except Fault (List StoreEntry) := do
  m.picked (← m.presearch.selection d)

/-- Verifies the queries that are selected for a document. -/
def run {α : Type} (m : Monitor) (strategy : Strategy α) (engine : Engine α) (d : Document) :
    Except Fault (Report α) := do
  let entries ← m.selected d
  let verdicts := entries.map fun entry => strategy.verdict d.index entry.query.toCandidate
  let state ← engine.runAll (engine.startWith m.settings.slowLimit) verdicts
  let ledger ← engine.finish state
  .ok (ledger.close d.id 0 entries.length)

/-- Why a query was selected, where `selected` holds the keys of the selection. -/
def explainEntry (m : Monitor) (d : Document) (selected : KeySet) (entry : StoreEntry) :
    Except Fault Explanation := do
  let pairs := ((m.store.index.keys? entry.slot).map KeySet.pairs).getD []
  let common := pairs.filter fun (field, text) => selected.contains field text
  .ok {
    id := entry.query.id
    keys := common.map fun (field, text) => field ++ ":" ++ text
    holds := ← entry.query.query.holds d.index }

/-- Why queries were selected for a document, by id. -/
def explain (m : Monitor) (d : Document) : Except Fault (List Explanation) := do
  let selection ← m.presearch.selection d
  let entries ← m.picked selection
  let explanations ← entries.mapM (m.explainEntry d selection.selectedKeys)
  .ok (explanations.mergeSort fun a b => a.id ≤ b.id)

end Monitor

end Percolator
