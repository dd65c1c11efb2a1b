import Percolator.Verification.SlowLog
import Percolator.Verification.Verdict
import Std.Data.TreeMap

/-!
# The ledger of a run

The ledger holds what a run has come to so far: the matches, of which there is one for each query,
the failures and the slow verifications. Ledgers of several runs for the same document can be
merged.
-/

namespace Percolator

/-- A verification that ended with an error. -/
structure Failure where
  id : String
  error : Error
deriving DecidableEq, Repr, Inhabited

/-- How a failure is written. -/
def Failure.message (f : Failure) : String := s!"query {f.id} failed: " ++ f.error.message

/-- The limit on the time of verifications, in nanoseconds, unless another one is set. -/
def defaultSlowLimit : Nat := 2000000000

/-- What a run has come to so far. -/
structure Ledger (α : Type) where
  /-- The match of each query that matches. -/
  found : Std.TreeMap String (Match α) := ∅
  failures : List Failure := []
  slow : SlowLog := {}
  /-- Verifications that take longer than this are logged. -/
  slowLimit : Nat := defaultSlowLimit
deriving Inhabited

namespace Ledger

variable {α : Type}

/-- Enters a match. -/
def add (combine : Match α → Match α → Match α) (m : Match α) (l : Ledger α) : Ledger α :=
  let all := match l.found[m.id]? with
    | some old => combine old m
    | none => m
  { l with found := l.found.insert m.id all }

/-- Enters a failure. -/
def report (f : Failure) (l : Ledger α) : Ledger α := { l with failures := l.failures ++ [f] }

/-- Enters how long a verification took, if it took too long. -/
def time (id : String) (elapsed : Nat) (l : Ledger α) : Ledger α :=
  if l.slowLimit < elapsed then { l with slow := l.slow.add id elapsed } else l

/-- Sets the limit on the time of verifications. -/
def limit (slowLimit : Nat) (l : Ledger α) : Ledger α := { l with slowLimit }

/-- Enters the verdict on a candidate; an error is left to be reported. A verification that died is
not timed. -/
def enter (combine : Match α → Match α → Match α) (v : Verdict α) (l : Ledger α) : Ledger α :=
  let timed := l.time v.id v.elapsed
  match v.result with
  | .ok (some known) => timed.add combine ⟨v.id, known⟩
  | .error .crash => l
  | _ => timed

/-- Enters all that stands in another ledger. -/
def merge (combine : Match α → Match α → Match α) (l other : Ledger α) : Ledger α :=
  let joined := other.found.values.foldl (fun l m => l.add combine m) l
  { joined with
    failures := joined.failures ++ other.failures
    slow := joined.slow.append other.slow }

end Ledger

/-- What a run for one document came to. -/
structure Report (α : Type) where
  documentId : String
  /-- The match of each query that matches. -/
  found : Std.TreeMap String (Match α)
  failures : List Failure
  slow : SlowLog
  /-- How long it took to build the selection, in nanoseconds. -/
  buildTime : Nat
  /-- The number of candidates. -/
  queriesRun : Nat

/-- The report of a run. -/
def Ledger.close {α : Type} (l : Ledger α) (documentId : String) (buildTime queriesRun : Nat) :
    Report α :=
  { documentId, found := l.found, failures := l.failures, slow := l.slow, buildTime, queriesRun }

/-- The queries that match, in order. -/
def Report.ids {α : Type} (r : Report α) : List String := r.found.keys

end Percolator
