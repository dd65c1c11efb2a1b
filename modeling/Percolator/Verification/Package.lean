import Percolator.Verification.Engine
import Percolator.Verification.Settings

/-!
# Packages of candidates

Verdicts are put off until the run ends. Then they are cut into packages of the same size, each
package goes through a run of its own, and the ledgers are merged in the order of the packages. One
run that fails makes the whole run fail.
-/

namespace Percolator

/-- The state of a run in packages. -/
structure PackagedRun (α : Type) where
  ledger : Ledger α := {}
  /-- The verdicts that were put off. -/
  waiting : List (Verdict α) := []

namespace Package

variable {α : Type}

/-- Cuts a list into packages. -/
def cut (size : Nat) (vs : List α) : List (List α) :=
  (List.range ((vs.length + size - 1) / size)).map fun i => (vs.drop (i * size)).take size

/-- Why a package failed, where `i` is its number. -/
def cause (i : Nat) (fault : Fault) : Error := fault.toError (.packageDied i)

/-- The ledger of a run of one package. -/
def ledgerOf (e : Engine α) (slowLimit : Nat) (package : List (Verdict α)) :
    Except Fault (Ledger α) :=
  (e.runAll (e.startWith slowLimit) package).map e.ledger

/-- The ledgers of all packages, unless one failed; `i` is the number of the first one. -/
def allLedgers (i : Nat) : List (Except Fault (Ledger α)) → Except Error (List (Ledger α))
  | [] => .ok []
  | .ok l :: rest => (allLedgers (i + 1) rest).map (l :: ·)
  | .error fault :: _ => .error (cause i fault)

end Package

namespace Engine

variable {α : Type}

/-- The engine that runs in packages. -/
def packaged (settings : PackageSettings) (inner : Engine α) : Engine α where
  State := PackagedRun α
  combine := inner.combine
  start := {}
  ledger s := s.ledger
  modify f s := { s with ledger := f s.ledger }
  accept v s := (.ok none, { s with waiting := s.waiting ++ [v] })
  finish s :=
    let packages := Package.cut settings.size s.waiting
    match Package.allLedgers 0 (packages.map (Package.ledgerOf inner s.ledger.slowLimit)) with
    | .ok ledgers => .ok (ledgers.foldl (fun l other => l.merge inner.combine other) s.ledger)
    | .error error => .error (.error error)

end Engine

end Percolator
