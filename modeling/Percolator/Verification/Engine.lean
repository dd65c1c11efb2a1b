import Percolator.Verification.Ledger

/-!
# Engines

An engine takes the verdicts on the candidates of a run one after the other and comes to a ledger.
The direct engine enters every verdict at once. Other engines put verdicts off and spread them over
several runs of an inner engine, which can be any engine.
-/

namespace Percolator

/-- A way of running through the candidates for a document. -/
structure Engine (α : Type) where
  /-- The state of a run. -/
  State : Type
  /-- What two matches of one query come to. -/
  combine : Match α → Match α → Match α
  /-- The state in which a run begins. -/
  start : State
  /-- What a run has come to by itself. It holds nothing that was put off. -/
  ledger : State → Ledger α
  /-- Changes what a run has come to. -/
  modify : (Ledger α → Ledger α) → State → State
  /-- Takes a verdict, and answers with the match if it is entered at once. -/
  accept : Verdict α → State → Except Fault (Option (Match α)) × State
  /-- Ends a run. -/
  finish : State → Except Fault (Ledger α)

namespace Engine

variable {α : Type}

/-- The engine that enters every verdict at once. -/
def direct (combine : Match α → Match α → Match α) : Engine α where
  State := Ledger α
  combine := combine
  start := {}
  ledger l := l
  modify f l := f l
  accept v l := (v.match?, l.enter combine v)
  finish l := .ok l

/-- The state of a run that logs verifications above a limit. -/
def startWith (e : Engine α) (slowLimit : Nat) : e.State := e.modify (·.limit slowLimit) e.start

/-- Takes a verdict and reports an error that does not end the run. -/
def run (e : Engine α) (v : Verdict α) (s : e.State) : Except Fault Unit × e.State :=
  match e.accept v s with
  | (.ok _, s) => (.ok (), s)
  | (.error fault, s) =>
    match fault with
    | .error error =>
      if error.isFatal then (.error fault, s)
      else (.ok (), e.modify (·.report ⟨v.id, error⟩) s)
    | .crash => (.error .crash, s)

/-- Takes verdicts up to the first fault that ends the run. -/
def runAll (e : Engine α) (s : e.State) : List (Verdict α) → Except Fault e.State
  | [] => .ok s
  | v :: rest =>
    match e.run v s with
    | (.ok (), s) => e.runAll s rest
    | (.error fault, _) => .error fault

end Engine

end Percolator
