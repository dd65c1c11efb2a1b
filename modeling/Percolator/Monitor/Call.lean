import Percolator.Monitor.Basic

/-!
# Calls of a monitor

The queries of a monitor change by calls, and each call is answered. A call that is refused leaves
the monitor with the queries that were registered before.
-/

namespace Percolator

/-- A call that changes the queries of a monitor. -/
inductive Call where
  | register (query : StoredQuery)
  | registerAll (queries : List StoredQuery)
  | delete (id : String)
  | clear

/-- The answer to a call. -/
inductive Answer where
  | done
  /-- A query was not registered. -/
  | refused (error : Error)
  /-- A query was deleted, if there was one. -/
  | deleted (found : Bool)
deriving DecidableEq, Repr

/-- The answers to calls that are made one after the other, and what they bring about. -/
def answerAll {σ : Type} (call : σ → Call → Answer × σ) (s : σ) : List Call → List Answer × σ
  | [] => ([], s)
  | c :: rest =>
    let (answer, s) := call s c
    let (answers, s) := answerAll call s rest
    (answer :: answers, s)

/-- Answers a call. -/
def Monitor.call (m : Monitor) : Call → Answer × Monitor
  | .register query =>
    match m.register query with
    | .ok m => (.done, m)
    | .error error => (.refused error, m)
  | .registerAll queries =>
    let (m, refusal) := m.registerAll queries
    (refusal.elim .done .refused, m)
  | .delete id => (.deleted (m.query? id).isSome, m.delete id)
  | .clear => (.done, m.clear)

end Percolator
