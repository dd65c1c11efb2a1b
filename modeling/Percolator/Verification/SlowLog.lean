/-!
# The log of slow verifications
-/

namespace Percolator

/-- A verification that took longer than it should. -/
structure SlowEntry where
  id : String
  /-- How long the verification took, in nanoseconds. -/
  elapsed : Nat
deriving DecidableEq, Repr, Inhabited

/-- The verifications that took longer than they should, in the order in which they ended. -/
structure SlowLog where
  entries : List SlowEntry := []
deriving DecidableEq, Repr, Inhabited

namespace SlowLog

/-- The log with another entry. -/
def add (log : SlowLog) (id : String) (elapsed : Nat) : SlowLog := ⟨log.entries ++ [⟨id, elapsed⟩]⟩

/-- The log with the entries of another one. -/
def append (log other : SlowLog) : SlowLog := ⟨log.entries ++ other.entries⟩

/-- The number of entries. -/
def length (log : SlowLog) : Nat := log.entries.length

/-- The log has no entries. -/
def isEmpty (log : SlowLog) : Bool := log.entries.isEmpty

/-- The queries in the log. -/
def ids (log : SlowLog) : List String := log.entries.map (·.id)

/-- How a log is written, with whole milliseconds. -/
def render (log : SlowLog) : String :=
  " ".intercalate (log.entries.map fun e => s!"{e.id}:{e.elapsed / 1000000}ms")

end SlowLog

end Percolator
