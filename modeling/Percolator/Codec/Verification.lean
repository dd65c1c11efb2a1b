import Percolator.Codec.Token
import Percolator.Sorted
import Percolator.Verification.Settings
import Percolator.Verification.SlowLog
import Percolator.Verification.Verdict

/-!
# Durations, logs, matches and settings of engines in JSON
-/

namespace Percolator

/-- A second in nanoseconds. -/
def second : Nat := 1000000000

/-- Writes a duration in nanoseconds. -/
def durationJson (n : Nat) : Json := .object [
  ("secs", .ofNat (n / second)),
  ("nanos", .ofNat (n % second))]

/-- Reads a duration. Nanoseconds that make up seconds count as such, and the seconds have to have
64 bits. -/
def duration? (j : Json) : Option Nat := do
  let r ← Record.ofJson? ["secs", "nanos"] true j
  let secs ← r.field? "secs" Json.word?
  let nanos ← r.field? "nanos" (Json.nat? 0xFFFFFFFF)
  if secs + nanos / second ≤ Json.maxWord then some (secs * second + nanos) else none

/-- Writes an entry of a log. -/
def SlowEntry.toJson (e : SlowEntry) : Json := .object [
  ("query_id", .text e.id),
  ("elapsed", durationJson e.elapsed)]

/-- Reads an entry of a log. -/
def SlowEntry.ofJson? (j : Json) : Option SlowEntry := do
  let r ← Record.ofJson? ["query_id", "elapsed"] false j
  some {
    id := ← r.field? "query_id" Json.text?
    elapsed := ← r.field? "elapsed" duration? }

/-- Writes a log. -/
def SlowLog.toJson (log : SlowLog) : Json :=
  .object [("entries", .array (log.entries.map SlowEntry.toJson))]

/-- Reads a log. -/
def SlowLog.ofJson? (j : Json) : Option SlowLog := do
  let r ← Record.ofJson? ["entries"] false j
  some ⟨← r.field? "entries" (Json.each? SlowEntry.ofJson?)⟩

/-- Writes a match of which no more is known. -/
def Match.simpleToJson (m : Match Unit) : Json := .object [("query_id", .text m.id)]

/-- Reads a match of which no more is known. -/
def Match.simpleOfJson? (j : Json) : Option (Match Unit) := do
  let r ← Record.ofJson? ["query_id"] false j
  some ⟨← r.field? "query_id" Json.text?, ()⟩

/-- Writes a match with its hits. -/
def Match.hitsToJson (m : Match (List Hit)) : Json := .object [
  ("query_id", .text m.id),
  ("hits", .array (m.known.map Hit.toJson))]

/-- Reads a match with its hits. -/
def Match.hitsOfJson? (j : Json) : Option (Match (List Hit)) := do
  let r ← Record.ofJson? ["query_id", "hits"] false j
  let hits ← r.field? "hits" (Json.each? Hit.ofJson?)
  some ⟨← r.field? "query_id" Json.text?, Sorted.ofList hits⟩

/-- Writes the settings of a pool. -/
def PoolSettings.toJson (s : PoolSettings) : Json := .object [
  ("threads", .ofNat s.threads),
  ("queue_capacity", .ofNat s.capacity)]

/-- Reads settings of a pool. They are not validated. -/
def PoolSettings.ofJson? (j : Json) : Option PoolSettings := do
  let r ← Record.ofJson? ["threads", "queue_capacity"] false j
  some {
    threads := ← r.field? "threads" Json.word?
    capacity := ← r.field? "queue_capacity" Json.word? }

/-- Writes the settings of a run in packages. -/
def PackageSettings.toJson (s : PackageSettings) : Json := .object [
  ("package_size", .ofNat s.size),
  ("max_threads", s.maxThreads.elim .null .ofNat)]

/-- Reads settings of a run in packages. They are not validated. -/
def PackageSettings.ofJson? (j : Json) : Option PackageSettings := do
  let r ← Record.ofJson? ["package_size", "max_threads"] false j
  some {
    size := ← r.field? "package_size" Json.word?
    maxThreads := ← r.maybe? "max_threads" Json.word? }

end Percolator
