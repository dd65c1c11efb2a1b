import Percolator.Codec.Verification
import Percolator.Monitor.Basic

/-!
# Settings of a monitor and explanations in JSON
-/

namespace Percolator

/-- Writes the settings of a monitor. -/
def MonitorSettings.toJson (s : MonitorSettings) : Json :=
  .object [("slow_log_limit", durationJson s.slowLimit)]

/-- Reads settings of a monitor. -/
def MonitorSettings.ofJson? (j : Json) : Option MonitorSettings := do
  let r ← Record.ofJson? ["slow_log_limit"] false j
  some ⟨← r.fieldOr? "slow_log_limit" defaultSlowLimit duration?⟩

/-- Writes an explanation. -/
def Explanation.toJson (e : Explanation) : Json := .object [
  ("query_id", .text e.id),
  ("matching_terms", .ofTexts e.keys),
  ("matched", .bool e.holds)]

/-- Reads an explanation. -/
def Explanation.ofJson? (j : Json) : Option Explanation := do
  let r ← Record.ofJson? ["query_id", "matching_terms", "matched"] false j
  some {
    id := ← r.field? "query_id" Json.text?
    keys := ← r.field? "matching_terms" (Json.each? Json.text?)
    holds := ← r.field? "matched" Json.bool? }

end Percolator
