import Percolator.Codec.Record
import Percolator.Document.Index

/-!
# Tokens and hits in JSON
-/

namespace Percolator

/-- Writes a token. -/
def Token.toJson (t : Token) : Json := .object [
  ("text", .text t.text),
  ("position", .ofNat t.position),
  ("start_offset", .ofNat t.startOffset),
  ("end_offset", .ofNat t.endOffset),
  ("stopped", .bool t.stopped)]

/-- Reads a token. -/
def Token.ofJson? (j : Json) : Option Token := do
  let fields := ["text", "position", "start_offset", "end_offset", "stopped"]
  let r ← Record.ofJson? fields false j
  some {
    text := ← r.field? "text" Json.text?
    position := ← r.field? "position" Json.word?
    startOffset := ← r.field? "start_offset" Json.word?
    endOffset := ← r.field? "end_offset" Json.word?
    stopped := ← r.field? "stopped" Json.bool? }

/-- Writes a hit. -/
def Hit.toJson (h : Hit) : Json := .object [
  ("field", .text h.field),
  ("start_position", .ofNat h.startPosition),
  ("end_position", .ofNat h.endPosition),
  ("start_offset", .ofNat h.startOffset),
  ("end_offset", .ofNat h.endOffset)]

/-- Reads a hit. -/
def Hit.ofJson? (j : Json) : Option Hit := do
  let fields := ["field", "start_position", "end_position", "start_offset", "end_offset"]
  let r ← Record.ofJson? fields false j
  some {
    field := ← r.field? "field" Json.text?
    startPosition := ← r.field? "start_position" Json.word?
    endPosition := ← r.field? "end_position" Json.word?
    startOffset := ← r.field? "start_offset" Json.word?
    endOffset := ← r.field? "end_offset" Json.word? }

end Percolator
