import Std.Data.TreeMap
import Std.Data.TreeSet

/-!
# Sets of keys

A key is a field with a text. Stored queries are indexed under keys, and documents select them by
keys.
-/

namespace Percolator

/-- A set of keys: the texts of each field. -/
structure KeySet where
  fields : Std.TreeMap String (Std.TreeSet String) := ∅
deriving Inhabited

namespace KeySet

/-- The texts of a field. -/
def texts (s : KeySet) (field : String) : Std.TreeSet String := s.fields.getD field ∅

/-- The set with another key. -/
def add (s : KeySet) (field text : String) : KeySet :=
  ⟨s.fields.insert field ((s.texts field).insert text)⟩

/-- The key is in the set. -/
def contains (s : KeySet) (field text : String) : Bool := (s.texts field).contains text

/-- The keys in order. -/
def pairs (s : KeySet) : List (String × String) :=
  s.fields.toList.flatMap fun (field, texts) => texts.toList.map (field, ·)

/-- No field was ever given a text. -/
def isEmpty (s : KeySet) : Bool := s.fields.isEmpty

/-- The set of some keys. -/
def ofPairs (pairs : List (String × String)) : KeySet :=
  pairs.foldl (fun s (field, text) => s.add field text) {}

end KeySet

end Percolator
