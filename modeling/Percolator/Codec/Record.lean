import Percolator.Decimal.Scaled
import Percolator.Json.Basic
import Std.Data.TreeMap

/-!
# Records in JSON

A record is written as an object, a member for each of its fields. It is read from an object, whose
members may stand in any order, or from an array of its fields in their order. Members that belong
to no field are passed over, except in strict records; no field may have two members.
-/

namespace Percolator

/-- A record that is read. -/
structure Record where
  /-- What was given for the fields that were given. -/
  members : List (String × Json)
  /-- The record was an array. -/
  isArray : Bool

namespace Record

/-- Reads a record with these fields. -/
def ofJson? (fields : List String) (isStrict : Bool) : Json → Option Record
  | .array items =>
    if items.length ≤ fields.length then some ⟨fields.zip items, true⟩ else none
  | .object members =>
    let known := members.filter fun (name, _) => fields.contains name
    let names := known.map (·.1)
    if isStrict ∧ known.length < members.length then none
    else if names.eraseDups.length < names.length then none
    else some ⟨known, false⟩
  | _ => none

/-- Reads a field that has to be there. -/
def field? {α : Type} (r : Record) (name : String) (read : Json → Option α) : Option α := do
  read (← r.members.lookup name)

/-- Reads a field that may be absent. -/
def fieldOr? {α : Type} (r : Record) (name : String) (default : α) (read : Json → Option α) :
    Option α :=
  match r.members.lookup name with
  | some j => read j
  | none => some default

/-- Reads a field that may be empty. In an object it may be absent, too. -/
def maybe? {α : Type} (r : Record) (name : String) (read : Json → Option α) :
    Option (Option α) :=
  match r.members.lookup name with
  | some .null => some none
  | some j => (read j).map some
  | none => if r.isArray then none else some none

end Record

namespace Json

/-- A natural number of 64 bits. -/
def word? (j : Json) : Option Nat := j.nat? maxWord

/-- Reads every item of an array. -/
def each? {α : Type} (read : Json → Option α) (j : Json) : Option (List α) := do
  (← j.items?).mapM read

/-- Reads the members of an object. Of members with the same name the last one counts. -/
def map? {α : Type} (read : Json → Option α) (j : Json) : Option (Std.TreeMap String α) := do
  let members ← (← j.members?).mapM fun (name, item) => (read item).map (name, ·)
  some (members.foldl (fun map (name, a) => map.insert name a) ∅)

/-- A number in single precision. A number without point and exponent that has 64 bits is rounded
once, any other one by way of double precision, where it must not overflow. -/
def single? : Json → Option Float32
  | .number digits =>
    match digits.toInt? with
    | some n =>
      if 0 < n ∧ n ≤ maxWord then some n.toNat.toUInt64.toFloat32
      else if -0x8000000000000000 ≤ n ∧ n < 0 then some (-(-n).toNat.toUInt64.toFloat32)
      else (Decimal.readScaled? digits).map Float.toFloat32
    | none => (Decimal.readScaled? digits).map Float.toFloat32
  | _ => none

/-- A list of texts. -/
def ofTexts (texts : List String) : Json := .array (texts.map .text)

end Json

end Percolator
