/-!
# JSON values

Numbers are kept as they were written, so that whoever uses one decides how to round it. A string
that holds half of a surrogate pair has no text. Such a string, and an object with such a name, may
stand where nobody reads it.
-/

namespace Percolator

/-- A JSON value. -/
inductive Json where
  | null
  | bool (value : Bool)
  /-- A number as it was written. -/
  | number (digits : String)
  | text (value : String)
  /-- A string with half of a surrogate pair, or an object with such a name. -/
  | broken
  | array (items : List Json)
  /-- The members of an object in their order, repeated names included. -/
  | object (members : List (String × Json))
deriving Repr, Inhabited

namespace Json

/-- The members of an object. -/
def members? : Json → Option (List (String × Json))
  | .object members => some members
  | _ => none

/-- The items of an array. -/
def items? : Json → Option (List Json)
  | .array items => some items
  | _ => none

/-- The text of a string. -/
def text? : Json → Option String
  | .text value => some value
  | _ => none

/-- A truth value. -/
def bool? : Json → Option Bool
  | .bool value => some value
  | _ => none

/-- The last member of that name. -/
def member? (j : Json) (name : String) : Option Json :=
  (j.members?.getD []).reverse.lookup name

/-- A natural number of at most `limit`, written without point and exponent. -/
def nat? (limit : Nat) : Json → Option Nat
  | .number digits => digits.toNat?.filter (· ≤ limit)
  | _ => none

/-- The number `n`. -/
def ofNat (n : Nat) : Json := .number (toString n)

/-- The largest number of 64 bits. -/
def maxWord : Nat := 0xFFFFFFFFFFFFFFFF

end Json

end Percolator
