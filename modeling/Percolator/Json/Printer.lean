import Percolator.Json.Basic

/-!
# Writing JSON

`Json.compact` writes a value in one line without blanks. `Json.pretty` puts every item and every
member on a line of its own, two blanks deeper than what it stands in.
-/

namespace Percolator.Json

/-- The hexadecimal digit of a number below sixteen. -/
def hexDigit (n : Nat) : Char := (Nat.toDigits 16 n).headD '0'

/-- A character as it stands in a string. -/
def escape (c : Char) : List Char :=
  match c with
  | '"' => ['\\', '"']
  | '\\' => ['\\', '\\']
  | '\n' => ['\\', 'n']
  | '\r' => ['\\', 'r']
  | '\t' => ['\\', 't']
  | '\x08' => ['\\', 'b']
  | '\x0c' => ['\\', 'f']
  | c =>
    if c.toNat < 0x20 then ['\\', 'u', '0', '0', hexDigit (c.toNat / 16), hexDigit (c.toNat % 16)]
    else [c]

/-- A text in quotation marks. -/
def quote (text : String) : String :=
  "\"" ++ String.ofList (text.toList.flatMap escape) ++ "\""

mutual

/-- Writes a value in one line. -/
def compact : Json → String
  | .null => "null"
  | .bool value => if value then "true" else "false"
  | .number digits => digits
  | .text value => quote value
  | .broken => "null"
  | .array items => "[" ++ ",".intercalate (compactItems items) ++ "]"
  | .object members => "\x7b" ++ ",".intercalate (compactMembers members) ++ "\x7d"

/-- Writes each item of an array. -/
def compactItems : List Json → List String
  | [] => []
  | item :: rest => compact item :: compactItems rest

/-- Writes each member of an object. -/
def compactMembers : List (String × Json) → List String
  | [] => []
  | (name, item) :: rest => (quote name ++ ":" ++ compact item) :: compactMembers rest

end

/-- Puts lines between brackets, each two blanks deeper than the brackets. -/
def inLines (left right : String) (depth : Nat) (lines : List String) : String :=
  let indent := String.ofList (List.replicate (2 * depth) ' ')
  if lines.isEmpty then left ++ right
  else
    left ++ "\n" ++ ",\n".intercalate (lines.map fun line => indent ++ "  " ++ line) ++
      "\n" ++ indent ++ right

mutual

/-- Writes a value in lines, at some depth. -/
def prettyAt (depth : Nat) : Json → String
  | .array items => inLines "[" "]" depth (prettyItems (depth + 1) items)
  | .object members => inLines "\x7b" "\x7d" depth (prettyMembers (depth + 1) members)
  | value => compact value

/-- Writes each item of an array. -/
def prettyItems (depth : Nat) : List Json → List String
  | [] => []
  | item :: rest => prettyAt depth item :: prettyItems depth rest

/-- Writes each member of an object. -/
def prettyMembers (depth : Nat) : List (String × Json) → List String
  | [] => []
  | (name, item) :: rest =>
    (quote name ++ ": " ++ prettyAt depth item) :: prettyMembers depth rest

end

/-- Writes a value in lines. -/
def pretty (value : Json) : String := prettyAt 0 value

end Percolator.Json
