import Percolator.Json.Basic
import Percolator.Text

/-!
# Reading JSON

`Json.read?` reads a text that consists of one value and blanks around it. A reader of this file
takes the text that is left and returns what it read with the text behind it. Fuel bounds the steps;
it stays above the number of characters that are left.
-/

namespace Percolator.Json

/-- The text behind the blanks at its front. -/
def skipBlanks (text : List Char) : List Char :=
  text.dropWhile (· ∈ [' ', '\t', '\n', '\r'])

/-- Reads one or more digits. -/
def digits? (text : List Char) : Option (List Char × List Char) :=
  match text.takeWhile Char.isDigit with
  | [] => none
  | digits => some (digits, text.dropWhile Char.isDigit)

/-- Reads the part of a number behind its point. -/
def fraction? : List Char → Option (List Char × List Char)
  | '.' :: rest => (digits? rest).map fun (ds, rest) => ('.' :: ds, rest)
  | rest => some ([], rest)

/-- Reads the exponent of a number. -/
def exponent? : List Char → Option (List Char × List Char)
  | c :: rest =>
    if c = 'e' ∨ c = 'E' then
      match rest with
      | '+' :: rest => (digits? rest).map fun (ds, rest) => (c :: '+' :: ds, rest)
      | '-' :: rest => (digits? rest).map fun (ds, rest) => (c :: '-' :: ds, rest)
      | rest => (digits? rest).map fun (ds, rest) => (c :: ds, rest)
    else some ([], c :: rest)
  | [] => some ([], [])

/-- Reads a number. Its integer part has no zero in front of other digits. -/
def number? (text : List Char) : Option (Json × List Char) := do
  let (sign, rest) := match text with
    | '-' :: rest => (['-'], rest)
    | rest => ([], rest)
  let (whole, rest) ← digits? rest
  if whole.head? = some '0' ∧ whole.length > 1 then none
  else
    let (places, rest) ← fraction? rest
    let (ten, rest) ← exponent? rest
    some (.number (String.ofList (sign ++ whole ++ places ++ ten)), rest)

/-- Reads the four hexadecimal digits of a code unit. -/
def unit? : List Char → Option (Nat × List Char)
  | a :: b :: c :: d :: rest => do
    let a ← Text.hexValue? a
    let b ← Text.hexValue? b
    let c ← Text.hexValue? c
    let d ← Text.hexValue? d
    some (((a * 16 + b) * 16 + c) * 16 + d, rest)
  | _ => none

/-- What a letter behind a backslash stands for. -/
def escaped? : Char → Option Char
  | '"' => some '"'
  | '\\' => some '\\'
  | '/' => some '/'
  | 'b' => some '\x08'
  | 'f' => some '\x0c'
  | 'n' => some '\n'
  | 'r' => some '\r'
  | 't' => some '\t'
  | _ => none

/-- The code unit begins a surrogate pair. -/
def isHighSurrogate (n : Nat) : Bool := 0xD800 ≤ n && n ≤ 0xDBFF

/-- The code unit ends a surrogate pair. -/
def isLowSurrogate (n : Nat) : Bool := 0xDC00 ≤ n && n ≤ 0xDFFF

/-- The second unit of a surrogate pair at the front of a text. -/
def lowSurrogate? : List Char → Option (Nat × List Char)
  | '\\' :: 'u' :: rest => (unit? rest).filter fun (n, _) => isLowSurrogate n
  | _ => none

/-- Reads a string behind its quotation mark. `whole` tells that no half of a surrogate pair was met
so far, and `done` holds the characters so far, the last one first. -/
def string? (fuel : Nat) (whole : Bool) (done : List Char) (text : List Char) :
    Option (Json × List Char) :=
  match fuel, text with
  | fuel + 1, c :: rest =>
    if c = '"' then
      some (if whole then .text (String.ofList done.reverse) else .broken, rest)
    else if c.toNat < 0x20 then none
    else if c = '\\' then
      match rest with
      | 'u' :: rest => do
        let (n, rest) ← unit? rest
        if isHighSurrogate n then
          match lowSurrogate? rest with
          | some (m, rest) =>
            let n := 0x10000 + (n - 0xD800) * 0x400 + (m - 0xDC00)
            string? fuel whole (Char.ofNat n :: done) rest
          | none => string? fuel false done rest
        else if isLowSurrogate n then string? fuel false done rest
        else string? fuel whole (Char.ofNat n :: done) rest
      | c :: rest => do string? fuel whole ((← escaped? c) :: done) rest
      | [] => none
    else string? fuel whole (c :: done) rest
  | _, _ => none

/-- The object with these members, whose names are strings in JSON. -/
def ofMembers (members : List (Json × Json)) : Json :=
  match members.mapM fun (name, item) => name.text?.map (·, item) with
  | some members => .object members
  | none => .broken

mutual

/-- Reads a value. -/
def readValue? (fuel : Nat) (text : List Char) : Option (Json × List Char) :=
  match fuel, skipBlanks text with
  | fuel + 1, c :: rest =>
    match c with
    | 'n' => if ['u', 'l', 'l'].isPrefixOf rest then some (.null, rest.drop 3) else none
    | 't' => if ['r', 'u', 'e'].isPrefixOf rest then some (.bool true, rest.drop 3) else none
    | 'f' =>
      if ['a', 'l', 's', 'e'].isPrefixOf rest then some (.bool false, rest.drop 4) else none
    | '"' => string? fuel true [] rest
    | '[' =>
      match skipBlanks rest with
      | ']' :: rest => some (.array [], rest)
      | rest => do
        let (items, rest) ← readItems? fuel rest
        some (.array items, rest)
    | '\x7b' =>
      match skipBlanks rest with
      | '\x7d' :: rest => some (.object [], rest)
      | rest => do
        let (members, rest) ← readMembers? fuel rest
        some (ofMembers members, rest)
    | c => number? (c :: rest)
  | _, _ => none

/-- Reads the items of an array up to its closing bracket. -/
def readItems? (fuel : Nat) (text : List Char) : Option (List Json × List Char) :=
  match fuel with
  | fuel + 1 => do
    let (item, rest) ← readValue? fuel text
    match skipBlanks rest with
    | ',' :: rest => do
      let (items, rest) ← readItems? fuel rest
      some (item :: items, rest)
    | ']' :: rest => some ([item], rest)
    | _ => none
  | 0 => none

/-- Reads the members of an object up to its closing brace. A name is a string in JSON. -/
def readMembers? (fuel : Nat) (text : List Char) : Option (List (Json × Json) × List Char) :=
  match fuel, skipBlanks text with
  | fuel + 1, '"' :: rest => do
    let (name, rest) ← string? fuel true [] rest
    match skipBlanks rest with
    | ':' :: rest => do
      let (item, rest) ← readValue? fuel rest
      match skipBlanks rest with
      | ',' :: rest => do
        let (members, rest) ← readMembers? fuel rest
        some ((name, item) :: members, rest)
      | '\x7d' :: rest => some ([(name, item)], rest)
      | _ => none
    | _ => none
  | _, _ => none

end

/-- The value of a text. -/
def read? (text : String) : Option Json :=
  let chars := text.toList
  match readValue? (2 * chars.length + 1) chars with
  | some (value, rest) => if (skipBlanks rest).isEmpty then some value else none
  | none => none

end Percolator.Json
