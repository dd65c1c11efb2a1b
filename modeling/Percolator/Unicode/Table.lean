import Percolator.Unicode.CharSet

/-!
# Tables of code points

The Unicode tables of this library are written as text: items separated by blanks and line feeds,
code points in hexadecimal. `41-5A` is a range, `AA` a single code point, and `100-12E/2` every
second code point of a range. In a table of mappings, `41-5A>61` sends each code point of the range
to the one at the same distance from the target.
-/

namespace Percolator.Unicode

/-- The value of a hexadecimal digit with capital letters; `0` for any other character. -/
def hexDigit (c : Char) : Nat :=
  if '0' ≤ c ∧ c ≤ '9' then c.toNat - '0'.toNat
  else if 'A' ≤ c ∧ c ≤ 'F' then c.toNat - 'A'.toNat + 10
  else 0

/-- Reads digits up to the first separator. -/
def readCodePoint (text : List Char) : Nat × List Char :=
  go 0 text
where
  /-- Adds the digits of `text` to the value `n` read before. -/
  go (n : Nat) : List Char → Nat × List Char
    | [] => (n, [])
    | c :: rest =>
      if c ∈ [' ', '-', '/', '>'] then (n, c :: rest) else go (16 * n + hexDigit c) rest

/-- One item of a table: the code points `first`, `first + step`, … up to `last`, and the code
point that `first` is sent to. -/
structure Entry where
  first : Nat
  last : Nat
  step : Nat
  target : Nat
deriving Repr

/-- Reads one item. -/
def Entry.read (text : List Char) : Entry :=
  let (first, rest) := readCodePoint text
  let (last, rest) := match rest with
    | '-' :: rest => readCodePoint rest
    | _ => (first, rest)
  let (step, rest) := match rest with
    | '/' :: rest => readCodePoint rest
    | _ => (1, rest)
  let target := match rest with
    | '>' :: rest => (readCodePoint rest).1
    | _ => first
  ⟨first, last, step, target⟩

/-- The items of a table. -/
def entries (table : String) : List Entry :=
  let pieces := table.toList.splitOnP fun c => c = ' ' || c = '\n'
  (pieces.filter (!·.isEmpty)).map Entry.read

/-- The code points of an item. -/
def Entry.codePoints (e : Entry) : List Nat :=
  (List.range ((e.last - e.first) / e.step + 1)).map fun k => e.first + k * e.step

/-- The ranges of an item. -/
def Entry.ranges (e : Entry) : List CharRange :=
  if e.step = 1 then [⟨e.first, e.last⟩] else e.codePoints.map fun n => ⟨n, n⟩

/-- The code points of an item, each with the code point it is sent to. -/
def Entry.mappings (e : Entry) : List (Nat × Nat) :=
  e.codePoints.map fun n => (n, n - e.first + e.target)

/-- The set of characters that a table lists. -/
def tableSet (table : String) : CharSet := .ofRanges ((entries table).flatMap Entry.ranges)

/-- The mappings that a table lists. -/
def tableMappings (table : String) : List (Nat × Nat) := (entries table).flatMap Entry.mappings

end Percolator.Unicode
