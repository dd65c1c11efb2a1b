/-!
# Sets of characters

A character set is a list of ranges of code points. The operations of this file return ranges in
increasing order that neither overlap nor touch, so that two sets with the same characters that
were built here are equal as values; only a complement may hold a range that overlaps others. The
complement is taken in the Unicode scalar values: no range begins or ends at a surrogate.
-/

namespace Percolator

/-- The code points from `first` to `last`, both included. -/
structure CharRange where
  first : Nat
  last : Nat
deriving DecidableEq, Repr, Inhabited

namespace CharRange

/-- The code point `n` lies in the range. -/
def holds (r : CharRange) (n : Nat) : Bool := r.first ≤ n && n ≤ r.last

/-- The range of one character. -/
def single (c : Char) : CharRange := ⟨c.toNat, c.toNat⟩

/-- The overlap of two ranges, if there is one. -/
def meet? (r s : CharRange) : Option CharRange :=
  if max r.first s.first ≤ min r.last s.last then
    some ⟨max r.first s.first, min r.last s.last⟩
  else none

end CharRange

/-- A set of characters, given by ranges of code points. -/
structure CharSet where
  ranges : List CharRange
deriving DecidableEq, Repr, Inhabited

namespace CharSet

/-- The largest code point. -/
def lastCodePoint : Nat := 0x10FFFF

/-- The scalar value after `n`. -/
def scalarAfter (n : Nat) : Nat := if n = 0xD7FF then 0xE000 else n + 1

/-- The scalar value before `n`. -/
def scalarBefore (n : Nat) : Nat := if n = 0xE000 then 0xD7FF else n - 1

/-- The code point `n` is in the set. -/
def holds (s : CharSet) (n : Nat) : Bool := s.ranges.any (·.holds n)

/-- The character `c` is in the set. -/
def contains (s : CharSet) (c : Char) : Bool := s.holds c.toNat

/-- Joins `r` with the ranges after it that it overlaps or touches. -/
def join (r : CharRange) : List CharRange → List CharRange
  | [] => [r]
  | s :: rest =>
    if s.first ≤ r.last + 1 then join ⟨r.first, max r.last s.last⟩ rest else r :: join s rest

/-- The set of the characters that lie in some range of the list. -/
def ofRanges (ranges : List CharRange) : CharSet :=
  match ranges.mergeSort (fun r s => r.first ≤ s.first) with
  | [] => ⟨[]⟩
  | r :: rest => ⟨join r rest⟩

/-- The set without characters. -/
def empty : CharSet := ⟨[]⟩

/-- The set of all characters. -/
def full : CharSet := ⟨[⟨0, lastCodePoint⟩]⟩

/-- The characters from `first` to `last`. -/
def span (first last : Nat) : CharSet := ⟨[⟨first, last⟩]⟩

/-- The set of one character. -/
def single (c : Char) : CharSet := ⟨[.single c]⟩

/-- The characters of either set. -/
def union (s t : CharSet) : CharSet := ofRanges (s.ranges ++ t.ranges)

/-- The characters of all the sets. -/
def unions (sets : List CharSet) : CharSet := ofRanges (sets.flatMap (·.ranges))

/-- The range from the scalar value after `r` to the one before `s`. Where only surrogates lie
between the two, those values are in the wrong order; they are the ends of the range all the
same, which then has a character of `r` and one of `s`. -/
def between (r s : CharRange) : CharRange :=
  let first := scalarAfter r.last
  let last := scalarBefore s.first
  ⟨min first last, max first last⟩

/-- The ranges around increasing ranges, of which `r` is the first. -/
def rangesAround (r : CharRange) : List CharRange → List CharRange
  | [] => if r.last < lastCodePoint then [⟨scalarAfter r.last, lastCodePoint⟩] else []
  | s :: rest => between r s :: rangesAround s rest

/-- The characters outside the set. A set that ends a range in front of the surrogates and begins
the next one behind them shares two characters with its complement. -/
def complement (s : CharSet) : CharSet :=
  match s.ranges with
  | [] => full
  | r :: rest =>
    ⟨if 0 < r.first then ⟨0, scalarBefore r.first⟩ :: rangesAround r rest
      else rangesAround r rest⟩

/-- The characters of both sets. -/
def inter (s t : CharSet) : CharSet :=
  ofRanges (s.ranges.flatMap fun r => t.ranges.filterMap fun u => r.meet? u)

/-- The scalar values from `start` on that lie in no range of increasing ones. -/
def gaps (start : Nat) : List CharRange → List CharRange
  | [] => if start ≤ lastCodePoint then [⟨start, lastCodePoint⟩] else []
  | r :: rest =>
    if start < r.first ∧ start ≤ scalarBefore r.first then
      ⟨start, scalarBefore r.first⟩ :: gaps (scalarAfter r.last) rest
    else gaps (scalarAfter r.last) rest

/-- The characters of the first set that are not in the second. -/
def diff (s t : CharSet) : CharSet := s.inter ⟨gaps 0 t.ranges⟩

/-- The characters of exactly one of the sets. -/
def symmDiff (s t : CharSet) : CharSet := (s.union t).diff (s.inter t)

/-- The only character of the set, if it has exactly one. -/
def only? (s : CharSet) : Option Char :=
  match s.ranges with
  | [r] => if r.first = r.last then some (Char.ofNat r.first) else none
  | _ => none

/-- The set consists of ASCII characters. -/
def isAscii (s : CharSet) : Bool := s.ranges.all (·.last < 0x80)

/-- No character is in the set. -/
def isEmpty (s : CharSet) : Bool := s.ranges.isEmpty

end CharSet

end Percolator
