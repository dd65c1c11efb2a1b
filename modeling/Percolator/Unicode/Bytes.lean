import Percolator.Unicode.CharSet

/-!
# Bytes of characters

In UTF-8 a character is written with one to four bytes. The characters of a range are those whose
bytes follow one of some sequences of byte spans: `byteSequences first last` lists these sequences
in the order of their characters. A range is cut until all its characters have the same number of
bytes and, behind the first byte in which they differ, every byte takes all its values.
-/

namespace Percolator.Unicode

/-- The bytes from `first` to `last`, both included. -/
structure ByteSpan where
  first : Nat
  last : Nat
deriving DecidableEq, Repr

/-- The bytes of a character. -/
def bytesOf (c : Char) : List Nat := (String.utf8EncodeChar c).map UInt8.toNat

/-- Where blocks of `size` code points cut a range that begins in one block and ends in another: at
the end of the first block, if the range begins inside of it, or else in front of the last block,
if the range ends inside of that one. -/
def blockCut? (first last size : Nat) : Option Nat :=
  if first / size = last / size then none
  else if first % size ≠ 0 then some ((first / size + 1) * size - 1)
  else if last % size ≠ size - 1 then some (last / size * size - 1)
  else none

/-- The last code point of the first part of a range that has to be cut: in front of the
surrogates, where characters begin to take more bytes, and where blocks of the code points that
the last one, two or three bytes tell apart begin. -/
def cut? (first last : Nat) : Option Nat :=
  if first < 0xE000 ∧ 0xD7FF < last then some 0xD7FF
  else
    match [0x7F, 0x7FF, 0xFFFF].find? fun n => first ≤ n ∧ n < last with
    | some n => some n
    | none =>
      if last ≤ 0x7F then none
      else [64, 64 * 64, 64 * 64 * 64].findSome? (blockCut? first last)

/-- The sequences of byte spans of the characters from `first` to `last`. -/
def byteSequences (first last : Nat) : List (List ByteSpan) :=
  match cut? first last with
  | some n =>
    if first ≤ n ∧ n < last then
      byteSequences first n ++ byteSequences (CharSet.scalarAfter n) last
    else []
  | none => [(bytesOf (.ofNat first)).zipWith ByteSpan.mk (bytesOf (.ofNat last))]
termination_by last - first
decreasing_by
  · omega
  · unfold CharSet.scalarAfter; split <;> omega

end Percolator.Unicode

namespace Percolator.CharSet

/-- The sequences of byte spans of the characters of the set. -/
def byteSequences (s : CharSet) : List (List Unicode.ByteSpan) :=
  s.ranges.flatMap fun r => Unicode.byteSequences r.first r.last

end Percolator.CharSet
