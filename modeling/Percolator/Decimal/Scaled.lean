import Percolator.Decimal.Reading

/-!
# Reading decimals by scaling

A number is read in double precision without a search for the nearest one: as many of its digits as
64 bits hold are taken as an integer, which is rounded and then multiplied with, or divided by, a
power of ten. The result may differ from the nearest number in its last places. A number that is
too large is refused.
-/

namespace Percolator.Decimal

/-- Takes digits behind the number `n` as long as the number stays below `2 ^ 64`. The result is the
number with the digits that are left. -/
def takeWord (n : Nat) : List Char → Nat × List Char
  | [] => (n, [])
  | c :: rest =>
    let next := 10 * n + (c.toNat - '0'.toNat)
    if next < 2 ^ 64 then takeWord next rest else (n, c :: rest)

/-- The decimal of the digits in front of the point and behind it, cut to 64 bits. A digit in front
of the point that is cut off still counts as a place; one behind the point does not. -/
def Scientific.cut (whole places : List Char) (ten : Int) : Scientific :=
  let (n, more) := takeWord 0 whole
  let (n, dropped) := takeWord n places
  ⟨n, ten + more.length + dropped.length - places.length⟩

/-- A power of ten in double precision. -/
def powerOfTen (n : Nat) : Float := Float.ofScientific 1 false n

/-- The largest power of ten in double precision has this exponent. -/
def largestPower : Nat := 308

/-- The quotient of a number and `10 ^ n`, in steps of the largest power of ten. -/
def dividedByTens (x : Float) (n : Nat) : Float :=
  if n ≤ largestPower then x / powerOfTen n
  else if x == 0 then x
  else dividedByTens (x / powerOfTen largestPower) (n - largestPower)
termination_by n
decreasing_by simp only [largestPower] at *; omega

/-- The number in double precision, unless it is too large. -/
def Scientific.scaled? (s : Scientific) : Option Float :=
  let x := s.digits.toUInt64.toFloat
  if s.ten < 0 then some (dividedByTens x (-s.ten).toNat)
  else if s.ten ≤ largestPower then
    some (x * powerOfTen s.ten.toNat) |>.filter (!·.isInf)
  else if s.digits = 0 then some 0
  else none

/-- Reads a number by scaling. -/
def readScaled? (text : String) : Option Float := do
  let (negative, rest) := readSign text.toList
  let whole := rest.takeWhile Char.isDigit
  let (places, rest) := match rest.dropWhile Char.isDigit with
    | '.' :: rest => (rest.takeWhile Char.isDigit, rest.dropWhile Char.isDigit)
    | rest => ([], rest)
  let x ← (Scientific.cut whole places (← readExponent? rest)).scaled?
  some (if negative then -x else x)

end Percolator.Decimal
