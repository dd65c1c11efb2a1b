/-!
# Shortest decimals

A binary floating point number is written with the fewest digits that read back as the same
number, and of those with the ones nearest to it. The computation is exact: the number is
`mantissa · 2 ^ exponent`, the numbers that read back as it are those between the middles to its
neighbours, and on each decimal grid the two points next to the number are tested.

Numbers are written positionally, without an exponent and without a point where they are integers.
-/

namespace Percolator.Decimal

/-- A positive number `mantissa · 2 ^ exponent`. -/
structure Binary where
  mantissa : Nat
  exponent : Int
  /-- The neighbour below is half as far away as the one above. -/
  nearBelow : Bool
deriving Repr

/-- `n · 10 ^ ten · 2 ^ two`, as a fraction. -/
def fraction (n : Nat) (ten two : Int) : Nat × Nat :=
  (n * Nat.pow 10 ten.toNat <<< two.toNat, Nat.pow 10 (-ten).toNat <<< (-two).toNat)

namespace Binary

/-- The number times four, as a multiple of a quarter of the last place. -/
def quarters (b : Binary) : Nat := 4 * b.mantissa

/-- The number divided by `10 ^ ten`, rounded down. -/
def floorAt (b : Binary) (ten : Int) : Nat :=
  let (n, d) := fraction b.quarters (-ten) (b.exponent - 2)
  n / d

/-- `digits · 10 ^ ten` is compared with some quarters of the last place. -/
def compareQuarters (b : Binary) (digits : Nat) (ten : Int) (quarters : Nat) : Ordering :=
  let (n, d) := fraction quarters (-ten) (b.exponent - 2)
  compare (digits * d) n

/-- `digits · 10 ^ ten` reads back as the number. Where the mantissa is even, the middles to its
neighbours do so too. -/
def readsBack (b : Binary) (digits : Nat) (ten : Int) : Bool :=
  let below := b.compareQuarters digits ten (b.quarters - if b.nearBelow then 1 else 2)
  let above := b.compareQuarters digits ten (b.quarters + 2)
  if b.mantissa % 2 = 0 then below != .lt && above != .gt else below == .gt && above == .lt

/-- `digits + 1` is at least as near to the number as `digits`, in units of `10 ^ ten`. -/
def roundsUp (b : Binary) (digits : Nat) (ten : Int) : Bool :=
  b.compareQuarters (2 * digits + 1) ten (2 * b.quarters) != .gt

/-- How many decimal digits stand before the point; for a number below one, less the zeros behind
the point. -/
def magnitude (b : Binary) : Int :=
  let whole := b.floorAt 0
  if whole ≠ 0 then (Nat.toDigits 10 whole).length
  else
    let zeros? := (List.range 400).find? fun k => b.floorAt (-(k + 1 : Nat)) ≠ 0
    Int.negOfNat (zeros?.getD 400)

/-- The point of the grid of `10 ^ ten` that reads back as the number, the nearer one if there are
two. -/
def onGrid? (b : Binary) (ten : Int) : Option Nat :=
  let below := b.floorAt ten
  match b.readsBack below ten, b.readsBack (below + 1) ten with
  | true, true => some (if b.roundsUp below ten then below + 1 else below)
  | true, false => some below
  | false, true => some (below + 1)
  | false, false => none

/-- The shortest decimal that reads back, as its digits and the power of ten of the last one. -/
def shortest (b : Binary) : Nat × Int :=
  let top := b.magnitude
  let found := (List.range 17).findSome? fun k =>
    (b.onGrid? (top - (k + 1 : Nat))).map fun digits => (digits, top - (k + 1 : Nat))
  found.getD (b.mantissa, 0)

end Binary

/-- Removes zeros at the end. -/
def trimZeros (digits : List Char) (ten : Int) : List Char × Int :=
  let kept := (digits.reverse.dropWhile (· == '0')).reverse
  (kept, ten + (digits.length - kept.length : Nat))

/-- Writes `digits · 10 ^ ten` positionally. -/
def positional (digits : Nat) (ten : Int) : String :=
  let (text, ten) := trimZeros (Nat.toDigits 10 digits) ten
  let places := (-ten).toNat
  if 0 ≤ ten then String.ofList (text ++ List.replicate ten.toNat '0')
  else
    let padded := List.replicate (places + 1 - text.length) '0' ++ text
    let whole := padded.length - places
    String.ofList (padded.take whole ++ '.' :: padded.drop whole)

/-- Writes the number with a sign bit, an exponent field and a fraction field, where `bits` is the
width of the fraction and `bias` the exponent of the last place of the smallest numbers. -/
def render (bits : Nat) (bias : Int) (top : Nat) (negative : Bool) (exponent fraction : Nat) :
    String :=
  let sign := if negative then "-" else ""
  if exponent = top then if fraction = 0 then sign ++ "inf" else "NaN"
  else if exponent = 0 ∧ fraction = 0 then sign ++ "0"
  else
    let mantissa := if exponent = 0 then fraction else fraction + 1 <<< bits
    let b : Binary := ⟨mantissa, (max exponent 1 : Nat) + bias, fraction = 0 ∧ 1 < exponent⟩
    let (digits, ten) := b.shortest
    sign ++ positional digits ten

/-- Writes a number of single precision. -/
def ofFloat32 (x : Float32) : String :=
  let n := x.toBits.toNat
  render 23 (-150) 255 (n >>> 31 = 1) (n >>> 23 % 0x100) (n % 0x800000)

/-- Writes a number of double precision. -/
def ofFloat (x : Float) : String :=
  let n := x.toBits.toNat
  render 52 (-1075) 2047 (n >>> 63 = 1) (n >>> 52 % 0x800) (n % 0x10000000000000)

end Percolator.Decimal
