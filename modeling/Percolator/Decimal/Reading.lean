import Percolator.Text

/-!
# Reading decimals

A number is written as an optional sign, digits with an optional point, and an optional exponent;
a digit has to stand before or behind the point. Infinity and the value that is no number are
written as words, in any letter case. The result is the nearest number of double precision.
-/

namespace Percolator.Decimal

/-- A decimal `digits · 10 ^ ten`. -/
structure Scientific where
  digits : Nat
  ten : Int
deriving DecidableEq, Repr

namespace Scientific

/-- The nearest number of double precision. A decimal with its first digit far above the largest
number is infinite, and one far below the smallest is zero. -/
def toFloat (s : Scientific) : Float :=
  let magnitude := (Nat.toDigits 10 s.digits).length + s.ten
  if s.digits = 0 then 0
  else if magnitude > 400 then 1 / 0
  else if magnitude < -400 then 0
  else if 0 ≤ s.ten then Float.ofScientific (s.digits * Nat.pow 10 s.ten.toNat) false 0
  else Float.ofScientific s.digits true (-s.ten).toNat

end Scientific

/-- Reads a sign at the front: whether it is a minus sign, and the text behind it. -/
def readSign : List Char → Bool × List Char
  | '-' :: rest => (true, rest)
  | '+' :: rest => (false, rest)
  | rest => (false, rest)

/-- Reads an exponent that makes up the whole text; no text is the exponent zero. -/
def readExponent? : List Char → Option Int
  | [] => some 0
  | c :: rest =>
    let (negative, digits) := readSign rest
    if (c = 'e' ∨ c = 'E') ∧ !digits.isEmpty ∧ digits.all Char.isDigit then
      some (if negative then -(Text.decimalValue digits : Int) else Text.decimalValue digits)
    else none

/-- Reads an unsigned decimal. -/
def readScientific? (text : List Char) : Option Scientific :=
  let whole := text.takeWhile Char.isDigit
  let rest := text.dropWhile Char.isDigit
  let (places, rest) := match rest with
    | '.' :: rest => (rest.takeWhile Char.isDigit, rest.dropWhile Char.isDigit)
    | rest => ([], rest)
  if whole.isEmpty ∧ places.isEmpty then none
  else (readExponent? rest).map fun ten =>
    ⟨Text.decimalValue (whole ++ places), ten - places.length⟩

/-- Reads a number. -/
def readFloat? (text : String) : Option Float :=
  let (negative, rest) := readSign text.toList
  let magnitude? :=
    match String.ofList (rest.map Char.toLower) with
    | "inf" | "infinity" => some (1 / 0)
    | "nan" => some (0 / 0)
    | _ => (readScientific? rest).map Scientific.toFloat
  magnitude?.map fun x => if negative then -x else x

end Percolator.Decimal
