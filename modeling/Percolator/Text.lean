/-!
# Texts

What readers of different formats do with the characters of a text in the same way.
-/

namespace Percolator.Text

/-- The value of decimal digits. -/
def decimalValue (digits : List Char) : Nat :=
  digits.foldl (fun n d => 10 * n + (d.toNat - '0'.toNat)) 0

/-- The value of a hexadecimal digit. -/
def hexValue? (c : Char) : Option Nat :=
  if '0' ≤ c ∧ c ≤ '9' then some (c.toNat - '0'.toNat)
  else if 'a' ≤ c ∧ c ≤ 'f' then some (c.toNat - 'a'.toNat + 10)
  else if 'A' ≤ c ∧ c ≤ 'F' then some (c.toNat - 'A'.toNat + 10)
  else none

/-- The longer of two texts, the first if they have the same length. -/
def longer (best text : List Char) : List Char :=
  if best.length < text.length then text else best

theorem isInfix_longer {best text whole : List Char} (hbest : best <:+: whole)
    (htext : text <:+: whole) : longer best text <:+: whole := by
  simp only [longer]
  split
  · exact htext
  · exact hbest

end Percolator.Text
