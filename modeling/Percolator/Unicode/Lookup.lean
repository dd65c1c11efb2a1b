import Percolator.Unicode.Age
import Percolator.Unicode.Break
import Percolator.Unicode.Script

/-!
# Sets of characters by name

A set is named by a general category, a script or a binary property, or by a property and one of
its values, as in `gc=Lu`, `scx:Greek` and `age!=6.0`. Letter case, blanks, hyphens and low lines of
a name do not matter, and neither does `is` at its front.
-/

namespace Percolator.Unicode

/-- A name without the differences that do not matter. Without its `is`, the name `isc` would be
that of a category, so it is kept. -/
def looseName (name : List Char) : String :=
  let rest := match name with
    | a :: b :: rest => if (a = 'i' ∨ a = 'I') ∧ (b = 's' ∨ b = 'S') then rest else name
    | _ => name
  let loose := (rest.filter fun c => c ∉ [' ', '_', '-'] ∧ c.toNat < 0x80).map Char.toLower
  if rest.length < name.length ∧ loose = ['c'] then "isc" else String.ofList loose

/-- The characters of the categories that a name stands for. -/
def categoryChars? (name : String) : Option CharSet :=
  match name with
  | "any" => some .full
  | "ascii" => some (.span 0 0x7F)
  | "assigned" => some Category.unassigned.chars.complement
  | _ => (categories? name).map charsOf

/-- The set that a single name stands for. -/
def charsNamed? (name : List Char) : Option CharSet :=
  let name := looseName name
  ((property? name).map Property.chars).or
    ((categoryChars? name).or ((script? name).map Script.chars))

/-- The set of the class of that name, among the classes of a kind of boundary. -/
def breakChars? (classes : List Property) (name : String) : Option CharSet :=
  (classes.find? (name ∈ ·.names)).map Property.chars

/-- The set of the characters with a value of a property. -/
def charsValued? (property value : List Char) : Option CharSet :=
  let value := looseName value
  match looseName property with
  | "gc" | "generalcategory" => categoryChars? value
  | "sc" | "script" => (script? value).map Script.chars
  | "scx" | "scriptextensions" => (script? value).map Script.extension
  | "age" => charsOfAge? value
  | "gcb" | "graphemeclusterbreak" => breakChars? graphemeBreaks value
  | "wb" | "wordbreak" => breakChars? wordBreaks value
  | "sb" | "sentencebreak" => breakChars? sentenceBreaks value
  | _ => none

/-- What stands between the braces of `\p{…}`. -/
structure Description where
  /-- The set that is described. -/
  chars : CharSet
  /-- The characters outside the set are meant, as `!=` says. -/
  negated : Bool := false

/-- Reads what stands between the braces of `\p{…}`. -/
def Description.read? (text : List Char) : Option Description :=
  match splitAt? ['!', '='] text with
  | some (property, value) => (charsValued? property value).map (⟨·, true⟩)
  | none =>
    match splitAt? [':'] text with
    | some (property, value) => (charsValued? property value).map (⟨·, false⟩)
    | none =>
      match splitAt? ['='] text with
      | some (property, value) => (charsValued? property value).map (⟨·, false⟩)
      | none => (charsNamed? text).map (⟨·, false⟩)
where
  /-- The text before and after the first place where `mark` stands. -/
  splitAt? (mark : List Char) : List Char → Option (List Char × List Char)
    | [] => none
    | c :: rest =>
      if mark.isPrefixOf (c :: rest) then some ([], (c :: rest).drop mark.length)
      else (splitAt? mark rest).map fun (before, after) => (c :: before, after)

end Percolator.Unicode
