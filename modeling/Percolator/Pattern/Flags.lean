import Percolator.Pattern.Basic
import Percolator.Unicode.Casing

/-!
# Flags

The flags in force decide how the characters of a pattern are read: `Flags.ofChar?` is the
expression of one character, `Flags.close?` finishes a set by adding case variants and taking the
complement, and `Flags.caret` and `Flags.dollar` are the conditions behind `^` and `$`. Without the
Unicode flag a set may hold ASCII characters only.
-/

namespace Percolator.Pattern

/-- The flags of a pattern. -/
structure Flags where
  caseless : Bool := false
  multiLine : Bool := false
  dotAll : Bool := false
  swapGreed : Bool := false
  unicode : Bool := true
  crlf : Bool := false
  /-- Blanks and comments in the pattern are skipped. -/
  spaced : Bool := false
deriving DecidableEq, Repr, Inhabited

/-- The names of the flags. -/
inductive Flag where
  | caseless
  | multiLine
  | dotAll
  | swapGreed
  | unicode
  | crlf
  | spaced
deriving DecidableEq, Repr

/-- The flag that a letter stands for. -/
def Flag.ofLetter? : Char → Option Flag
  | 'i' => some .caseless
  | 'm' => some .multiLine
  | 's' => some .dotAll
  | 'U' => some .swapGreed
  | 'u' => some .unicode
  | 'R' => some .crlf
  | 'x' => some .spaced
  | _ => none

namespace Flags

/-- The flags with one of them changed. -/
def set (f : Flags) (value : Bool) : Flag → Flags
  | .caseless => { f with caseless := value }
  | .multiLine => { f with multiLine := value }
  | .dotAll => { f with dotAll := value }
  | .swapGreed => { f with swapGreed := value }
  | .unicode => { f with unicode := value }
  | .crlf => { f with crlf := value }
  | .spaced => { f with spaced := value }

/-- The alphabet that is in force. -/
def alphabet (f : Flags) : Alphabet := if f.unicode then .unicode else .ascii

/-- The ASCII letters of a set in both cases, with the rest of the set. -/
def foldAscii (s : CharSet) : CharSet :=
  let lower := (s.inter (.span 0x41 0x5A)).ranges.map fun r => ⟨r.first + 32, r.last + 32⟩
  let upper := (s.inter (.span 0x61 0x7A)).ranges.map fun r => ⟨r.first - 32, r.last - 32⟩
  .ofRanges (s.ranges ++ lower ++ upper)

/-- The set with the case variants that the flags add. -/
def fold (f : Flags) (s : CharSet) : CharSet :=
  if f.caseless then (if f.unicode then s.foldCase else foldAscii s) else s

/-- A set as far as the flags admit it: without the Unicode flag, one of ASCII characters. -/
def admit? (f : Flags) (s : CharSet) : Option CharSet :=
  if f.unicode || s.isAscii then some s else none

/-- Adds case variants, then takes the complement if asked to. -/
def close? (f : Flags) (negated : Bool) (s : CharSet) : Option CharSet :=
  f.admit? (if negated then (f.fold s).complement else f.fold s)

/-- The expression of one character; `byte` tells that it was written as a byte of two hexadecimal
digits, which without the Unicode flag must be an ASCII character. -/
def ofChar? (f : Flags) (c : Char) (byte : Bool) : Option Expr :=
  if !f.unicode && byte && c.toNat ≥ 0x80 then none
  else
    let variants := f.fold (.single c)
    if variants == .single c then some (.literal [c]) else some (.oneOf f.alphabet variants)

/-- The character as a member of a set. -/
def member? (f : Flags) (c : Char) : Option CharSet := f.admit? (.single c)

/-- The line ends that a dot does not stand for. -/
def lineEnds (f : Flags) : CharSet :=
  .ofRanges (.single '\n' :: if f.crlf then [.single '\r'] else [])

/-- The expression of a dot. -/
def dot? (f : Flags) : Option Expr :=
  if !f.unicode then none
  else some (.oneOf .unicode (if f.dotAll then .full else f.lineEnds.complement))

/-- The condition behind `^`. -/
def caret (f : Flags) : Look :=
  if !f.multiLine then .textStart else if f.crlf then .crlfLineStart else .lineStart

/-- The condition behind `$`. -/
def dollar (f : Flags) : Look :=
  if !f.multiLine then .textEnd else if f.crlf then .crlfLineEnd else .lineEnd

/-- The set of `\d`. -/
def digit (f : Flags) : CharSet := if f.unicode then Unicode.digits else .span 0x30 0x39

/-- The set of `\s`. -/
def blank (f : Flags) : CharSet :=
  if f.unicode then Unicode.blanks else ⟨[⟨9, 13⟩, ⟨32, 32⟩]⟩

/-- The word characters of ASCII. -/
def asciiWord : CharSet := ⟨[⟨0x30, 0x39⟩, ⟨0x41, 0x5A⟩, ⟨0x5F, 0x5F⟩, ⟨0x61, 0x7A⟩]⟩

/-- The set of `\w`. -/
def word (f : Flags) : CharSet := if f.unicode then Unicode.wordChars else asciiWord

end Flags

end Percolator.Pattern
