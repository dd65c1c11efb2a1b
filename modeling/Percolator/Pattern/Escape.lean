import Percolator.Pattern.Flags
import Percolator.Text
import Percolator.Unicode.Lookup

/-!
# Escapes

An escape is a backslash and what follows it. It stands for one character, for a set of
characters, or for a condition on a place. A reader in this file takes the text after the
backslash and returns what the escape stands for with the text behind it, or `none` where the
escape is not a valid one.
-/

namespace Percolator.Pattern

/-- What a single element of a pattern stands for. -/
inductive Atom where
  /-- A character; `byte` tells that it was written as a byte of two hexadecimal digits. -/
  | char (c : Char) (byte : Bool)
  | set (chars : CharSet)
  | look (place : Look)

/-- The text behind blanks and comments; a comment runs from `#` to the end of its line. -/
def skipBlanks (inComment : Bool) : List Char → List Char
  | [] => []
  | c :: rest =>
    if inComment then skipBlanks (c != '\n') rest
    else if Unicode.isBlank c then skipBlanks false rest
    else if c = '#' then skipBlanks true rest
    else c :: rest

/-- The text behind blanks and comments, if the flags say that they are skipped. -/
def Flags.skip (f : Flags) (text : List Char) : List Char :=
  if f.spaced then skipBlanks false text else text

/-- Characters with a meaning of their own. -/
def isMeta (c : Char) : Bool :=
  c ∈ ['\\', '.', '+', '*', '?', '(', ')', '|', '[', ']', '\x7b', '\x7d', '^', '$', '#', '&', '-',
    '~']

/-- Characters that a backslash may stand before without giving them a meaning. -/
def isEscapable (c : Char) : Bool :=
  isMeta c || (c.toNat < 0x80 && !c.isAlphanum && c != '<' && c != '>')

/-- The character with a code point. -/
def charAt? (n : Nat) : Option Char :=
  if h : n.isValidChar then some (Char.ofNatAux n h) else none

/-- Reads exactly `count` hexadecimal digits after the value `n`. -/
def hexDigits? (f : Flags) (n : Nat) : Nat → List Char → Option (Nat × List Char)
  | 0, text => some (n, text)
  | count + 1, c :: rest =>
    match Text.hexValue? c with
    | some d => hexDigits? f (16 * n + d) count (f.skip rest)
    | none => none
  | _ + 1, [] => none

/-- Reads up to the closing brace, leaving out what the flags skip. -/
def braced? (f : Flags) (fuel : Nat) (text : List Char) : Option (List Char × List Char) :=
  match fuel, f.skip text with
  | fuel + 1, c :: rest =>
    if c = '\x7d' then some ([], rest)
    else (braced? f fuel rest).map fun (inner, rest) => (c :: inner, rest)
  | _, _ => none

/-- Reads a character by its code point: `count` digits, or any number of them in braces. -/
def hexChar? (f : Flags) (count : Nat) (text : List Char) : Option (Atom × List Char) :=
  match f.skip text with
  | '\x7b' :: rest => do
    let (inner, rest) ← braced? f (rest.length + 1) rest
    let digits ← inner.mapM Text.hexValue?
    if digits.isEmpty then none
    else
      let c ← charAt? (digits.foldl (fun n d => 16 * n + d) 0)
      some (.char c false, f.skip rest)
  | text => do
    let (n, rest) ← hexDigits? f 0 count text
    let c ← charAt? n
    some (.char c (count == 2), rest)

/-- Reads the set of `\p` or `\P`. -/
def namedSet? (f : Flags) (negated : Bool) (text : List Char) : Option (Atom × List Char) := do
  let (described, rest) ← match f.skip text with
    | [] => none
    | '\x7b' :: rest => do
      let (inner, rest) ← braced? f (rest.length + 1) rest
      some (Unicode.Description.read? inner, rest)
    | '\\' :: _ => none
    | c :: rest => some ((Unicode.charsNamed? [c]).map (⟨·, false⟩), f.skip rest)
  if !f.unicode then none
  else
    let described ← described
    let closed ← f.close? (negated != described.negated) described.chars
    some (.set closed, rest)

/-- The set of one of the letters `d`, `s` and `w`, or of its complement. -/
def shortSet? (f : Flags) (negated : Bool) (s : CharSet) (rest : List Char) :
    Option (Atom × List Char) := do
  let s ← f.admit? (if negated then s.complement else s)
  some (.set s, rest)

/-- The condition on word edges that stands in braces after `\b`. -/
def wordEdge? (alphabet : Alphabet) (name : String) : Option Look :=
  match name with
  | "start" => some (.wordStart alphabet)
  | "end" => some (.wordEnd alphabet)
  | "start-half" => some (.wordStartHalf alphabet)
  | "end-half" => some (.wordEndHalf alphabet)
  | _ => none

/-- The characters at the front that `p` holds of, and the text behind them. What the flags skip is
left out after each of them. -/
def spanSkipping (f : Flags) (p : Char → Bool) (fuel : Nat) (text : List Char) :
    List Char × List Char :=
  match fuel, text with
  | fuel + 1, c :: rest =>
    if p c then
      let (cs, rest) := spanSkipping f p fuel (f.skip rest)
      (c :: cs, rest)
    else ([], c :: rest)
  | _, text => ([], text)

/-- The characters of the names of word edges. -/
def isEdgeChar (c : Char) : Bool := c.isAlpha || c == '-'

/-- Reads what follows `\b`: a condition in braces, or nothing. A brace that no letter or hyphen
follows begins a count instead. -/
def edge? (f : Flags) : List Char → Option (Atom × List Char)
  | '\x7b' :: rest =>
    match f.skip rest with
    | [] => none
    | c :: inner =>
      if isEdgeChar c then
        match spanSkipping f isEdgeChar (inner.length + 1) (c :: inner) with
        | (name, '\x7d' :: rest) =>
          (wordEdge? f.alphabet (String.ofList name)).map fun place => (.look place, rest)
        | _ => none
      else some (.look (.wordEdge f.alphabet), '\x7b' :: rest)
  | text => some (.look (.wordEdge f.alphabet), text)

/-- Reads an escape from the text behind its backslash. -/
def escape? (f : Flags) : List Char → Option (Atom × List Char)
  | [] => none
  | 'x' :: rest => hexChar? f 2 rest
  | 'u' :: rest => hexChar? f 4 rest
  | 'U' :: rest => hexChar? f 8 rest
  | 'p' :: rest => namedSet? f false rest
  | 'P' :: rest => namedSet? f true rest
  | 'd' :: rest => shortSet? f false f.digit rest
  | 'D' :: rest => shortSet? f true f.digit rest
  | 's' :: rest => shortSet? f false f.blank rest
  | 'S' :: rest => shortSet? f true f.blank rest
  | 'w' :: rest => shortSet? f false f.word rest
  | 'W' :: rest => shortSet? f true f.word rest
  | 'a' :: rest => some (.char '\x07' false, rest)
  | 'f' :: rest => some (.char '\x0c' false, rest)
  | 't' :: rest => some (.char '\t' false, rest)
  | 'n' :: rest => some (.char '\n' false, rest)
  | 'r' :: rest => some (.char '\r' false, rest)
  | 'v' :: rest => some (.char '\x0b' false, rest)
  | 'A' :: rest => some (.look .textStart, rest)
  | 'z' :: rest => some (.look .textEnd, rest)
  | 'b' :: rest => edge? f rest
  | 'B' :: rest => some (.look (.noWordEdge f.alphabet), rest)
  | '<' :: rest => some (.look (.wordStart f.alphabet), rest)
  | '>' :: rest => some (.look (.wordEnd f.alphabet), rest)
  | c :: rest => if isEscapable c then some (.char c false, rest) else none

end Percolator.Pattern
