import Percolator.Pattern.Escape

/-!
# Bracketed sets

A bracketed set lists characters, ranges, escapes, named ASCII classes and further bracketed sets.
The operators `&&`, `--` and `~~` stand between such lists and are applied from left to right. The
reader keeps the brackets that are open on a stack, the innermost first, and each step of it reads
one element.

Beside its characters, a set that was read has a depth: how deep brackets, lists and operators are
nested in it.
-/

namespace Percolator.Pattern

/-- The operators between lists of elements. -/
inductive SetOp where
  | inter
  | diff
  | symmDiff
deriving DecidableEq, Repr

/-- Applies an operator. -/
def SetOp.apply (op : SetOp) (s t : CharSet) : CharSet :=
  match op with
  | .inter => s.inter t
  | .diff => s.diff t
  | .symmDiff => s.symmDiff t

/-- Characters that were read, and how deep they were nested. -/
structure NestedSet where
  chars : CharSet
  depth : Nat

/-- A bracket that is open. -/
structure OpenBracket where
  negated : Bool
  /-- The operator that was read last, with its left operand. -/
  left : Option (SetOp × NestedSet) := none
  /-- The elements behind that operator, the last one first. -/
  elements : List NestedSet := []

namespace OpenBracket

/-- Adds an element. -/
def add (b : OpenBracket) (s : NestedSet) : OpenBracket := { b with elements := s :: b.elements }

/-- The elements behind the last operator as one set. -/
def listed (b : OpenBracket) : NestedSet :=
  ⟨.unions (b.elements.map (·.chars)),
    match b.elements with
    | [] => 0
    | [s] => s.depth
    | elements => elements.foldl (fun d s => max d s.depth) 0 + 1⟩

/-- The set of everything that was read, the last operator applied. -/
def value (f : Flags) (b : OpenBracket) : NestedSet :=
  match b.left with
  | none => b.listed
  | some (op, s) =>
    ⟨op.apply (f.fold s.chars) (f.fold b.listed.chars), max s.depth b.listed.depth + 1⟩

/-- Reads an operator. -/
def operate (f : Flags) (op : SetOp) (b : OpenBracket) : OpenBracket :=
  { b with left := some (op, b.value f), elements := [] }

/-- The set of the closed bracket. -/
def close? (f : Flags) (b : OpenBracket) : Option NestedSet :=
  (f.close? b.negated (b.value f).chars).map fun s => ⟨s, (b.value f).depth + 1⟩

end OpenBracket

/-- The named ASCII classes. -/
def asciiClass? (name : String) : Option CharSet :=
  match name with
  | "alnum" => some ⟨[⟨0x30, 0x39⟩, ⟨0x41, 0x5A⟩, ⟨0x61, 0x7A⟩]⟩
  | "alpha" => some ⟨[⟨0x41, 0x5A⟩, ⟨0x61, 0x7A⟩]⟩
  | "ascii" => some ⟨[⟨0x00, 0x7F⟩]⟩
  | "blank" => some ⟨[⟨0x09, 0x09⟩, ⟨0x20, 0x20⟩]⟩
  | "cntrl" => some ⟨[⟨0x00, 0x1F⟩, ⟨0x7F, 0x7F⟩]⟩
  | "digit" => some ⟨[⟨0x30, 0x39⟩]⟩
  | "graph" => some ⟨[⟨0x21, 0x7E⟩]⟩
  | "lower" => some ⟨[⟨0x61, 0x7A⟩]⟩
  | "print" => some ⟨[⟨0x20, 0x7E⟩]⟩
  | "punct" => some ⟨[⟨0x21, 0x2F⟩, ⟨0x3A, 0x40⟩, ⟨0x5B, 0x60⟩, ⟨0x7B, 0x7E⟩]⟩
  | "space" => some ⟨[⟨0x09, 0x0D⟩, ⟨0x20, 0x20⟩]⟩
  | "upper" => some ⟨[⟨0x41, 0x5A⟩]⟩
  | "word" => some Flags.asciiWord
  | "xdigit" => some ⟨[⟨0x30, 0x39⟩, ⟨0x41, 0x46⟩, ⟨0x61, 0x66⟩]⟩
  | _ => none

/-- Reads a named ASCII class from the text behind its bracket. The outer `none` means that the
bracket opens a set instead, the inner that the flags do not admit the class. -/
def namedClass? (f : Flags) : List Char → Option (Option CharSet × List Char)
  | ':' :: rest =>
    let (negated, rest) := match rest with
      | '^' :: rest => (true, rest)
      | rest => (false, rest)
    match rest.dropWhile (· != ':') with
    | ':' :: ']' :: behind =>
      (asciiClass? (String.ofList (rest.takeWhile (· != ':')))).map fun s =>
        (f.close? negated s, behind)
    | _ => none
  | _ => none

/-- Reads the front of a bracketed set: the caret, hyphens and a closing bracket that stand there
for themselves. -/
def openBracket? (f : Flags) (text : List Char) : Option (OpenBracket × List Char) :=
  match f.skip text with
  | [] => none
  | c :: rest =>
    let (negated, rest) := if c = '^' then (true, f.skip rest) else (false, c :: rest)
    match spanSkipping f (· == '-') rest.length rest with
    | (_, []) => none
    | ([], ']' :: rest) =>
      match f.skip rest with
      | [] => none
      | rest => some ({ negated, elements := [⟨.single ']', 0⟩] }, rest)
    | (hyphens, rest) => some ({ negated, elements := hyphens.map fun c => ⟨.single c, 0⟩ }, rest)

/-- Reads an element that is not a bracket. -/
def element? (f : Flags) : List Char → Option (Atom × List Char)
  | [] => none
  | '\\' :: rest => escape? f rest
  | c :: rest => some (.char c false, rest)

/-- The character behind the next one. Where blanks are skipped, it is the first that is neither a
blank nor a number sign. -/
def peekBehind (f : Flags) (text : List Char) : Option Char :=
  if f.spaced then findNext false (text.drop 1) else (text.drop 1).head?
where
  /-- The first character that is neither a blank nor the first number sign. -/
  findNext (sign : Bool) : List Char → Option Char
    | [] => none
    | c :: rest =>
      if Unicode.isBlank c then findNext sign rest
      else if c = '#' ∧ !sign then findNext true rest
      else some c

/-- The set of an element that stands alone. -/
def Atom.member? (f : Flags) : Atom → Option CharSet
  | .char c byte =>
    if !f.unicode && byte && c.toNat ≥ 0x80 then none else f.member? c
  | .set s => some s
  | .look _ => none

/-- The set of the characters between two elements. -/
def Atom.range? (f : Flags) : Atom → Atom → Option CharSet
  | .char c _, .char d _ =>
    if c ≤ d then f.admit? (.span c.toNat d.toNat) else none
  | _, _ => none

/-- Reads an element or a range. -/
def elementOrRange? (f : Flags) (text : List Char) : Option (CharSet × List Char) := do
  let (first, rest) ← element? f text
  match f.skip rest with
  | [] => none
  | '-' :: behind =>
    let rest := '-' :: behind
    if peekBehind f rest = some ']' ∨ peekBehind f rest = some '-' then
      some (← first.member? f, rest)
    else
      match f.skip behind with
      | [] => none
      | behind =>
        let (last, rest) ← element? f behind
        some (← first.range? f last, rest)
  | rest => some (← first.member? f, rest)

/-- Reads elements until the outermost bracket is closed. -/
def brackets? (f : Flags) (fuel : Nat) (stack : List OpenBracket) (text : List Char) :
    Option (NestedSet × List Char) :=
  match fuel, stack, f.skip text with
  | fuel + 1, b :: outer, c :: rest =>
    let next? := rest.head?
    if c = '[' then
      match namedClass? f rest with
      | some (s?, rest) => do
        brackets? f fuel (b.add ⟨← s?, 0⟩ :: outer) rest
      | none => do
        let (inner, rest) ← openBracket? f rest
        brackets? f fuel (inner :: b :: outer) rest
    else if c = ']' then do
      let s ← b.close? f
      match outer with
      | [] => some (s, rest)
      | parent :: outer => brackets? f fuel (parent.add s :: outer) rest
    else if c = '&' ∧ next? = some '&' then
      brackets? f fuel (b.operate f .inter :: outer) (rest.drop 1)
    else if c = '-' ∧ next? = some '-' then
      brackets? f fuel (b.operate f .diff :: outer) (rest.drop 1)
    else if c = '~' ∧ next? = some '~' then
      brackets? f fuel (b.operate f .symmDiff :: outer) (rest.drop 1)
    else do
      let (s, rest) ← elementOrRange? f (c :: rest)
      brackets? f fuel (b.add ⟨s, 0⟩ :: outer) rest
  | _, _, _ => none

/-- Reads a bracketed set from the text behind its opening bracket. -/
def bracketed? (f : Flags) (text : List Char) : Option (NestedSet × List Char) := do
  let (b, rest) ← openBracket? f text
  brackets? f (rest.length + 1) [b] rest

end Percolator.Pattern
