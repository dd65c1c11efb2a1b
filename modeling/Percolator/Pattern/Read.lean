import Percolator.Pattern.Bracket

/-!
# Reading patterns

A pattern is read in steps, each of which takes one element from the text: a character, an escape,
a bracketed set, the beginning or the end of a group, a bar, or a repetition of the element before
it. What is read is kept in a `Level` for every open group, the innermost first. `Expr.read?`
gives the expression of a pattern, or `none` if the pattern is not valid.

Groups, sequences, alternations, repetitions and bracketed sets may be nested 250 deep.
-/

namespace Percolator.Pattern

/-- An element of a sequence. -/
structure Element where
  expr : Expr
  /-- How deep the element is nested. -/
  depth : Nat
  /-- The element only changes flags, so that it cannot be repeated. -/
  isDirective : Bool := false

/-- What was read of a group. -/
structure Level where
  flags : Flags
  /-- The number of the group, if it captures what it matches. -/
  number : Option Nat := none
  /-- The finished alternatives, the last one first, with their depths. -/
  finished : List (Expr × Nat) := []
  /-- The elements of the alternative that is being read, the last one first. -/
  elements : List Element := []

namespace Level

/-- Adds an element. -/
def add (l : Level) (e : Element) : Level := { l with elements := e :: l.elements }

/-- The alternative that is being read. -/
def branch (l : Level) : Expr × Nat :=
  (.seq (l.elements.reverse.map (·.expr)),
    match l.elements with
    | [] => 0
    | [e] => e.depth
    | elements => elements.foldl (fun d e => max d e.depth) 0 + 1)

/-- Ends the alternative that is being read. -/
def bar (l : Level) : Level := { l with finished := l.branch :: l.finished, elements := [] }

/-- The expression of everything that was read. -/
def body (l : Level) : Expr × Nat :=
  match l.finished with
  | [] => l.branch
  | finished =>
    let branches := (l.branch :: finished).reverse
    (.choice (branches.map (·.1)), branches.foldl (fun d b => max d b.2) 0 + 1)

/-- The group as an element. -/
def close (l : Level) : Element :=
  ⟨l.number.elim l.body.1 (.group · l.body.1), l.body.2 + 1, false⟩

/-- Repeats the last element. -/
def repeat? (l : Level) (least : Nat) (most : Option Nat) (lazy : Bool) : Option Level :=
  match l.elements with
  | e :: elements =>
    if e.isDirective then none
    else
      let body := e.expr.repeated least most (l.flags.swapGreed == lazy)
      some { l with elements := ⟨body, e.depth + 1, false⟩ :: elements }
  | [] => none

end Level

/-- The state of reading. -/
structure Reading where
  /-- The group that is being read. -/
  level : Level
  /-- The groups around it. -/
  outer : List Level := []
  /-- The number of groups so far that capture what they match. -/
  groups : Nat := 0
  /-- The names of groups so far. -/
  names : List (List Char) := []
  /-- The text that is left. -/
  rest : List Char

/-- Reads the name of a group up to its closing angle bracket. -/
def groupName? (text : List Char) : Option (List Char × List Char) :=
  let name := text.takeWhile (· != '>')
  match name, text.dropWhile (· != '>') with
  | c :: cs, '>' :: rest =>
    if (c = '_' || Unicode.recentAlphabetic.contains c) && cs.all follows then some (name, rest)
    else none
  | _, _ => none
where
  /-- The characters that may follow in a name. -/
  follows (c : Char) : Bool :=
    c ∈ ['_', '.', '[', ']'] || Unicode.recentAlphabetic.contains c ||
      Unicode.recentNumbers.contains c

/-- Reads flags up to a colon or a closing parenthesis, and returns that character too. `seen` holds
the flags before, `negating` tells that a hyphen stood before, and `dangling` that nothing stands
behind that hyphen. -/
def readFlags? (seen : List Flag) (negating dangling : Bool) (f : Flags) :
    List Char → Option (Flags × Char × List Char)
  | [] => none
  | c :: rest =>
    if c = ':' ∨ c = ')' then if dangling then none else some (f, c, rest)
    else if c = '-' then
      if negating then none else readFlags? seen true true f rest
    else
      match Flag.ofLetter? c with
      | some flag =>
        if flag ∈ seen then none
        else readFlags? (flag :: seen) negating false (f.set (!negating) flag) rest
      | none => none

/-- Reads a number with blanks around it. -/
def count? (f : Flags) (text : List Char) : Option Nat × List Char :=
  let text := text.dropWhile Unicode.isBlank
  let (digits, rest) := spanSkipping f Char.isDigit text.length text
  (if digits.isEmpty then none else some (Text.decimalValue digits),
    (spanSkipping f Unicode.isBlank rest.length rest).2)

/-- The largest count of a repetition. -/
def largestCount : Nat := 0xFFFFFFFF

/-- Reads a count of repetitions from the text behind its opening brace. -/
def counts? (f : Flags) (text : List Char) : Option (Nat × Option Nat × List Char) := do
  let (least?, rest) := count? f (f.skip text)
  let least ← least?
  if least > largestCount then none
  else match rest with
    | '\x7d' :: rest => some (least, some least, rest)
    | ',' :: rest =>
      match f.skip rest with
      | '\x7d' :: rest => some (least, none, rest)
      | rest =>
        match count? f rest with
        | (some most, '\x7d' :: rest) =>
          if most > largestCount ∨ most < least then none else some (least, some most, rest)
        | _ => none
    | _ => none

namespace Reading

/-- Reads on after adding an element. -/
def push (r : Reading) (e : Element) (rest : List Char) : Reading :=
  { r with level := r.level.add e, rest }

/-- Opens a group with its flags. -/
def openGroup (r : Reading) (flags : Flags) (rest : List Char) : Reading :=
  { r with level := { flags }, outer := r.level :: r.outer, rest }

/-- Opens a group that captures what it matches. -/
def openCapture (r : Reading) (rest : List Char) : Reading :=
  let opened := r.openGroup r.level.flags rest
  { opened with
    level := { opened.level with number := some r.groups }
    groups := r.groups + 1 }

/-- Opens a group with a name. -/
def openNamed? (r : Reading) (text : List Char) : Option Reading := do
  let (name, rest) ← groupName? text
  if name ∈ r.names then none
  else some { r.openCapture rest with names := name :: r.names }

/-- Reads the beginning of a group, or a directive that changes flags, from the text behind the
parenthesis. -/
def group? (r : Reading) (text : List Char) : Option Reading :=
  match text with
  | '?' :: '=' :: _ | '?' :: '!' :: _ | '?' :: '<' :: '=' :: _ | '?' :: '<' :: '!' :: _ => none
  | '?' :: 'P' :: '<' :: text | '?' :: '<' :: text => r.openNamed? text
  | '?' :: text =>
    match readFlags? [] false false r.level.flags text with
    | some (flags, ':', rest) => some (r.openGroup flags rest)
    | some (flags, _, rest) =>
      if text.head? = some ')' then none
      else
        let r := r.push ⟨.empty, 0, true⟩ rest
        some { r with level := { r.level with flags } }
    | none => none
  | text => some (r.openCapture text)

/-- Reads the end of a group. -/
def closeGroup? (r : Reading) (rest : List Char) : Option Reading :=
  match r.outer with
  | [] => none
  | level :: outer => some { r with level := level.add r.level.close, outer, rest }

/-- Reads a repetition; a question mark behind it makes it lazy. -/
def repetition? (r : Reading) (least : Nat) (most : Option Nat) (rest : List Char) :
    Option Reading := do
  let (lazy, rest) := match rest with
    | '?' :: rest => (true, rest)
    | rest => (false, rest)
  some { r with level := ← r.level.repeat? least most lazy, rest }

/-- Reads an element that stands for itself. -/
def atom? (r : Reading) (a : Atom) (rest : List Char) : Option Reading := do
  let e ← match a with
    | .char c byte => r.level.flags.ofChar? c byte
    | .set s => some (.ofSet r.level.flags.alphabet s)
    | .look place => some (.look place)
  some (r.push ⟨e, 0, false⟩ rest)

/-- Reads one element that begins with `c`. -/
def step? (r : Reading) (c : Char) (rest : List Char) : Option Reading :=
  let f := r.level.flags
  match c with
  | '(' => r.group? (f.skip rest)
  | ')' => r.closeGroup? rest
  | '|' => some { r with level := r.level.bar, rest }
  | '[' => do
    let (s, rest) ← bracketed? f rest
    some (r.push ⟨.ofSet f.alphabet s.chars, s.depth, false⟩ rest)
  | '?' => r.repetition? 0 (some 1) rest
  | '*' => r.repetition? 0 none rest
  | '+' => r.repetition? 1 none rest
  | '\x7b' => do
    let (least, most, rest) ← counts? f rest
    r.repetition? least most (f.skip rest)
  | '\\' => do
    let (a, rest) ← escape? f rest
    r.atom? a rest
  | '.' => do
    let e ← f.dot?
    some (r.push ⟨e, 0, false⟩ rest)
  | '^' => r.atom? (.look f.caret) rest
  | '$' => r.atom? (.look f.dollar) rest
  | c => r.atom? (.char c false) rest

/-- Reads the whole text. -/
def run? (fuel : Nat) (r : Reading) : Option Reading :=
  match fuel, r.level.flags.skip r.rest with
  | _, [] => some r
  | fuel + 1, c :: rest => (r.step? c rest).bind (run? fuel)
  | 0, _ :: _ => none

end Reading

/-- How deep an expression may be nested. -/
def deepest : Nat := 250

/-- The expression of a pattern. -/
def Expr.read? (pattern : String) : Option Expr := do
  let text := pattern.toList
  let r ← Reading.run? text.length { level := { flags := {} }, rest := text }
  if r.outer.isEmpty && r.level.body.2 ≤ deepest then some r.level.body.1 else none

end Percolator.Pattern
