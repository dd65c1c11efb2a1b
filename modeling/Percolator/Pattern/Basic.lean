import Percolator.Unicode.Property

/-!
# Expressions over texts

A regular expression in the form that matching works on: escapes, classes and flags are resolved,
a class is a set of characters, and a flag such as *lazy* is a field of the node it concerns.

The builders `Expr.ofText`, `Expr.ofSet`, `Expr.repeated`, `Expr.seq` and `Expr.choice` keep
expressions in a simplified form: neighbouring texts of a sequence are one text, sequences and
alternations are flat, a set of one character is a text, alternatives that are single characters
or sets are one set, and what alternatives that are sequences have in common at their front stands
before the alternation. Two sets are the same there only if they were also written for the same
alphabet.
-/

namespace Percolator.Pattern

/-- The characters that a part of a pattern was written for. -/
inductive Alphabet where
  | ascii
  | unicode
deriving DecidableEq, Repr

/-- A condition on a place between two characters of a text. -/
inductive Look where
  | textStart
  | textEnd
  | lineStart
  | lineEnd
  | crlfLineStart
  | crlfLineEnd
  | wordEdge (alphabet : Alphabet)
  | noWordEdge (alphabet : Alphabet)
  | wordStart (alphabet : Alphabet)
  | wordEnd (alphabet : Alphabet)
  | wordStartHalf (alphabet : Alphabet)
  | wordEndHalf (alphabet : Alphabet)
deriving DecidableEq, Repr

/-- A regular expression. -/
inductive Expr where
  /-- The empty text. -/
  | empty
  /-- One text. -/
  | literal (text : List Char)
  /-- One character of a set, which was written for an alphabet. -/
  | oneOf (alphabet : Alphabet) (set : CharSet)
  /-- The empty text at a place that meets a condition. -/
  | look (place : Look)
  /-- At least `least` and at most `most` times the body; `greedy` prefers more times. -/
  | repetition (least : Nat) (most : Option Nat) (greedy : Bool) (body : Expr)
  /-- A capturing group; groups are numbered, so that no two of them are the same. -/
  | group (number : Nat) (body : Expr)
  /-- All parts, one after the other. -/
  | concat (parts : List Expr)
  /-- One of the choices, an earlier one preferred. -/
  | alternation (choices : List Expr)
deriving Repr, Inhabited

namespace Expr

mutual

/-- The expressions are the same. -/
def same : Expr → Expr → Bool
  | .empty, .empty => true
  | .literal s, .literal t => s == t
  | .oneOf a s, .oneOf b t => a == b && s == t
  | .look p, .look q => p == q
  | .repetition k m g e, .repetition l n h f => k == l && m == n && g == h && same e f
  | .group m e, .group n f => m == n && same e f
  | .concat es, .concat fs => sameEach es fs
  | .alternation es, .alternation fs => sameEach es fs
  | _, _ => false

/-- The expressions of two lists are the same one by one. -/
def sameEach : List Expr → List Expr → Bool
  | [], [] => true
  | e :: es, f :: fs => same e f && sameEach es fs
  | _, _ => false

end

mutual

theorem same_iff : (e f : Expr) → (e.same f = true ↔ e = f)
  | .empty, f => by cases f <;> simp [same]
  | .literal s, f => by cases f <;> simp [same]
  | .oneOf a s, f => by cases f <;> simp [same]
  | .look p, f => by cases f <;> simp [same]
  | .repetition k m g e, f => by cases f <;> simp [same, same_iff e, and_assoc]
  | .group n e, f => by cases f <;> simp [same, same_iff e]
  | .concat es, f => by cases f <;> simp [same, sameEach_iff es]
  | .alternation es, f => by cases f <;> simp [same, sameEach_iff es]

theorem sameEach_iff : (es fs : List Expr) → (sameEach es fs = true ↔ es = fs)
  | [], fs => by cases fs <;> simp [sameEach]
  | e :: es, fs => by cases fs <;> simp [sameEach, same_iff e, sameEach_iff es]

end

instance : DecidableEq Expr := fun e f => decidable_of_iff _ (same_iff e f)

/-- The expression that matches nothing. -/
def never : Expr := .oneOf .ascii .empty

/-- The expression of one text. -/
def ofText (text : List Char) : Expr := if text.isEmpty then .empty else .literal text

/-- The expression of one character of a set. -/
def ofSet (alphabet : Alphabet) (set : CharSet) : Expr :=
  match set.only? with
  | some c => .literal [c]
  | none => if set.isEmpty then never else .oneOf alphabet set

mutual

/-- Whatever the expression matches is the empty text. -/
def isWidthless : Expr → Bool
  | .empty => true
  | .literal text => text.isEmpty
  | .oneOf _ _ => false
  | .look _ => true
  | .repetition _ most _ body => most.isSome && body.isWidthless
  | .group _ body => body.isWidthless
  | .concat parts => allWidthless parts
  | .alternation choices => allWidthless choices

/-- Every expression of the list is widthless. -/
def allWidthless : List Expr → Bool
  | [] => true
  | e :: rest => e.isWidthless && allWidthless rest

end

mutual

/-- The length of the shortest text that the expression matches, if none of its parts is an empty
set. -/
def shortest? : Expr → Option Nat
  | .empty => some 0
  | .literal text => some text.length
  | .oneOf _ set => if set.isEmpty then none else some 1
  | .look _ => some 0
  | .repetition least _ _ body => (shortest? body).map (least * ·)
  | .group _ body => shortest? body
  | .concat parts => shortestOfAll? parts
  | .alternation choices => shortestOfAny? choices

/-- The sum of the shortest lengths of several expressions. -/
def shortestOfAll? : List Expr → Option Nat
  | [] => some 0
  | e :: rest => do some ((← shortest? e) + (← shortestOfAll? rest))

/-- The least of the shortest lengths of several expressions. -/
def shortestOfAny? : List Expr → Option Nat
  | [] => none
  | [e] => shortest? e
  | e :: rest => do some (min (← shortest? e) (← shortestOfAny? rest))

end

/-- Whatever the expression matches has at least one character. -/
def consumes (e : Expr) : Bool := e.shortest?.any (0 < ·)

/-- The body, repeated. A body that matches only the empty text is repeated at most once. -/
def repeated (least : Nat) (most : Option Nat) (greedy : Bool) (body : Expr) : Expr :=
  let (least, most) :=
    if body.isWidthless then (min least 1, some ((most.map (min · 1)).getD 1)) else (least, most)
  if least = 0 ∧ most = some 0 then .empty
  else if least = 1 ∧ most = some 1 then body
  else .repetition least most greedy body

/-- The parts of a sequence. -/
def parts : Expr → List Expr
  | .empty => []
  | .concat parts => parts
  | e => [e]

/-- Puts an expression before others; a text joins the text after it. -/
def glue : Expr → List Expr → List Expr
  | .literal text, .literal next :: rest => .literal (text ++ next) :: rest
  | e, rest => e :: rest

/-- The expressions, one after the other. -/
def seq (es : List Expr) : Expr :=
  match (es.flatMap parts).foldr glue [] with
  | [] => .empty
  | [e] => e
  | es => .concat es

/-- The choices of an alternation. -/
def choices : Expr → List Expr
  | .alternation choices => choices
  | e => [e]

/-- The character of a text of one character. -/
def char? : Expr → Option Char
  | .literal [c] => some c
  | _ => none

/-- The set of an expression for one character of a set. -/
def set? : Expr → Option CharSet
  | .oneOf _ set => some set
  | _ => none

/-- The parts of an expression that is a sequence. -/
def concat? : Expr → Option (List Expr)
  | .concat parts => some parts
  | _ => none

/-- The longest list that both lists start with. -/
def commonFront : List Expr → List Expr → List Expr
  | a :: as, b :: bs => if a == b then a :: commonFront as bs else []
  | _, _ => []

/-- What all the sequences have in common at their front, if that is not nothing. -/
def sharedFront? (es : List Expr) : Option (List Expr) :=
  match es.mapM concat? with
  | some (first :: second :: rest) =>
    let front := (second :: rest).foldl commonFront first
    if front.isEmpty then none else some front
  | _ => none

/-- One of the expressions, as one set where all are single characters or all are sets. -/
def flatChoice (es : List Expr) : Expr :=
  match es.flatMap choices with
  | [] => never
  | [e] => e
  | es =>
    match es.mapM char? with
    | some chars => ofSet .unicode (.unions (chars.map .single))
    | none =>
      match es.mapM set? with
      | some sets => ofSet .unicode (.unions sets)
      | none => .alternation es

/-- One of the expressions, an earlier one preferred. -/
def choice (es : List Expr) : Expr :=
  match sharedFront? (es.flatMap choices) with
  | some front =>
    let tails := (es.flatMap choices).map fun e => seq (e.parts.drop front.length)
    seq (front ++ [flatChoice tails])
  | none => flatChoice es

end Expr

end Percolator.Pattern
