import Std.Data.TreeMap
import Percolator.Pattern.Basic
import Percolator.Unicode.Bytes

/-!
# The size of an expression

An expression is run by two automata over bytes: one reads a text forwards, the other backwards. A
state of an automaton takes 32 bytes, every arrow of a state that lists spans of bytes 8 more, and
every arrow of a branch 4 more. An automaton may take at most 10 MiB: `Expr.fits` decides whether
both automata of an expression do.

A draft goes through the states of an automaton in the order in which they are placed, and fails
as soon as they take too much. It does not keep the states: their number and the bytes of their
arrows are enough.
-/

namespace Percolator.Pattern

open Unicode (ByteSpan bytesOf)

/-- The way in which an automaton reads a text. -/
inductive Direction where
  | forward
  | backward
deriving DecidableEq, Repr

/-- What has been placed of an automaton. -/
structure Blueprint where
  /-- The number of states. -/
  states : Nat := 0
  /-- The bytes that the arrows of the states take. -/
  arrows : Nat := 0
deriving Repr

/-- The bytes that the states and their arrows take. -/
def Blueprint.size (b : Blueprint) : Nat := 32 * b.states + b.arrows

/-- The bytes that an automaton may take. -/
def largestAutomaton : Nat := 10 * 1024 * 1024

/-- A part of the way through the states of an automaton; it fails where they take too much. -/
abbrev Draft := StateT Blueprint Option

/-- What the last state of a part of an automaton is: only a branch lists the arrow that leads
on from it. -/
inductive Exit where
  | plain
  | branch
deriving DecidableEq, Repr

namespace Draft

/-- Goes on with a blueprint that is not too large. -/
def grow {α : Type} (b : Blueprint) (a : α) : Option (α × Blueprint) :=
  if b.size ≤ largestAutomaton then some (a, b) else none

/-- Places a state whose arrows take some bytes. The result is the number of the state. -/
def state (bytes : Nat) : Draft Nat := fun b =>
  grow ⟨b.states + 1, b.arrows + bytes⟩ b.states

/-- Adds arrows to branches. -/
def branchArrows (count : Nat) : Draft Unit := fun b => grow ⟨b.states, b.arrows + 4 * count⟩ ()

/-- Leads on from the last state of a part. -/
def leave : Exit → Draft Unit
  | .plain => pure ()
  | .branch => branchArrows 1

/-- Parts one after the other, of which the one before ended with a state of the given kind. -/
def follow (exit : Exit) : List (Draft Exit) → Draft Exit
  | [] => pure exit
  | part :: rest => do
    let next ← part
    leave exit
    follow next rest

/-- A part `n` more times, after one that ended with a state of the given kind. -/
def again (part : Draft Exit) (exit : Exit) : Nat → Draft Exit
  | 0 => pure exit
  | n + 1 => do
    let next ← part
    leave exit
    again part next n

/-- A state that leads on without a byte. -/
def idle : Draft Exit := do
  let _ ← state 0
  return .plain

/-- Parts one after the other. -/
def all : List (Draft Exit) → Draft Exit
  | [] => idle
  | part :: rest => do follow (← part) rest

/-- A part `n` times. -/
def times (part : Draft Exit) : Nat → Draft Exit
  | 0 => idle
  | n + 1 => do again part (← part) n

/-- A part that may be left out. -/
def optional (part : Draft Exit) : Draft Exit := do
  let _ ← state 0
  let exit ← part
  let _ ← state 0
  branchArrows 2
  leave exit
  return .plain

/-- A part any number of times. Where it may match the empty text, the part stands in front of the
branch that leads back to it, and a further branch leads past both. -/
def star (consumes : Bool) (part : Draft Exit) : Draft Exit := do
  if consumes then
    let _ ← state 0
    let exit ← part
    branchArrows 1
    leave exit
    return .branch
  else
    let exit ← part
    let _ ← state 0
    leave exit
    branchArrows 1
    let _ ← state 0
    let _ ← state 0
    branchArrows 3
    return .plain

/-- A part `n + 1` times or more. -/
def atLeast (part : Draft Exit) : Nat → Draft Exit
  | 0 => do
    let exit ← part
    let _ ← state 0
    leave exit
    branchArrows 1
    return .branch
  | n + 1 => do
    let before ← times part (n + 1)
    let exit ← part
    let _ ← state 0
    leave before
    leave exit
    branchArrows 1
    return .branch

/-- A part up to `n` times, each behind a branch that leads past all the rest. -/
def upTo (part : Draft Exit) (exit : Exit) : Nat → Draft Exit
  | 0 => do
    leave exit
    return .plain
  | n + 1 => do
    let _ ← state 0
    let next ← part
    leave exit
    branchArrows 2
    upTo part next n

/-- A part at least `least` and at most `most` times. -/
def between (least most : Nat) (part : Draft Exit) : Draft Exit := do
  if least = most then times part least
  else
    let exit ← times part least
    let _ ← state 0
    upTo part exit (most - least)

/-- The choices behind the first two, each with an arrow to it from the branch. -/
def others : List (Draft Exit) → Draft Exit
  | [] => return .plain
  | part :: rest => do
    let exit ← part
    branchArrows 1
    leave exit
    others rest

/-- One of several parts. -/
def choice : List (Draft Exit) → Draft Exit
  | [] => idle
  | [part] => part
  | first :: second :: rest => do
    let one ← first
    let two ← second
    let _ ← state 0
    let _ ← state 0
    branchArrows 2
    leave one
    leave two
    others rest

/-- A text, byte by byte. -/
def text (s : List Char) : Draft Exit := all ((s.flatMap bytesOf).map fun _ => idle)

/-- A byte of some spans. -/
def spans (count : Nat) : Draft Exit := do
  let _ ← state 0
  let _ ← state (8 * count)
  return .plain

end Draft

/-! ## Sets of characters -/

/-- The states of a set that later ones may share. A state with the same key as one before is that
one, unless another state has taken its slot since. -/
structure Shared where
  /-- The number of slots. -/
  slots : Nat
  /-- For every slot, the key of the last state in it, and its number. -/
  taken : Std.TreeMap Nat (List Nat × Nat) := {}

namespace Shared

/-- The slot of a key. -/
def slot (s : Shared) (key : List Nat) : Nat :=
  (key.foldl (fun h n => (h ^^^ n.toUInt64) * 1099511628211) (14695981039346656037 : UInt64)).toNat
    % s.slots

end Shared

/-- The part of a draft in which states are shared. -/
abbrev SharedDraft := StateT Shared Draft

namespace SharedDraft

/-- The state with a key, which is placed only if it is not there to be shared. -/
def state (key : List Nat) (bytes : Nat) : SharedDraft Nat := do
  let shared ← get
  let slot := shared.slot key
  match shared.taken[slot]? with
  | some (k, n) => if k = key then return n else place slot
  | none => place slot
where
  /-- Places the state and puts it into its slot. -/
  place (slot : Nat) : SharedDraft Nat := do
    let n ← Draft.state bytes
    modify fun shared => { shared with taken := shared.taken.insert slot (key, n) }
    return n

/-- The state from which sequences lead to the state `target`. Sequences with the same first span
share the arrow for it. `depth` bounds the length of the sequences. -/
def forward (target : Nat) : Nat → List (List ByteSpan) → SharedDraft Nat
  | 0, _ => return target
  | depth + 1, sequences => do
    let groups := sequences.splitBy fun s t => s.head? = t.head?
    let arrows ← groups.mapM fun group => do
      match group with
      | (span :: rest) :: _ =>
        let next ← if rest.isEmpty then pure target else forward target depth (group.map List.tail)
        return [span.first, span.last, next]
      | _ => return []
    state arrows.flatten (8 * arrows.length)

/-- The state that leads to the state `target` by a sequence that is read backwards. -/
def backward (target : Nat) : List ByteSpan → SharedDraft Nat
  | [] => return target
  | span :: rest => do backward (← state [target, span.first, span.last] 0) rest

end SharedDraft

namespace Draft

/-- A character of a set, read forwards. -/
def setForward (s : CharSet) : Draft Exit := do
  let target ← state 0
  let _ ← (SharedDraft.forward target 4 s.byteSequences).run { slots := 10000 }
  return .plain

/-- A character of a set, read backwards: a branch leads to the states for the last bytes. -/
def setBackward (s : CharSet) : Draft Exit := do
  let _ ← state 0
  let target ← state 0
  let _ ← (s.byteSequences.forM fun sequence => do
    let _ ← SharedDraft.backward target sequence
    branchArrows 1 : SharedDraft Unit).run { slots := 1000 }
  return .plain

/-- A character of a set. -/
def set (d : Direction) (alphabet : Alphabet) (s : CharSet) : Draft Exit :=
  if alphabet = .ascii ∨ s.isAscii then spans s.ranges.length
  else
    match d with
    | .forward => setForward s
    | .backward => setBackward s

end Draft

/-! ## Choices of texts -/

/-- The runs of texts between those that have ended. Of several texts that have ended in front of
all others only one counts. -/
def pieces (texts : List (List Nat)) : List (List (List Nat)) :=
  let behind := texts.dropWhile List.isEmpty
  let split := behind.splitOnP List.isEmpty
  if behind.length < texts.length then [] :: split else split

/-- For each first byte of the texts, in the order in which they appear, what is behind it. -/
def tailsByHead (texts : List (List Nat)) : List (List (List Nat)) :=
  (texts.filterMap List.head?).eraseDups.map fun b =>
    texts.filterMap fun t => if t.head? = some b then some t.tail else none

namespace Draft

/-- The states of a choice of texts. The texts of a run share the states of what they have in common
at their front, and a branch leads to the runs one after the other and to the end of the choice
for each text that has ended. `depth` bounds the length of the texts. -/
def texts : Nat → List (List Nat) → Draft Unit
  | 0, _ => pure ()
  | depth + 1, ts => do
    let parts := (pieces ts).map tailsByHead
    for tails in parts do
      for tail in tails do
        if tail.any (!·.isEmpty) then texts depth tail
      if !tails.isEmpty then
        let _ ← state (if tails.length = 1 then 0 else 8 * tails.length)
    let _ ← state 0
    branchArrows (parts.length - 1 + (parts.filter (!·.isEmpty)).length)

/-- A choice of texts. -/
def choiceOfTexts (d : Direction) (choices : List (List Char)) : Draft Exit := do
  let bytes := choices.map fun s =>
    if d = .forward then s.flatMap bytesOf else (s.flatMap bytesOf).reverse
  let _ ← state 0
  texts ((bytes.map List.length).foldl max 0 + 1) bytes
  return .plain

end Draft

namespace Expr

/-- The text of an expression that matches one text only. -/
def text? : Expr → Option (List Char)
  | .literal text => some text
  | _ => none

mutual

/-- The part of an automaton for an expression. Only forwards it notes what groups capture. -/
def draft (d : Direction) : Expr → Draft Exit
  | .empty => Draft.idle
  | .literal text => Draft.text text
  | .oneOf alphabet set => Draft.set d alphabet set
  | .look _ => Draft.idle
  | .repetition 0 (some 1) _ body => Draft.optional (draft d body)
  | .repetition 0 none _ body => Draft.star body.consumes (draft d body)
  | .repetition (n + 1) none _ body => Draft.atLeast (draft d body) n
  | .repetition least (some most) _ body => Draft.between least most (draft d body)
  | .group _ body =>
    match d with
    | .forward => Draft.all [Draft.idle, draft d body, Draft.idle]
    | .backward => draft d body
  | .concat parts => Draft.all (if d = .forward then drafts d parts else (drafts d parts).reverse)
  | .alternation choices =>
    match choices.mapM text? with
    | some texts => Draft.choiceOfTexts d texts
    | none => Draft.choice (drafts d choices)

/-- The parts of an automaton for several expressions. -/
def drafts (d : Direction) : List Expr → List (Draft Exit)
  | [] => []
  | e :: rest => draft d e :: drafts d rest

end

mutual

/-- Every match begins, or for an automaton that reads backwards ends, where the text does. -/
def isTied (d : Direction) : Expr → Bool
  | .look place => place = match d with
    | .forward => .textStart
    | .backward => .textEnd
  | .repetition least _ _ body => least != 0 && isTied d body
  | .group _ body => isTied d body
  | .concat parts => someTied d parts
  | .alternation choices => allTied d choices
  | _ => false

/-- Some expression of a sequence is tied, with nothing in front of it but widthless ones. -/
def someTied (d : Direction) : List Expr → Bool
  | [] => false
  | e :: rest =>
    match d with
    | .forward => isTied d e || (e.isWidthless && someTied d rest)
    | .backward => someTied d rest || (allWidthless rest && isTied d e)

/-- Every expression of the list is tied. -/
def allTied (d : Direction) : List Expr → Bool
  | [] => true
  | e :: rest => isTied d e && allTied d rest

end

/-- The automaton of an expression: what is in front of a match, the match, and its end. -/
def automaton (d : Direction) (e : Expr) : Draft Unit := do
  let front ← if e.isTied d then Draft.idle else Draft.star true (Draft.spans 1)
  let exit ← (Expr.group 0 e).draft d
  let _ ← Draft.state 0
  Draft.leave exit
  Draft.leave front

/-- The automata of the expression are not too large. -/
def fits (e : Expr) : Bool :=
  ((e.automaton .forward).run {}).isSome && ((e.automaton .backward).run {}).isSome

end Expr

end Percolator.Pattern
