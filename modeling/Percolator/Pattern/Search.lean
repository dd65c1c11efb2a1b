import Percolator.Pattern.Matching

/-!
# Searching a text

`Expr.findAll` lists the matches of an expression in a text from left to right. Of the matches that
begin at the same place the preferred one is taken: an earlier choice before a later one, and more
or fewer repetitions as the repetition says.

A search runs a program, whose steps take one character each, check a place, or branch. It keeps
threads, the preferred one first: a thread is at a step of the program and knows where its match
begins. All threads take the same character of the text at the same time, and of threads at the
same step only the first is kept, so that the text is read once for each match.
-/

namespace Percolator.Pattern

/-- A step of a program. Steps are numbered, and lead on to the numbers of others. -/
inductive Step where
  /-- Takes the character. -/
  | char (c : Char) (next : Nat)
  /-- Takes a character of the set. -/
  | oneOf (set : CharSet) (next : Nat)
  /-- Goes on if the place meets the condition. -/
  | look (place : Look) (next : Nat)
  /-- Goes on in two ways, the first preferred. -/
  | branch (first second : Nat)
  /-- Ends a match. -/
  | done
deriving Repr, Inhabited

/-- A program under construction. Its end is built first, so that every step knows what follows. -/
abbrev Code := Array Step

namespace Code

/-- Adds a step and returns its number. -/
def add (code : Code) (step : Step) : Nat × Code := (code.size, code.push step)

/-- Adds a branch into a body or past it. The body is preferred if `greedy`. -/
def option (code : Code) (greedy : Bool) (body past : Nat) : Nat × Code :=
  code.add (if greedy then .branch body past else .branch past body)

/-- Adds the steps that take a text. -/
def text (s : List Char) (next : Nat) (code : Code) : Nat × Code :=
  s.foldr (fun c (next, code) => code.add (.char c next)) (next, code)

/-- Adds a body `n` times, one in front of the other. -/
def times (body : Nat → Code → Nat × Code) : Nat → Nat → Code → Nat × Code
  | 0, next, code => (next, code)
  | n + 1, next, code =>
    let (next, code) := body next code
    times body n next code

/-- Adds a body up to `n` times, one in front of the other, each behind a branch that leads past all
of them. -/
def upTo (greedy : Bool) (body : Nat → Code → Nat × Code) (past : Nat) :
    Nat → Nat → Code → Nat × Code
  | 0, next, code => (next, code)
  | n + 1, next, code =>
    let (first, code) := body next code
    let (next, code) := code.option greedy first past
    upTo greedy body past n next code

/-- Adds a branch back to a body behind it. The result is the number of the branch, the number of
the first step of the body, and the program. -/
def loop (greedy : Bool) (body : Nat → Code → Nat × Code) (past : Nat) (code : Code) :
    Nat × Nat × Code :=
  let (back, code) := code.option greedy past past
  let (first, code) := body back code
  let step := if greedy then Step.branch first past else .branch past first
  (back, first, code.setIfInBounds back step)

end Code

namespace Expr

mutual

/-- Adds the steps of an expression in front of the step `next`. -/
def assemble (e : Expr) (next : Nat) (code : Code) : Nat × Code :=
  match e with
  | .empty => (next, code)
  | .literal s => Code.text s next code
  | .oneOf _ set => code.add (.oneOf set next)
  | .look place => code.add (.look place next)
  | .group _ body => assemble body next code
  | .concat parts => assembleAll parts next code
  | .alternation choices => assembleAny choices next code
  | .repetition least most greedy body =>
    match least, most with
    | least, some most =>
      let (next, code) := Code.upTo greedy (assemble body) next (most - least) next code
      Code.times (assemble body) least next code
    | 0, none =>
      let (back, first, code) := Code.loop greedy (assemble body) next code
      if body.consumes then (back, code) else code.option greedy first next
    | least + 1, none =>
      let (_, first, code) := Code.loop greedy (assemble body) next code
      Code.times (assemble body) least first code

/-- Adds the steps of expressions that stand one after the other. -/
def assembleAll (es : List Expr) (next : Nat) (code : Code) : Nat × Code :=
  match es with
  | [] => (next, code)
  | e :: rest =>
    let (next, code) := assembleAll rest next code
    assemble e next code

/-- Adds the steps of expressions of which an earlier one is preferred. -/
def assembleAny (es : List Expr) (next : Nat) (code : Code) : Nat × Code :=
  match es with
  | [] => code.add (.oneOf .empty next)
  | [e] => assemble e next code
  | e :: rest =>
    let (others, code) := assembleAny rest next code
    let (first, code) := assemble e next code
    code.add (.branch first others)

end

end Expr

/-- A program with the number of its first step. -/
structure Program where
  first : Nat
  code : Code

/-- The program of an expression. -/
def Expr.program (e : Expr) : Program :=
  let (first, code) := e.assemble 0 #[.done]
  ⟨first, code⟩

/-- A way of matching that is under way. -/
structure Thread where
  /-- The number of the step that comes next. -/
  step : Nat
  /-- The place where the match begins. -/
  start : Nat
deriving Repr, Inhabited

/-- What the threads at a place come to. -/
structure Settled where
  /-- The threads that wait for a character, the least preferred one first. -/
  waiting : List Thread
  /-- Where the match begins that the thread behind them has ended. -/
  ended : Option Nat
  /-- For every step, the number behind the last place at which a thread came to it. -/
  visits : Array Nat

namespace Program

/-- Runs the threads at place `i` up to the steps that take a character. Threads that come to a step
where another one has been are dropped, and so are those behind a thread that ends a match. Fuel
is a bound on the number of threads that come up. -/
def settle (p : Program) (text : Array Char) (i fuel : Nat) (visits : Array Nat)
    (waiting threads : List Thread) : Settled :=
  match fuel, threads with
  | fuel + 1, t :: threads =>
    if visits[t.step]? == some (i + 1) then p.settle text i fuel visits waiting threads
    else
      let visits := visits.setIfInBounds t.step (i + 1)
      match p.code[t.step]? with
      | some (.look place next) =>
        if place.holds text i then
          p.settle text i fuel visits waiting ({ t with step := next } :: threads)
        else p.settle text i fuel visits waiting threads
      | some (.branch first second) =>
        p.settle text i fuel visits waiting
          ({ t with step := first } :: { t with step := second } :: threads)
      | some .done => ⟨waiting, some t.start, visits⟩
      | some _ => p.settle text i fuel visits (t :: waiting) threads
      | none => p.settle text i fuel visits waiting threads
  | _, _ => ⟨waiting, none, visits⟩

/-- The thread behind the character `c`. -/
def take? (p : Program) (c : Char) (t : Thread) : Option Thread :=
  match p.code[t.step]? with
  | some (.char d next) => if c == d then some { t with step := next } else none
  | some (.oneOf set next) => if set.contains c then some { t with step := next } else none
  | _ => none

/-- Follows the threads from place `i` over at most `n` characters. At every place a new thread is
begun, unless a match was found. The result is the preferred match, or `best` if no thread comes
to one. -/
def follow (p : Program) (text : Array Char) (n i : Nat) (visits : Array Nat)
    (threads : List Thread) (best : Option (Nat × Nat)) : Option (Nat × Nat) :=
  let threads := if best.isNone then threads ++ [⟨p.first, i⟩] else threads
  let fuel := threads.length + 2 * p.code.size
  let settled := p.settle text i fuel visits [] threads
  let best := (settled.ended.map fun start => (start, i)).or best
  match n, text[i]? with
  | n + 1, some c =>
    let threads := settled.waiting.reverse.filterMap (p.take? c)
    if threads.isEmpty && best.isSome then best
    else p.follow text n (i + 1) settled.visits threads best
  | _, _ => best

/-- The first match that begins at place `i` or behind it, with its first place and its last. -/
def findFrom? (p : Program) (text : Array Char) (i : Nat) : Option (Nat × Nat) :=
  if i ≤ text.size then p.follow text (text.size - i) i (.replicate p.code.size 0) [] none
  else none

/-- The next match from place `i` on. An empty match is not taken where the match before ended. -/
def findNext? (p : Program) (text : Array Char) (i : Nat) (lastEnd : Option Nat) :
    Option (Nat × Nat) :=
  match p.findFrom? text i with
  | some (k, j) => if k = j ∧ lastEnd = some j then p.findFrom? text (i + 1) else some (k, j)
  | none => none

/-- At most `n` matches from place `i` on. -/
def findUpTo (p : Program) (text : Array Char) (n i : Nat) (lastEnd : Option Nat) :
    List (Nat × Nat) :=
  match n with
  | 0 => []
  | n + 1 =>
    match p.findNext? text i lastEnd with
    | some (k, j) => (k, j) :: p.findUpTo text n j (some j)
    | none => []

end Program

/-- All matches from left to right, each with its first place and its last. -/
def Expr.findAll (e : Expr) (text : Array Char) : List (Nat × Nat) :=
  e.program.findUpTo text (text.size + 1) 0 none

end Percolator.Pattern
