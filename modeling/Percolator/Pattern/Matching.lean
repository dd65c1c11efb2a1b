import Percolator.Pattern.Basic
import Percolator.Sorted

/-!
# Where an expression matches

Places in a text are counted in characters: place `i` is in front of the character with index `i`.
`Expr.ends text e places` lists the places where matches of `e` that begin at one of the `places`
can end. All lists of places are sorted and without repetitions, so that the work for an expression
grows with the length of the text and not with the number of its matches. Preference between
matches plays no part here; see `Percolator.Pattern.Search` for the match that is preferred.
-/

namespace Percolator.Pattern

/-- The character is a word character of the alphabet. -/
def Alphabet.isWord : Alphabet → Char → Bool
  | .ascii => CharSet.contains ⟨[⟨0x30, 0x39⟩, ⟨0x41, 0x5A⟩, ⟨0x5F, 0x5F⟩, ⟨0x61, 0x7A⟩]⟩
  | .unicode => Unicode.wordChars.contains

namespace Look

/-- The character in front of place `i` satisfies `p`. -/
def before (text : Array Char) (i : Nat) (p : Char → Bool) : Bool :=
  i != 0 && (text[i - 1]?).any p

/-- The character behind place `i` satisfies `p`. -/
def after (text : Array Char) (i : Nat) (p : Char → Bool) : Bool := (text[i]?).any p

/-- Place `i` meets the condition. -/
def holds (text : Array Char) (i : Nat) : Look → Bool
  | .textStart => i == 0
  | .textEnd => i == text.size
  | .lineStart => i == 0 || before text i (· == '\n')
  | .lineEnd => i == text.size || after text i (· == '\n')
  | .crlfLineStart =>
    i == 0 || before text i (· == '\n') ||
      (before text i (· == '\r') && !after text i (· == '\n'))
  | .crlfLineEnd =>
    i == text.size || after text i (· == '\r') ||
      (after text i (· == '\n') && !before text i (· == '\r'))
  | .wordEdge a => before text i a.isWord != after text i a.isWord
  | .noWordEdge a => before text i a.isWord == after text i a.isWord
  | .wordStart a => !before text i a.isWord && after text i a.isWord
  | .wordEnd a => before text i a.isWord && !after text i a.isWord
  | .wordStartHalf a => !before text i a.isWord
  | .wordEndHalf a => !after text i a.isWord

end Look

/-- The literal stands at place `i`. -/
def standsAt (text : Array Char) (i : Nat) : List Char → Bool
  | [] => i ≤ text.size
  | c :: rest => text[i]? == some c && standsAt text (i + 1) rest

/-- The places reached in exactly `n` steps. Steps that change nothing are not taken again. -/
def stepsExactly (step : List Nat → List Nat) : Nat → List Nat → List Nat
  | 0, places => places
  | n + 1, places =>
    let next := step places
    if next == places then places else stepsExactly step n next

/-- The places found, with those reached in at most `n` more steps from the `latest` of them. -/
def stepsUpTo (step : List Nat → List Nat) : Nat → List Nat → List Nat → List Nat
  | 0, found, _ => found
  | n + 1, found, latest =>
    let fresh := Sorted.diff (step latest) found
    if fresh.isEmpty then found else stepsUpTo step n (Sorted.union found fresh) fresh

namespace Expr

mutual

/-- The places where matches that begin at one of the places can end. -/
def ends (text : Array Char) (e : Expr) (places : List Nat) : List Nat :=
  match e with
  | .empty => places
  | .literal s => (places.filter fun i => standsAt text i s).map (· + s.length)
  | .oneOf _ set => (places.filter fun i => (text[i]?).any set.contains).map (· + 1)
  | .look place => places.filter fun i => place.holds text i
  | .repetition least most _ body =>
    let step := fun places => ends text body places
    let first := stepsExactly step least places
    let more := match most with
      | some most => most - least
      | none => text.size
    stepsUpTo step more first first
  | .group _ body => ends text body places
  | .concat parts => endsOfAll text parts places
  | .alternation choices => endsOfAny text choices places

/-- The places where matches of the sequence can end. -/
def endsOfAll (text : Array Char) (es : List Expr) (places : List Nat) : List Nat :=
  match es with
  | [] => places
  | e :: rest => endsOfAll text rest (ends text e places)

/-- The places where matches of one of the expressions can end. -/
def endsOfAny (text : Array Char) (es : List Expr) (places : List Nat) : List Nat :=
  match es with
  | [] => []
  | e :: rest => Sorted.union (ends text e places) (endsOfAny text rest places)

end

/-- The expression matches somewhere in the text. -/
def occursIn (e : Expr) (text : Array Char) : Bool :=
  !(ends text e (List.range (text.size + 1))).isEmpty

end Expr

end Percolator.Pattern
