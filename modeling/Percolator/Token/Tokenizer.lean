import Percolator.Error
import Percolator.Pattern.Blueprint
import Percolator.Pattern.Read
import Percolator.Pattern.Search
import Percolator.Token.Basic

/-!
# Tokenizers

A tokenizer cuts a text into tokens with a pattern: either the matches of the pattern become
tokens, or the pieces of text between them. Tokens have the positions `0`, `1`, `2`, … and the
offsets of their pieces in the text.
-/

namespace Percolator

open Pattern (Expr)

/-- A pattern with the way in which it cuts texts. -/
structure Tokenizer where
  /-- The pattern as it was written. -/
  pattern : String
  expr : Expr
  /-- The text between matches is cut out, not the matches. -/
  gaps : Bool := false

namespace Tokenizer

/-- What a tokenizer calls itself. -/
def name : String := "regex"

/-- The tokenizer that cuts out words. -/
def words : Tokenizer where
  pattern := "\\w+"
  expr := .repetition 1 none true (.oneOf .unicode Unicode.wordChars)

/-- The tokenizer of a pattern, unless it is too large. -/
def ofPattern (pattern : String) (gaps : Bool) : Except Error Tokenizer :=
  match (Expr.read? pattern).filter (·.fits) with
  | some expr => .ok ⟨pattern, expr, gaps⟩
  | none => .error .invalidTokenPattern

/-- The pieces between matches that are not empty, from place `last` on up to place `size`. -/
def piecesBetween (size last : Nat) : List (Nat × Nat) → List (Nat × Nat)
  | [] => if last < size then [(last, size)] else []
  | (i, j) :: rest =>
    if last < i then (last, i) :: piecesBetween size j rest else piecesBetween size j rest

/-- The pieces that are cut out of a text, each with its first place and its last. -/
def pieces (t : Tokenizer) (text : Array Char) : List (Nat × Nat) :=
  if t.gaps then piecesBetween text.size 0 (t.expr.findAll text) else t.expr.findAll text

/-- The tokens of pieces that stand in a text from left to right. The place `place`, in front of the
first piece, has the offset `offset`, and the first token gets the position `position`. -/
def tokensOf (text : Array Char) (position place offset : Nat) : List (Nat × Nat) → List Token
  | [] => []
  | (i, j) :: rest =>
    let piece := String.ofList (text.extract i j).toList
    let startOffset := offset + (String.ofList (text.extract place i).toList).utf8ByteSize
    let endOffset := startOffset + piece.utf8ByteSize
    { text := piece, position, startOffset, endOffset } ::
      tokensOf text (position + 1) j endOffset rest

/-- The tokens of a text. -/
def tokens (t : Tokenizer) (text : String) : List Token :=
  let chars := text.toList.toArray
  tokensOf chars 0 0 0 (t.pieces chars)

end Tokenizer

end Percolator
