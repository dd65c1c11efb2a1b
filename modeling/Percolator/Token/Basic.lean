/-!
# Tokens

A token is a piece of text with its place in a field: a position, counted in tokens, and the
offsets between which it stands, counted in bytes.
-/

namespace Percolator

/-- A piece of text with its place in a field. -/
structure Token where
  text : String
  position : Nat
  startOffset : Nat := 0
  endOffset : Nat := 0
  /-- The token is marked as removed. -/
  stopped : Bool := false
deriving DecidableEq, Repr, Inhabited

namespace Token

/-- The length of the text in bytes. -/
def byteLength (t : Token) : Nat := t.text.utf8ByteSize

/-- The text is empty. -/
def isEmpty (t : Token) : Bool := t.text.isEmpty

/-- The token, marked as removed. -/
def stop (t : Token) : Token := { t with stopped := true }

/-- The token with another text. -/
def withText (t : Token) (text : String) : Token := { t with text }

/-- The token at a later place. -/
def shift (t : Token) (positions offsets : Nat) : Token :=
  { t with
    position := t.position + positions
    startOffset := t.startOffset + offsets
    endOffset := t.endOffset + offsets }

end Token

end Percolator
