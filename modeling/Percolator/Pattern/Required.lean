import Percolator.Pattern.Basic
import Percolator.Text

/-!
# Text that every match contains

`Expr.required` computes a text that every match of an expression contains, and, for an expression
that matches one text only, that text. The longest of the texts found is kept, and of texts of
equal length the first.
-/

namespace Percolator.Pattern

/-- What is known about the matches of an expression. -/
structure Required where
  /-- The only text that the expression matches, if that is known. -/
  exact : Option (List Char)
  /-- A text that every match contains. -/
  longest : List Char
deriving DecidableEq, Repr

namespace Required

/-- Nothing is known. -/
def nothing : Required := ⟨none, []⟩

/-- The expression matches the text only. -/
def only (text : List Char) : Required := ⟨some text, text⟩

end Required

/-- What is known about a sequence, part by part. -/
structure RequiredRun where
  /-- Every part so far matches one text only. -/
  allExact : Bool := true
  /-- The longest text in front of the run. -/
  best : List Char := []
  /-- The text of the last parts, which all match one text only. -/
  run : List Char := []

namespace RequiredRun

/-- Adds a part to the sequence. -/
def add (r : RequiredRun) (part : Required) : RequiredRun :=
  match part.exact with
  | some text => { r with run := r.run ++ text }
  | none => ⟨false, Text.longer (Text.longer r.best r.run) part.longest, []⟩

/-- What is known about the sequence of all parts. -/
def finish (r : RequiredRun) : Required :=
  ⟨if r.allExact then some r.run else none, Text.longer r.best r.run⟩

end RequiredRun

namespace Expr

mutual

/-- What is known about the matches of an expression. -/
def required : Expr → Required
  | .empty => .only []
  | .look _ => .only []
  | .literal text => .only text
  | .oneOf _ _ => .nothing
  | .alternation _ => .nothing
  | .group _ body => required body
  | .repetition least most _ body =>
    if least = 0 then .nothing
    else if most = some 1 then required body
    else ⟨none, (required body).longest⟩
  | .concat parts => (requiredOfAll parts {}).finish

/-- What is known about a sequence whose first parts are summed up in `r`. -/
def requiredOfAll : List Expr → RequiredRun → RequiredRun
  | [], r => r
  | e :: rest, r => requiredOfAll rest (r.add (required e))

end

end Expr

end Percolator.Pattern
