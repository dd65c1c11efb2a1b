import Percolator.Error

/-!
# Settings of the presearch
-/

namespace Percolator

/-- The names under which queries are indexed, and the limit on the texts inside tokens. -/
structure PresearchSettings where
  /-- The field of the key that every document has. -/
  anyField : String := "__anytokenfield"
  /-- The text of the key that every document has. -/
  anyText : String := "__ANYTOKEN__"
  /-- What is put behind the name of a field for the texts inside its tokens. -/
  partSuffix : String := "__wildcard"
  /-- The greatest number of characters of a text inside a token. -/
  maxPart : UInt64 := 30
deriving DecidableEq, Repr, Inhabited

namespace PresearchSettings

/-- The settings, unless they cannot be used. -/
def validate (s : PresearchSettings) : Except Error PresearchSettings :=
  if s.maxPart = 0 then .error .noGramLength
  else if s.anyField.isEmpty ∨ s.anyText.isEmpty then .error .emptyAnyToken
  else if s.partSuffix.isEmpty then .error .emptyWildcardSuffix
  else .ok s

end PresearchSettings

end Percolator
