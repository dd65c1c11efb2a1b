import Percolator.Unicode.Property

/-!
# Recent characters

Categories, properties and scripts are those of edition 16.0 of the standard, by which patterns
go. The case of letters and the names of groups go by edition 17.0. The sets of this file are those
that they use: the sets of the earlier edition with the characters that have come in, and without
those that were assigned anew.
-/

namespace Percolator.Unicode

/-- Letters and the marks that belong to words. -/
def recentAlphabetic : CharSet :=
  alphabetic.chars.union (tableSet
    "88F C5C CDC A7CE-A7CF A7D2-A7D4/2 A7F1 10940-10959 10EC5-10EC7 10EFA-10EFB 11B60-11B67
    11DB0-11DDB 16EA0-16EB8 16EBB-16ED3 16FF2-16FF6 187F8-187FF 18D09-18D1E 18D80-18DF2
    1E6C0-1E6DE 1E6E0-1E6F5 1E6FE-1E6FF 2B73A-2B73F 2CEA2-2CEAD 323B0-33479")

/-- Digits and other characters for numbers. -/
def recentNumbers : CharSet :=
  (charsOf [.decimalNumber, .letterNumber, .otherNumber]).union
    (tableSet "11DE0-11DE9 16FF4-16FF6")

/-- Characters of a cased script. -/
def recentCased : CharSet :=
  (cased.chars.union (tableSet "A7CE-A7CF A7D2-A7D4/2 A7F1 16EA0-16EB8 16EBB-16ED3")).diff
    (tableSet "295")

/-- Characters that do not interrupt a cased word. -/
def recentCaseIgnorable : CharSet :=
  caseIgnorable.chars.union (tableSet
    "1ACF-1ADD 1AE0-1AEB A7F1 10EC5 10EFA-10EFB 11B60 11B62-11B66/2 11B63 11DD9 16FF2-16FF3
    1E6E3 1E6E6 1E6EE-1E6EF 1E6F5 1E6FF")

end Percolator.Unicode
