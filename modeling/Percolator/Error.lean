/-!
# Errors

An error is a cause: what went wrong and what it went wrong with. Every cause is of a kind, and the
message of an error is the label of its kind followed by its explanation. Errors of user-defined
queries, and those a caller reports, bring kind and explanation with them. Two kinds are fatal: an
error of such a kind ends a whole run, any other error concerns one query only.

A computation may also die without an error: a number that leaves its range does that, and so may a
user-defined query.
-/

namespace Percolator

/-- The kinds of errors. -/
inductive ErrorKind where
  | io
  | analysis
  | query
  | presearch
  | index
  | verification
  | invalidConfig
  | interrupted
  | json
  | other
deriving DecidableEq, Repr, Inhabited

namespace ErrorKind

/-- What the messages of a kind begin with. -/
def label : ErrorKind → String
  | .io => "I/O error: "
  | .analysis => "Analysis error: "
  | .query => "Query error: "
  | .presearch => "Presearcher error: "
  | .index => "Index error: "
  | .verification => "Match error: "
  | .invalidConfig => "Invalid configuration: "
  | .interrupted => "Interrupted during match: "
  | .json => "JSON error: "
  | .other => "Anyhow error: "

/-- An error of the kind ends a whole run. -/
def isFatal : ErrorKind → Bool
  | .interrupted => true
  | .invalidConfig => true
  | _ => false

end ErrorKind

/-- The causes of errors. -/
inductive Error where
  | emptyDocumentId
  | invalidTokenPattern
  | invalidRegexp
  | invalidGlob
  | cannotExtract (builder description : String)
  | emptyQueryId
  | unsupportedSelection (description : String)
  | noGramLength
  | emptyAnyToken
  | emptyWildcardSuffix
  | noThreads
  | noQueue
  | noPackageSize
  | workerDied (worker : Nat)
  | packageDied (package : Nat)
  | workersGone
  | malformedJson
  /-- An error from outside the library. -/
  | foreign (kind : ErrorKind) (explanation : String)
deriving DecidableEq, Repr, Inhabited

namespace Error

/-- The kind of an error. -/
def kind : Error → ErrorKind
  | .emptyDocumentId => .analysis
  | .invalidTokenPattern => .analysis
  | .invalidRegexp => .query
  | .invalidGlob => .query
  | .cannotExtract _ _ => .presearch
  | .emptyQueryId => .index
  | .unsupportedSelection _ => .index
  | .noGramLength => .invalidConfig
  | .emptyAnyToken => .invalidConfig
  | .emptyWildcardSuffix => .invalidConfig
  | .noThreads => .invalidConfig
  | .noQueue => .invalidConfig
  | .noPackageSize => .invalidConfig
  | .workerDied _ => .interrupted
  | .packageDied _ => .interrupted
  | .workersGone => .interrupted
  | .malformedJson => .json
  | .foreign kind _ => kind

/-- What went wrong, in words. -/
def explanation : Error → String
  | .emptyDocumentId => "document id must not be empty"
  | .invalidTokenPattern => "Invalid regex pattern"
  | .invalidRegexp => "Invalid regexp pattern"
  | .invalidGlob => "Invalid wildcard pattern"
  | .cannotExtract builder description => s!"{builder} cannot build a tree for {description}"
  | .emptyQueryId => "query id must not be empty"
  | .unsupportedSelection description => s!"unsupported selection query: {description}"
  | .noGramLength => "max_ngram_length must be greater than zero"
  | .emptyAnyToken => "any_token_field and any_token must not be empty"
  | .emptyWildcardSuffix => "wildcard_field_suffix must not be empty"
  | .noThreads => "Number of threads must be greater than 0"
  | .noQueue => "Queue capacity must be greater than 0"
  | .noPackageSize => "Package size must be greater than 0"
  | .workerDied worker => s!"matcher worker {worker} panicked"
  | .packageDied package => s!"package {package} panicked"
  | .workersGone => "all matcher workers have exited"
  | .malformedJson => "malformed text"
  | .foreign _ explanation => explanation

/-- The message of an error. -/
def message (e : Error) : String := e.kind.label ++ e.explanation

/-- The error ends a whole run. -/
def isFatal (e : Error) : Bool := e.kind.isFatal

end Error

/-- What keeps a computation from having a result. -/
inductive Fault where
  | error (e : Error)
  /-- The computation died without an error of its own. -/
  | crash
deriving DecidableEq, Repr

namespace Fault

/-- The fault ends a whole run. -/
def isFatal : Fault → Bool
  | .error e => e.isFatal
  | .crash => true

/-- The error that is reported for the fault, where `died` stands for a crash. -/
def toError (died : Error) : Fault → Error
  | .error e => e
  | .crash => died

theorem isFatal_toError {died : Error} {fault : Fault} (h : died.isFatal = true) :
    (fault.toError died).isFatal = fault.isFatal := by
  cases fault with
  | error e => rfl
  | crash => exact h

end Fault

end Percolator
