import Percolator.Codec.Monitor
import Percolator.Codec.Presearch
import Percolator.Monitor.Basic
import Percolator.Presearch.Basic
import Percolator.Presearch.Index
import Percolator.Json.Reader
import Percolator.Json.Printer
import Percolator.Query.Evaluation
import Percolator.Verification.Package
import Percolator.Verification.Pool
import Percolator.Verification.Strategy
import Percolator.Proofs.Presearch.KeyIndex
import Percolator.Proofs.Presearch.KeyTree
import Percolator.Proofs.Pattern.Feasible
import Percolator.Proofs.Glob
import Percolator.Proofs.Presearch.Extraction
import Percolator.Proofs.Document
import Percolator.Proofs.Presearch.Parts
import Percolator.Proofs.Presearch.Search
import Percolator.Proofs.Presearch.Selection
import Percolator.Proofs.Monitor.Matching
import Percolator.Proofs.Monitor.Stopped
import Percolator.Proofs.Verification.Runs
import Percolator.Proofs.Verification.Session.Agreement
import Percolator.Proofs.Verification.Strategy
import Percolator.Proofs.Verification.Session.Pooled
import Percolator.Proofs.Verification.Session.Delivery
import Percolator.Proofs.Verification.Packages
import Percolator.Monitor.Call
import Percolator.Proofs.Monitor.Registry
import Percolator.Proofs.Pattern.Language
import Percolator.Proofs.Verification.Session.Series
import Percolator.Proofs.Verification.Wrapping
import Percolator.Proofs.Document.Layout
import Percolator.Proofs.Interval.Parts
import Percolator.Proofs.Query.Phrase
import Percolator.Proofs.Interval.Covered
import Percolator.Proofs.Interval.Values
import Percolator.Proofs.Float.Positive
import Percolator.Proofs.Monitor.Failures
import Percolator.Proofs.Query.Scores
import Percolator.Proofs.Verification.SameQueries
import Percolator.Proofs.Interval.Ordered
import Percolator.Proofs.Monitor.Candidates
import Percolator.Proofs.Monitor.Explaining
import Percolator.Proofs.Query.PhraseSpans
import Percolator.Proofs.Interval.Unordered
import Percolator.Proofs.Interval.DistinctTerms
import Percolator.Proofs.Glob.Language
import Percolator.Proofs.Glob.LiteralRuns
import Percolator.Proofs.Presearch.Lightest
import Percolator.Proofs.Query.WholeTerm
import Percolator.Proofs.Presearch.Postings
import Percolator.Proofs.Query.Highlights
import Percolator.Proofs.Document.Filling
import Percolator.Proofs.Query.Spans
import Percolator.Proofs.Token.Uses
import Percolator.Proofs.Token.Gaps
import Percolator.Proofs.Document.RawValues
import Percolator.Proofs.Presearch.NormalForm
import Percolator.Proofs.Monitor.Filing
