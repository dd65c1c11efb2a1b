import Mathlib.Data.List.MinMax
import Percolator.Proofs.Glob

/-!
# The literal runs of a glob

The wildcards of a glob that are not escaped separate it into literal runs. In a run, an escape
stands for the character behind its backslash, and any other character for itself. A backslash at
the end of the glob, with nothing behind it, adds nothing to the last run. The literal of a glob is
one of its runs: no run is longer, and the runs in front of it are shorter.

## Main definitions

* `Glob.Spells` : a part of a glob without wildcards spells a text.
* `Glob.Separates` : the wildcards of a glob separate runs.
* `Glob.literalRuns` : these runs.

## Main results

* `Glob.separates_iff` : a glob is separated into its literal runs only.
* `Glob.Separates.argmax_longestRun` : the loop over a glob keeps the first of the longest runs.
* `Glob.longestLiteral_required_and_first` : every term that a glob matches contains its literal,
  which is the first of its longest runs.
-/

namespace Percolator.Glob

variable {source stretch text : List Char} {runs : List (List Char)}

/-! ### Runs -/

/-- A part of a glob spells a text: each character stands for itself, unless it is a wildcard, and a
backslash makes the character behind it stand for itself, whatever it is. -/
inductive Spells : List Char → List Char → Prop
  | nil : Spells [] []
  | escaped {stretch text : List Char} (c : Char) (hrest : Spells stretch text) :
      Spells ('\\' :: c :: stretch) (c :: text)
  | plain {c : Char} {stretch text : List Char} (hescape : c ≠ '\\') (hmany : c ≠ '*')
      (hone : c ≠ '?') (hrest : Spells stretch text) : Spells (c :: stretch) (c :: text)

/-- The wildcards of a glob separate the runs, each of which is spelled by the part of the glob
between two wildcards. -/
inductive Separates : List Char → List (List Char) → Prop
  | last {stretch run : List Char} (hrun : Spells stretch run) : Separates stretch [run]
  /-- A backslash with nothing behind it adds nothing. -/
  | lone {stretch run : List Char} (hrun : Spells stretch run) :
      Separates (stretch ++ ['\\']) [run]
  | wildcard {wild : Char} {stretch run source : List Char} {runs : List (List Char)}
      (hwild : wild = '*' ∨ wild = '?') (hrun : Spells stretch run)
      (hrest : Separates source runs) : Separates (stretch ++ wild :: source) (run :: runs)

/-- The runs that the wildcards of a glob separate. -/
def literalRuns : List Char → List (List Char)
  | [] => [[]]
  | ['\\'] => [[]]
  | '\\' :: c :: rest => (literalRuns rest).modifyHead ([c] ++ ·)
  | '*' :: rest => [] :: literalRuns rest
  | '?' :: rest => [] :: literalRuns rest
  | c :: rest => (literalRuns rest).modifyHead ([c] ++ ·)

theorem Spells.append {stretch' text' : List Char} (h : Spells stretch text)
    (h' : Spells stretch' text') : Spells (stretch ++ stretch') (text ++ text') := by
  induction h with
  | nil => exact h'
  | escaped c _ ih => exact .escaped c ih
  | plain hescape hmany hone _ ih => exact .plain hescape hmany hone ih

/-- What is spelled in front of a glob stands in front of its first run. -/
theorem Separates.append (h : Separates source runs) (hstretch : Spells stretch text) :
    Separates (stretch ++ source) (runs.modifyHead (text ++ ·)) := by
  cases h with
  | last hrun => exact .last (hstretch.append hrun)
  | lone hrun =>
    rw [← List.append_assoc]
    exact .lone (hstretch.append hrun)
  | wildcard hwild hrun hrest =>
    rw [← List.append_assoc]
    exact .wildcard hwild (hstretch.append hrun) hrest

theorem separates_literalRuns (source : List Char) : Separates source (literalRuns source) := by
  fun_induction literalRuns source with
  | case1 => exact .last .nil
  | case2 => exact .lone .nil
  | case3 c rest ih => exact ih.append (.escaped c .nil)
  | case4 rest ih => exact .wildcard (.inl rfl) .nil ih
  | case5 rest ih => exact .wildcard (.inr rfl) .nil ih
  | case6 c rest hlone hescape hmany hone ih =>
    exact ih.append (.plain (ne_backslash hlone hescape) hmany hone .nil)

theorem literalRuns_append (h : Spells stretch text) (source : List Char) :
    literalRuns (stretch ++ source) = (literalRuns source).modifyHead (text ++ ·) := by
  induction h with
  | nil => exact (congrFun List.modifyHead_id (literalRuns source)).symm
  | escaped c _ ih =>
    rw [List.cons_append, List.cons_append, literalRuns, ih, List.modifyHead_modifyHead]
    rfl
  | plain hescape hmany hone _ ih =>
    rw [List.cons_append, literalRuns.eq_6 _ _ (fun hc _ => hescape hc) (fun _ _ hc _ => hescape hc)
      hmany hone, ih, List.modifyHead_modifyHead]
    rfl

/-- A glob is separated into its literal runs, and into no others. -/
theorem separates_iff : Separates source runs ↔ runs = literalRuns source := by
  constructor
  · intro h
    induction h with
    | @last stretch run hrun =>
      have hruns := literalRuns_append hrun []
      rw [List.append_nil] at hruns
      rw [hruns, literalRuns, List.modifyHead_cons, List.append_nil]
    | lone hrun =>
      rw [literalRuns_append hrun, literalRuns, List.modifyHead_cons, List.append_nil]
    | @wildcard wild stretch run source runs hwild hrun _ ih =>
      have hrest : literalRuns (wild :: source) = [] :: runs := by
        rcases hwild with rfl | rfl <;> rw [literalRuns, ih]
      rw [literalRuns_append hrun, hrest, List.modifyHead_cons, List.append_nil]
  · rintro rfl
    exact separates_literalRuns source

instance (source : List Char) (runs : List (List Char)) : Decidable (Separates source runs) :=
  decidable_of_iff (runs = literalRuns source) separates_iff.symm

/-! ### The first of the longest runs -/

theorem longestRun_append (h : Spells stretch text) (best run source : List Char) :
    longestRun best run (stretch ++ source) = longestRun best (run ++ text) source := by
  induction h generalizing run with
  | nil => rw [List.nil_append, List.append_nil]
  | escaped c _ ih =>
    rw [List.cons_append, List.cons_append, longestRun, ih, List.append_assoc,
      List.singleton_append]
  | plain hescape hmany hone _ ih =>
    rw [List.cons_append, longestRun.eq_6 _ _ _ _ (fun hc _ => hescape hc)
      (fun _ _ hc _ => hescape hc) hmany hone, ih, List.append_assoc, List.singleton_append]

/-- Of two texts at the beginning of a list, the one that is not kept does not count. -/
theorem argmax_longer (best run : List Char) (runs : List (List Char)) :
    (Text.longer best run :: runs).argmax List.length =
      (best :: run :: runs).argmax List.length := by
  have hkept : List.argAux (fun s t : List Char => t.length < s.length) (some best) run =
      some (Text.longer best run) := by
    simp only [List.argAux, Text.longer]
    split_ifs <;> rfl
  exact congrArg (fun kept => runs.foldl (List.argAux fun s t => t.length < s.length) kept)
    hkept.symm

/-- The loop over a glob keeps the first of the longest texts among the best one so far and the runs
that are left. -/
theorem Separates.argmax_longestRun (h : Separates source runs) (best : List Char) :
    (best :: runs).argmax List.length = some (longestRun best [] source) := by
  -- The induction is on the runs: the loop goes over the part of the glob that spells a run as a
  -- whole, and keeps the run or drops it at the wildcard behind.
  induction h generalizing best with
  | @last stretch run hrun =>
    have hloop := longestRun_append hrun best [] []
    rw [List.append_nil] at hloop
    rw [← argmax_longer, hloop]
    rfl
  | lone hrun =>
    rw [← argmax_longer, longestRun_append hrun]
    rfl
  | @wildcard wild stretch run source runs hwild hrun _ ih =>
    have hloop : longestRun best [] (stretch ++ wild :: source) =
        longestRun (Text.longer best run) [] source := by
      rw [longestRun_append hrun]
      rcases hwild with rfl | rfl <;> rfl
    rw [← argmax_longer, hloop, ih]

/-- A run is at least as long as the empty text, which the loop begins with. -/
theorem argmax_nil_cons (hruns : runs ≠ []) :
    ([] :: runs).argmax List.length = runs.argmax List.length := by
  obtain ⟨run, rest, rfl⟩ := List.exists_cons_of_ne_nil hruns
  have hkept : Text.longer [] run = run := by cases run <;> rfl
  rw [← argmax_longer, hkept]

theorem Separates.ne_nil (h : Separates source runs) : runs ≠ [] := by
  cases h <;> exact List.cons_ne_nil _ _

/-- Every term that a glob matches contains the literal of the glob. The wildcards of the glob
separate its runs in one way only, and the literal is the first of the longest of them. -/
theorem longestLiteral_required_and_first (g : Glob) :
    (∀ term, g.contains term = true → g.longestLiteral.toList <:+: term.toList) ∧
      (∃! runs, Separates g.source.toList runs) ∧
      ∀ runs, Separates g.source.toList runs →
        runs.argmax List.length = some g.longestLiteral.toList := by
  refine ⟨fun term h => isInfix_longestLiteral h, ?_, fun runs hruns => ?_⟩
  · exact ⟨literalRuns g.source.toList, separates_literalRuns _, fun _ h => separates_iff.mp h⟩
  · rw [← argmax_nil_cons hruns.ne_nil, hruns.argmax_longestRun [], longestLiteral,
      String.toList_ofList]

/-- The backslash at the end of the glob stands for itself in the term, but not in the last run, so
that the run with the escaped star is the first of the longest ones. -/
theorem longestLiteral_required_and_first_loneBackslash :
    contains ⟨"a*c\\*?xy\\"⟩ "ac*zxy\\" = true ∧
      "c*".toList <:+: "ac*zxy\\".toList ∧
      Separates "a*c\\*?xy\\".toList [['a'], ['c', '*'], ['x', 'y']] ∧
      [['a'], ['c', '*'], ['x', 'y']].argmax List.length = some "c*".toList := by
  obtain ⟨hrequired, -, hfirst⟩ := longestLiteral_required_and_first ⟨"a*c\\*?xy\\"⟩
  have hcontains : contains ⟨"a*c\\*?xy\\"⟩ "ac*zxy\\" = true := by decide
  have hliteral : longestLiteral ⟨"a*c\\*?xy\\"⟩ = "c*" := by decide
  have hruns : Separates "a*c\\*?xy\\".toList [['a'], ['c', '*'], ['x', 'y']] := by decide
  rw [hliteral] at hrequired hfirst
  exact ⟨hcontains, hrequired _ hcontains, hruns, hfirst _ hruns⟩

end Percolator.Glob
