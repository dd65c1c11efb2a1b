import Percolator.Pattern.Read
import Percolator.Proofs.Pattern.Reader.Brackets

/-!
# The steps of reading as readers

Each kind of element of a pattern is put together from readers for its parts: counts, names and
flags of groups, and what begins or ends a group. So a step of reading, as a reader of the state
that it comes to, is as tame as they are. An escape is not covered: a word edge may look beyond the
parenthesis.

## Main definitions

* `Pattern.into` : a step of reading as a reader.

## Main results

* `Pattern.tame_step?` : every step but an escape takes the same whatever follows the parenthesis,
  or goes on over it.
-/

namespace Percolator.Pattern

open Reader

variable {α : Type} {text rest : List Char} {f : Flags} {c : Char} {r : Reading}

/-! ### Counts -/

theorem tame_dropWhile {p : Char → Bool} {s : Reader α} (hp : p ')' = false) (hs : Tame s) :
    Tame fun t => s (t.dropWhile p) := by
  refine ⟨fun text x hx => (hs.shortens _ x hx).trans (List.dropWhile_suffix p), fun text => ?_⟩
  refine (hs.isLocal _).congr_suffix (List.dropWhile_suffix p) rfl fun more => congrArg s ?_
  rw [List.dropWhile_append, List.dropWhile_cons_of_neg (by simp [hp])]
  cases h : text.dropWhile p <;> rfl

/-- The reader of a number with blanks around it. -/
def counted (f : Flags) : Reader (Option Nat) := fun t => some (count? f t)

theorem tame_counted (f : Flags) : Tame (counted f) := by
  have hnumber : Tame (andThen (spans f Char.isDigit) fun digits =>
      andThen (spans f Unicode.isBlank) fun _ =>
        leave (if digits.isEmpty then none else some (Text.decimalValue digits))) :=
    (tame_spans rfl).andThen fun digits => (tame_spans isBlank_paren).andThen fun _ => .leave _
  exact tame_dropWhile isBlank_paren hnumber

/-- The reader of a count of repetitions. -/
def counts (f : Flags) : Reader (Nat × Option Nat) :=
  fun t => (counts? f t).map fun x => ((x.1, x.2.1), x.2.2)

/-- The reader of the largest count that is admitted. -/
def upTo (f : Flags) (least : Nat) : Reader (Nat × Option Nat) :=
  andThen (counted f) fun most? => given most? fun most => branch '\x7d'
    (if most > largestCount ∨ most < least then fail else leave (least, some most)) fail

theorem upTo_eq (f : Flags) (least : Nat) (t : List Char) :
    upTo f least t = (match count? f t with
      | (some most, '\x7d' :: rest) =>
        if most > largestCount ∨ most < least then none else some (least, some most, rest)
      | _ => none : Option (Nat × Option Nat × List Char)).map
        fun x => ((x.1, x.2.1), x.2.2) := by
  simp only [upTo, andThen, counted, Option.bind_some, given]
  generalize count? f t = x
  obtain ⟨most?, rest⟩ := x
  cases most? with
  | none => rfl
  | some most =>
    cases rest with
    | nil => rfl
    | cons c rest =>
      by_cases hc : c = '\x7d'
      · subst hc
        by_cases h : most > largestCount ∨ most < least <;> simp [branch, peeking, fail, leave, h]
      · simp [branch, peeking, fail, hc]

/-- The reader of what stands behind the comma of a count. -/
def countsTo (f : Flags) (least : Nat) : Reader (Nat × Option Nat) :=
  skipping f (branch '\x7d' (leave (least, none)) (upTo f least))

theorem counts_eq (f : Flags) :
    counts f = skipping f (andThen (counted f) fun least? => given least? fun least =>
      if least > largestCount then fail
      else branch '\x7d' (leave (least, some least)) (branch ',' (countsTo f least) fail)) := by
  funext t
  unfold counts counts?
  simp only [skipping, andThen, counted, Option.bind_some, given]
  generalize count? f (f.skip t) = x
  obtain ⟨least?, rest⟩ := x
  cases least? with
  | none => rfl
  | some least =>
    by_cases hlarge : least > largestCount
    · simp [hlarge, fail]
    cases rest with
    | nil => simp [hlarge, branch, peeking, fail]
    | cons c rest =>
      by_cases hclose : c = '\x7d'
      · subst hclose
        simp [hlarge, branch, peeking, leave]
      by_cases hcomma : c = ','
      · subst hcomma
        have hto : branch '\x7d' (leave (least, some least)) (branch ',' (countsTo f least) fail)
            (',' :: rest) = branch '\x7d' (leave (least, none)) (upTo f least) (f.skip rest) := rfl
        simp only [hlarge, if_false, Option.bind_some, Option.bind_eq_bind]
        rw [hto]
        cases hs : f.skip rest with
        | nil => exact (upTo_eq f least []).symm
        | cons d behind =>
          by_cases hd : d = '\x7d'
          · subst hd
            rfl
          · rw [branch, peeking_cons, if_neg fun h => hd h.1]
            simp only [List.cons.injEq, hd, false_and, imp_self, implies_true]
            exact (upTo_eq f least (d :: behind)).symm
      · simp [hlarge, branch, peeking, fail, hclose, hcomma]

theorem tame_upTo (f : Flags) (least : Nat) : Tame (upTo f least) :=
  (tame_counted f).andThen fun _ => .given fun _ =>
    .branch (by decide) (.ite .fail (.leave _)) .fail

theorem tame_counts (f : Flags) : Tame (counts f) := by
  rw [counts_eq]
  refine .skipping f ((tame_counted f).andThen fun least? => .given fun least => .ite .fail ?_)
  refine .branch (by decide) (.leave _) (.branch (by decide) ?_ .fail)
  exact .skipping f (.branch (by decide) (.leave _) (tame_upTo f least))

/-! ### Groups -/

/-- Characters that are a name for a group. -/
def isGroupName : List Char → Bool
  | [] => false
  | c :: cs => (c = '_' || Unicode.recentAlphabetic.contains c) && cs.all groupName?.follows

theorem groupName?_eq (text : List Char) :
    groupName? text =
      if text.dropWhile (· != '>') ≠ [] ∧ isGroupName (text.takeWhile (· != '>')) then
        some (text.takeWhile (· != '>'), (text.dropWhile (· != '>')).tail)
      else none := by
  unfold groupName?
  cases hdrop : text.dropWhile (· != '>') with
  | nil => simp
  | cons d rest =>
    have hd : d = '>' := by
      have hhead := List.head?_dropWhile_not (· != '>') text
      simpa [hdrop] using hhead
    rw [hd]
    cases text.takeWhile (· != '>') with
    | nil => simp [isGroupName]
    | cons c cs => simp [isGroupName]

theorem tame_groupName? : Tame groupName? := by
  have hsuffix : ∀ text : List Char, (text.dropWhile (· != '>')).tail <:+ text := fun text =>
    (List.tail_suffix _).trans (List.dropWhile_suffix _)
  refine ⟨fun text x hx => ?_, fun text => ?_⟩
  · rw [groupName?_eq] at hx
    split_ifs at hx
    rw [← Option.some.inj hx]
    exact hsuffix text
  · cases hdrop : text.dropWhile (· != '>') with
    | nil =>
      refine .of_none ?_ fun more x hx => ?_
      · rw [groupName?_eq, if_neg fun h => h.1 hdrop]
      · rw [groupName?_eq] at hx
        split_ifs at hx
        rw [← Option.some.inj hx, List.dropWhile_append, hdrop]
        exact (hsuffix more).length_le
    | cons d ds =>
      have hlength : (text.takeWhile (· != '>')).length ≠ text.length := by
        intro h
        have hsplit : text.takeWhile (· != '>') ++ text.dropWhile (· != '>') = text :=
          List.takeWhile_append_dropWhile
        have hsum := congrArg List.length hsplit
        rw [List.length_append, hdrop, h, List.length_cons] at hsum
        omega
      by_cases hname : isGroupName (text.takeWhile (· != '>'))
      · have hrest : ds <:+ text := by simpa only [hdrop, List.tail_cons] using hsuffix text
        refine (Local.leave (text.takeWhile (· != '>')) ds).congr_suffix hrest ?_ fun more => ?_
        · rw [groupName?_eq, hdrop, if_pos ⟨List.cons_ne_nil d ds, hname⟩]
          rfl
        · rw [groupName?_eq, List.dropWhile_append, List.takeWhile_append, hdrop, if_neg hlength]
          simp [hname, leave]
      · refine (Local.fail text).congr ?_ fun more => ?_
        · rw [groupName?_eq, if_neg fun h => hname h.2]
          rfl
        · rw [groupName?_eq, List.takeWhile_append, if_neg hlength, if_neg fun h => hname h.2]
          rfl

/-- The reader of flags, and of the character behind them. -/
def flagged (seen : List Flag) (negating dangling : Bool) (f : Flags) : Reader (Flags × Char) :=
  fun t => (readFlags? seen negating dangling f t).map fun x => ((x.1, x.2.1), x.2.2)

theorem flagged_cons (seen : List Flag) (negating dangling : Bool) (f : Flags) (c : Char)
    (t : List Char) :
    flagged seen negating dangling f (c :: t) =
      (if c = ':' ∨ c = ')' then if dangling then fail else leave (f, c)
      else if c = '-' then if negating then fail else flagged seen true true f
      else given (Flag.ofLetter? c) fun flag =>
        if flag ∈ seen then fail
        else flagged (flag :: seen) negating false (f.set (!negating) flag)) t := by
  simp only [flagged, readFlags?, ite_apply, given, fail, leave]
  split_ifs
  · rfl
  · rfl
  · rfl
  · rfl
  · cases Flag.ofLetter? c with
    | none => rfl
    | some flag =>
      simp only [Option.bind_some]
      split_ifs <;> rfl

theorem shortens_flagged (seen : List Flag) (negating dangling : Bool) (f : Flags) :
    Shortens (flagged seen negating dangling f) := by
  intro text
  induction text generalizing seen negating dangling f with
  | nil =>
    intro x hx
    simp only [flagged, readFlags?, Option.map_none, reduceCtorEq] at hx
  | cons c t ih =>
    intro x hx
    refine List.IsSuffix.trans ?_ (List.suffix_cons c t)
    rw [flagged_cons] at hx
    simp only [ite_apply] at hx
    split_ifs at hx
    · simp only [fail, reduceCtorEq] at hx
    · exact Shortens.leave (f, c) t x hx
    · simp only [fail, reduceCtorEq] at hx
    · exact ih _ _ _ _ x hx
    · obtain ⟨flag, -, hx⟩ := Option.bind_eq_some_iff.mp hx
      simp only [ite_apply] at hx
      split_ifs at hx
      · simp only [fail, reduceCtorEq] at hx
      · exact ih _ _ _ _ x hx

theorem tame_flagged (seen : List Flag) (negating dangling : Bool) (f : Flags) :
    Tame (flagged seen negating dangling f) := by
  refine ⟨shortens_flagged seen negating dangling f, fun text => ?_⟩
  induction text generalizing seen negating dangling f with
  | nil =>
    refine .nil rfl ?_
    rw [funext (flagged_cons seen negating dangling f ')'), if_pos (.inr rfl)]
    exact .ite .fail (.leave _)
  | cons c t ih =>
    refine .cons (flagged_cons seen negating dangling f c) ?_
    refine .ite (.ite (.fail t) (.leave _ t)) ?_
    refine .ite (.ite (.fail t) (ih _ _ _ _)) ?_
    exact .given fun flag _ => .ite (.fail t) (ih _ _ _ _)

/-- A step of reading as a reader: the state that it comes to, and the text that is left. -/
def into (step : List Char → Option Reading) : Reader Reading :=
  fun t => (step t).map fun r => ({ r with rest := [] }, r.rest)

theorem into_openNamed? (r : Reading) :
    into r.openNamed? = andThen groupName? fun name =>
      if name ∈ r.names then fail
      else leave { r.openCapture [] with names := name :: r.names } := by
  funext t
  simp only [into, Reading.openNamed?, andThen]
  cases groupName? t with
  | none => rfl
  | some x =>
    simp only [Option.bind_eq_bind, Option.bind_some, ite_apply]
    split_ifs <;> rfl

theorem tame_openNamed? (r : Reading) : Tame (into r.openNamed?) := by
  rw [into_openNamed?]
  exact tame_groupName?.andThen fun name => .ite .fail (.leave _)

/-- Reads flags, and what they begin or change. -/
def flagGroup (r : Reading) : Reader Reading :=
  andThen (flagged [] false false r.level.flags) fun x =>
    if x.2 = ':' then leave (r.openGroup x.1 [])
    else leave { r.push ⟨.empty, 0, true⟩ [] with
      level := { (r.push ⟨.empty, 0, true⟩ []).level with flags := x.1 } }

/-- Reads what stands behind the question mark of a group, if that is not a parenthesis. -/
def openedBy (r : Reading) : Reader Reading :=
  branch '=' fail <| branch '!' fail <|
    branch '<' (branch '=' fail <| branch '!' fail <| into r.openNamed?) <|
      peeking 'P' (fun t => t.head? = some '<') (anyChar fun _ => into r.openNamed?) (flagGroup r)

theorem tame_openedBy (r : Reading) : Tame (openedBy r) := by
  have hnamed := tame_openNamed? r
  have hflags : Tame (flagGroup r) :=
    (tame_flagged _ _ _ _).andThen fun x => .ite (.leave _) (.leave _)
  have hlookahead : ∀ t more : List Char, decide ((t ++ ')' :: more).head? = some '<') =
      decide (t.head? = some '<') := fun t more => by cases t <;> rfl
  refine .branch (by decide) .fail (.branch (by decide) .fail (.branch (by decide) ?_ ?_))
  · exact .branch (by decide) .fail (.branch (by decide) .fail hnamed)
  · exact .peeking (by decide) hlookahead (.anyChar fun _ => hnamed) hflags

theorem into_group?_flags (r : Reading) {d : Char} {t : List Char} (hparen : d ≠ ')')
    (heq : d ≠ '=') (hne : d ≠ '!') (hlt : d ≠ '<') (hnamed : ¬(d = 'P' ∧ t.head? = some '<')) :
    into r.group? ('?' :: d :: t) = flagGroup r (d :: t) := by
  have hhead : (d :: t).head? ≠ some ')' := mt Option.some.inj hparen
  rw [into, Reading.group?]
  · simp only [flagGroup, andThen, flagged]
    cases readFlags? [] false false r.level.flags (d :: t) with
    | none => rfl
    | some x =>
      obtain ⟨flags, c, rest⟩ := x
      by_cases hc : c = ':'
      · subst hc
        rfl
      · simp [hc, hparen, leave, Reading.push, Level.add]
  all_goals
    intro t' h
    simp_all

theorem into_group?_openedBy (r : Reading) (h : text.head? ≠ some ')') :
    into r.group? ('?' :: text) = openedBy r text := by
  cases text with
  | nil => rfl
  | cons d t =>
    by_cases heq : d = '='
    · subst heq
      rfl
    by_cases hne : d = '!'
    · subst hne
      rfl
    simp only [openedBy, branch, peeking_cons, heq, hne, false_and, if_false]
    by_cases hlt : d = '<'
    · subst hlt
      cases t with
      | nil => rfl
      | cons e t =>
        by_cases heq : e = '='
        · subst heq
          rfl
        by_cases hne : e = '!'
        · subst hne
          rfl
        simp [into, Reading.group?, heq, hne, peeking_cons]
    by_cases hnamed : d = 'P' ∧ t.head? = some '<'
    · obtain ⟨rfl, ht⟩ := hnamed
      obtain ⟨t, rfl⟩ := List.head?_eq_some_iff.mp ht
      rfl
    · rw [into_group?_flags r (mt (congrArg some) h) heq hne hlt hnamed]
      simp [hlt, hnamed]

theorem into_group?_paren (r : Reading) (t : List Char) :
    into r.group? ('?' :: ')' :: t) = none := rfl

theorem tame_questioned (r : Reading) : Tame fun t => into r.group? ('?' :: t) := by
  refine ⟨fun text x hx => ?_, fun text => ?_⟩
  · by_cases h : text.head? = some ')'
    · obtain ⟨t, rfl⟩ := List.head?_eq_some_iff.mp h
      simp only [into_group?_paren, reduceCtorEq] at hx
    · simp only [into_group?_openedBy r h] at hx
      exact (tame_openedBy r).shortens text x hx
  · cases text with
    | nil => exact (Local.fail []).congr rfl fun more => rfl
    | cons d t =>
      by_cases hd : d = ')'
      · subst hd
        exact (Local.fail (')' :: t)).congr rfl fun more => rfl
      · have hhead : ∀ s, (d :: s).head? ≠ some ')' := fun s => mt Option.some.inj hd
        refine ((tame_openedBy r).isLocal (d :: t)).congr ?_ fun more => ?_
        · exact into_group?_openedBy r (hhead t)
        · exact into_group?_openedBy r (hhead _)

theorem into_group? (r : Reading) :
    into r.group? =
      branch '?' (fun t => into r.group? ('?' :: t)) (leave (r.openCapture [])) := by
  funext t
  cases t with
  | nil => rfl
  | cons c t =>
    rw [branch, peeking_cons]
    by_cases hc : c = '?'
    · subst hc
      rfl
    · rw [if_neg fun h => hc h.1]
      simp [into, Reading.group?, hc]
      rfl

theorem tame_group? (r : Reading) : Tame (into r.group?) := by
  rw [into_group?]
  exact .branch (by decide) (tame_questioned r) (.leave _)

/-! ### Steps -/

theorem into_given {o : Option α} (next : α → List Char → Option Reading) :
    (into fun t => o.bind fun v => next v t) = given o fun v => into (next v) := by
  funext t
  exact Option.map_bind

theorem into_andThen {s : Reader α} (next : α → List Char → Option Reading) :
    (into fun t => (s t).bind fun x => next x.1 x.2) = andThen s fun a => into (next a) := by
  funext t
  exact Option.map_bind

/-- Repeats the last element. -/
def repeated (r : Reading) (least : Nat) (most : Option Nat) (lazy : Bool) : Reader Reading :=
  given (r.level.repeat? least most lazy) fun level => leave { r with level, rest := [] }

theorem into_repetition? (r : Reading) (least : Nat) (most : Option Nat) :
    into (r.repetition? least most) =
      branch '?' (repeated r least most true) (repeated r least most false) := by
  funext t
  cases t with
  | nil => exact congrFun (into_given fun level t => some { r with level, rest := t }) []
  | cons c t =>
    rw [branch, peeking_cons]
    by_cases hc : c = '?'
    · subst hc
      exact congrFun (into_given fun level t => some { r with level, rest := t }) t
    · rw [if_neg fun h => hc h.1]
      refine Eq.trans ?_ (congrFun (into_given fun level t => some { r with level, rest := t }) _)
      simp [into, Reading.repetition?, hc]

theorem tame_repetition? (r : Reading) (least : Nat) (most : Option Nat) :
    Tame (into (r.repetition? least most)) := by
  rw [into_repetition?]
  exact .branch (by decide) (.given fun _ => .leave _) (.given fun _ => .leave _)

theorem tame_atom? (r : Reading) (a : Atom) : Tame (into (r.atom? a)) := by
  cases a with
  | char c byte =>
    have hchar : into (r.atom? (.char c byte)) = given (r.level.flags.ofChar? c byte) fun e =>
        leave (r.push ⟨e, 0, false⟩ []) :=
      into_given fun e => fun t => some (r.push ⟨e, 0, false⟩ t)
    rw [hchar]
    exact .given fun e => .leave _
  | set s => exact .leave (r.push ⟨.ofSet r.level.flags.alphabet s, 0, false⟩ [])
  | look place => exact .leave (r.push ⟨.look place, 0, false⟩ [])

theorem into_step?_escape (r : Reading) :
    into (r.step? '\\') = andThen (escape? r.level.flags) fun a => into (r.atom? a) :=
  into_andThen fun a => r.atom? a

theorem tame_closeGroup? (r : Reading) : Tame (into r.closeGroup?) := by
  cases h : r.outer with
  | nil =>
    have hfail : into r.closeGroup? = fail := by
      funext t
      rw [into, Reading.closeGroup?, h]
      rfl
    rw [hfail]
    exact .fail
  | cons level outer =>
    have hleave : into r.closeGroup? =
        leave { r with level := level.add r.level.close, outer, rest := [] } := by
      funext t
      rw [into, Reading.closeGroup?, h]
      rfl
    rw [hleave]
    exact .leave _

/-- A character without a meaning of its own. -/
theorem step?_of_plain
    (h : c ∉ ['(', ')', '|', '[', '?', '*', '+', '\x7b', '\\', '.', '^', '$']) (r : Reading) :
    r.step? c = r.atom? (.char c false) := by
  funext t
  simp only [List.mem_cons, List.not_mem_nil, or_false, not_or] at h
  simp [Reading.step?, h]

theorem tame_step? (hc : c ≠ '\\') : Tame (into (r.step? c)) := by
  by_cases h : c ∈ ['(', ')', '|', '[', '?', '*', '+', '\x7b', '.', '^', '$']
  · simp only [List.mem_cons, List.not_mem_nil, or_false] at h
    rcases h with rfl | rfl | rfl | rfl | rfl | rfl | rfl | rfl | rfl | rfl | rfl
    · exact (tame_group? r).skipping r.level.flags
    · exact tame_closeGroup? r
    · exact .leave { r with level := r.level.bar, rest := [] }
    · have hset := into_andThen (s := bracketed? r.level.flags) fun s t =>
        some (r.push ⟨.ofSet r.level.flags.alphabet s.chars, s.depth, false⟩ t)
      rw [show into (r.step? '[') = _ from hset]
      exact (tame_bracketed? _).andThen fun s =>
        .leave (r.push ⟨.ofSet _ s.chars, s.depth, false⟩ [])
    · exact tame_repetition? r 0 (some 1)
    · exact tame_repetition? r 0 none
    · exact tame_repetition? r 1 none
    · have hcount : into (r.step? '\x7b') = andThen (counts r.level.flags) fun x =>
          skipping r.level.flags (into (r.repetition? x.1 x.2)) := by
        funext t
        simp only [into, Reading.step?, andThen, counts]
        cases counts? r.level.flags t <;> rfl
      rw [hcount]
      exact (tame_counts _).andThen fun x => .skipping _ (tame_repetition? r x.1 x.2)
    · have hdot := into_given (o := r.level.flags.dot?) fun e t => some (r.push ⟨e, 0, false⟩ t)
      rw [show into (r.step? '.') = _ from hdot]
      exact .given fun e => .leave (r.push ⟨e, 0, false⟩ [])
    · exact tame_atom? r (.look r.level.flags.caret)
    · exact tame_atom? r (.look r.level.flags.dollar)
  · rw [step?_of_plain (by simpa only [List.mem_cons, hc, false_or] using h)]
    exact tame_atom? r _

end Percolator.Pattern
