import Percolator.Proofs.Pattern.Reader.Local

/-!
# Reading in front of a parenthesis

A text that is read to its end alone is read in the same way in front of a closing parenthesis,
whatever follows and whichever groups are open around it, unless it ends in a comment: then the
comment takes in the parenthesis and the line behind it. And where reading closes a group that was
open at the beginning, the text in front of the parenthesis that closes it is read to its end alone.

## Main definitions

* `Reading.finish?` : the state at the end of the text, with as much fuel as is needed.
* `Expr.nested?` : the expression of a text, however deep it is nested.
* `Reading.Keeps`, `Reading.Hides` : what reading a text comes to in front of a parenthesis.

## Main results

* `Reading.keeps_or_hides` : a text that is read to its end is kept, or hides the parenthesis.
* `Reading.exists_keeps_of_closed` : the text in front of the parenthesis that closes the group.
-/

namespace Percolator.Pattern

variable {text rest more : List Char} {f : Flags} {c : Char} {r s : Reading} {o : List Level}

namespace Reading

/-! ### Fuel -/

theorem run?_congr {n m : Nat} (hn : r.rest.length ≤ n) (hm : r.rest.length ≤ m) :
    r.run? n = r.run? m := by
  induction n generalizing m r with
  | zero =>
    have hnil : r.level.flags.skip r.rest = [] := by
      rw [List.eq_nil_of_length_eq_zero (Nat.le_zero.mp hn), skip_nil]
    unfold run?
    rw [hnil]
  | succ n ih =>
    unfold run?
    cases hs : r.level.flags.skip r.rest with
    | nil => cases m <;> rfl
    | cons c rest =>
      have hle := (skip_suffix r.level.flags r.rest).length_le
      rw [hs, List.length_cons] at hle
      obtain ⟨m, rfl⟩ := Nat.exists_eq_succ_of_ne_zero (Nat.ne_zero_of_lt (hle.trans hm))
      refine Option.bind_congr fun s hstep => ?_
      have hsuffix := (step?_suffix hstep).length_le
      exact ih (by omega) (by omega)

/-- Reads the whole text that is left. -/
def finish? (r : Reading) : Option Reading := r.run? r.rest.length

theorem finish?_of_skip_nil (h : r.level.flags.skip text = []) :
    (r.on text).finish? = some (r.on text) := by
  have hskip : (r.on text).level.flags.skip (r.on text).rest = [] := h
  rw [finish?]
  unfold run?
  rw [hskip]

theorem finish?_of_skip_cons (h : r.level.flags.skip text = c :: rest) :
    (r.on text).finish? = (r.step? c rest).bind finish? := by
  have hskip : (r.on text).level.flags.skip (r.on text).rest = c :: rest := h
  have hle := (skip_suffix (r.on text).level.flags (r.on text).rest).length_le
  rw [hskip, List.length_cons] at hle
  obtain ⟨n, hn⟩ := Nat.exists_eq_succ_of_ne_zero (Nat.ne_zero_of_lt hle)
  rw [finish?, hn]
  unfold run?
  rw [hskip]
  refine Option.bind_congr fun s hstep => ?_
  have hsuffix := (step?_suffix hstep).length_le
  exact run?_congr (by omega) (Nat.le_refl _)

/-- What is skipped makes no difference. -/
theorem finish?_on_congr {text text' : List Char} (h : r.level.flags.skip text = c :: rest)
    (h' : r.level.flags.skip text' = c :: rest) : (r.on text).finish? = (r.on text').finish? := by
  rw [finish?_of_skip_cons h, finish?_of_skip_cons h']

/-- Nothing is skipped while the flags are those of the beginning. -/
theorem finish?_on_cons (hflags : r.level.flags = {}) (c : Char) (text : List Char) :
    (r.on (c :: text)).finish? = (r.step? c text).bind finish? :=
  finish?_of_skip_cons (by rw [hflags]; rfl)

/-- Induction over the steps of reading a text. -/
theorem step_induction {motive : Reading → List Char → Prop}
    (nil : ∀ r text, r.level.flags.skip text = [] → motive r text)
    (cons : ∀ r text c t, r.level.flags.skip text = c :: t →
      (∀ next, r.step? c t = some next → motive next next.rest) → motive r text)
    (r : Reading) (text : List Char) : motive r text := by
  induction hn : text.length using Nat.strong_induction_on generalizing r text with
  | _ n ih =>
    cases hskip : r.level.flags.skip text with
    | nil => exact nil r text hskip
    | cons c t =>
      have hle := (skip_suffix r.level.flags text).length_le
      rw [hskip, List.length_cons] at hle
      refine cons r text c t hskip fun next hstep => ih _ ?_ next next.rest rfl
      have hsuffix := (step?_suffix hstep).length_le
      omega

/-- The state in which the reading of a pattern begins. -/
def start : Reading := { level := { flags := {} }, rest := [] }

theorem Unnumbered.finish? (hr : r.Unnumbered) (h : (r.on text).finish? = some s) :
    s.Unnumbered := by
  induction r, text using step_induction with
  | nil r text hskip =>
    rw [finish?_of_skip_nil hskip] at h
    rwa [← Option.some.inj h]
  | cons r text c t hskip ih =>
    rw [finish?_of_skip_cons hskip, Option.bind_eq_some_iff] at h
    obtain ⟨next, hstep, h⟩ := h
    exact ih next hstep (hr.step? hstep) h

/-! ### A parenthesis behind the text -/

/-- In front of a parenthesis, whatever follows it and whichever groups are around, reading the text
comes to the state `s`. -/
def Keeps (r : Reading) (text : List Char) (s : Reading) : Prop :=
  ∀ more o, ((r.within o).on (text ++ ')' :: more)).finish? =
    ((s.within o).on (')' :: more)).finish?

/-- A comment at the end of the text hides the parenthesis and the line behind it. -/
def Hides (r : Reading) (text : List Char) (s : Reading) : Prop :=
  '#' ∈ text ∧ ∀ more o, '\n' ∉ more → ∃ rest,
    ((r.within o).on (text ++ ')' :: more)).finish? = some ((s.within o).on rest)

theorem keeps_self (h : r.level.flags.skip text = [])
    (hkeep : ∀ more, r.level.flags.skip (text ++ ')' :: more) =
      r.level.flags.skip text ++ ')' :: more) : r.Keeps text (r.on text) := by
  intro more o
  refine finish?_on_congr (r := r.within o) (c := ')') ?_ (skip_paren _ more)
  rw [within_level, hkeep, h, List.nil_append]

/-- A step that the parenthesis changes nothing in. -/
theorem finish?_within_on {t : List Char} (hskip : r.level.flags.skip text = c :: t)
    (hclose : c = ')' → r.outer ≠ []) (hstep : r.step? c t = some s) (o : List Level) :
    ((r.within o).on text).finish? = (s.within o).finish? := by
  rw [finish?_of_skip_cons (r := r.within o) hskip, step?_within hclose, hstep]
  rfl

section Steps

variable {t : List Char} {next : Reading}
  (hskip : ∀ more, r.level.flags.skip (text ++ ')' :: more) = c :: (t ++ ')' :: more))
  (hclose : c = ')' → r.outer ≠ [])
  (hstep : ∀ more, r.step? c (t ++ ')' :: more) = some (next.on (rest ++ ')' :: more)))

include hskip hclose hstep

theorem Keeps.of_step (h : next.Keeps rest s) : r.Keeps text s := fun more o =>
  (finish?_within_on (hskip more) hclose (hstep more) o).trans (h more o)

theorem Hides.of_step (hsub : rest ⊆ text) (h : next.Hides rest s) : r.Hides text s := by
  refine ⟨hsub h.1, fun more o hm => ?_⟩
  obtain ⟨behind, hbehind⟩ := h.2 more o hm
  exact ⟨behind, (finish?_within_on (hskip more) hclose (hstep more) o).trans hbehind⟩

end Steps

theorem outer_ne_nil_of_step? (h : r.step? c text = some s) (hc : c = ')') : r.outer ≠ [] := by
  subst hc
  intro houter
  rw [step?, closeGroup?, houter] at h
  exact Option.some_ne_none s h.symm

/-- A text that is read to its end is read in the same way in front of a parenthesis, or hides
it. -/
theorem keeps_or_hides (h : (r.on text).finish? = some s) : r.Keeps text s ∨ r.Hides text s := by
  induction r, text using step_induction with
  | nil r text hskip =>
    rw [finish?_of_skip_nil hskip] at h
    obtain rfl := Option.some.inj h
    rcases skip_append r.level.flags text with hkeep | ⟨hsign, -, hhidden⟩
    · exact .inl (keeps_self hskip hkeep)
    · exact .inr ⟨hsign, fun more o hm => ⟨_, finish?_of_skip_nil ((hhidden more).2 hm)⟩⟩
  | cons r text c t hskip ih =>
    rw [finish?_of_skip_cons hskip, Option.bind_eq_some_iff] at h
    obtain ⟨next, hstep, h⟩ := h
    have hclose := outer_ne_nil_of_step? hstep
    have hkeep : ∀ more, r.level.flags.skip (text ++ ')' :: more) = c :: (t ++ ')' :: more) := by
      rcases skip_append r.level.flags text with hkeep | ⟨-, hnil, -⟩
      · exact fun more => by rw [hkeep, hskip, List.cons_append]
      · exact absurd (hskip.symm.trans hnil) (List.cons_ne_nil c t)
    have hbehind : t <:+ text := by
      have hsuffix := skip_suffix r.level.flags text
      rw [hskip] at hsuffix
      exact (List.suffix_cons c t).trans hsuffix
    rcases step?_append hstep with hmore | ⟨hsign, hnil, hmore⟩
    · have hsub := ((step?_suffix hstep).trans hbehind).subset
      exact (ih next hstep h).imp (.of_step hkeep hclose hmore) (.of_step hkeep hclose hmore hsub)
    · have hend : next.level.flags.skip next.rest = [] := by rw [hnil, skip_nil]
      obtain rfl := Option.some.inj ((finish?_of_skip_nil hend).symm.trans h)
      refine .inr ⟨hbehind.subset hsign, fun more o hm => ⟨next.rest, ?_⟩⟩
      rw [finish?_within_on (hkeep more) hclose (hmore more hm) o]
      exact finish?_of_skip_nil (r := next.within o) hend

theorem isBlank_brace : Unicode.isBlank '\x7b' = false := by cbv

/-- A brace that only blanks and comments follow does not begin a count. -/
theorem finish?_brace (h : r.level.flags.skip text = []) :
    (r.on ('\x7b' :: text)).finish? = none := by
  have hskip := skip_of_not_blank r.level.flags isBlank_brace (by decide) text
  rw [finish?_of_skip_cons hskip, step?, counts?, h]
  rfl

/-- Where a group that was open at the beginning is closed, the text before its parenthesis is read
to its end alone, and is kept in front of a parenthesis. -/
theorem exists_keeps_of_closed (h : ((r.within o).on text).finish? = some s) (ho : o ≠ [])
    (hs : s.outer = []) :
    ∃ front behind s', text = front ++ ')' :: behind ∧ (r.on front).finish? = some s' ∧
      s'.outer = [] ∧ r.Keeps front s' := by
  induction r, text using step_induction with
  | nil r text hskip =>
    rw [finish?_of_skip_nil (r := r.within o) hskip] at h
    obtain rfl := Option.some.inj h
    exact absurd (List.append_eq_nil_iff.mp hs).2 ho
  | cons r text c t hskip ih =>
    obtain ⟨blanks, htext⟩ := skip_suffix r.level.flags text
    rw [hskip] at htext
    by_cases hclose : c = ')' ∧ r.outer = []
    · -- This parenthesis closes the group: in front of it, there are only blanks.
      obtain ⟨rfl, houter⟩ := hclose
      have hparen : r.level.flags.skip (blanks ++ ')' :: t) = [] ++ ')' :: t := by
        rw [htext, hskip, List.nil_append]
      obtain ⟨hnil, hkeep⟩ := skip_of_append hparen
      refine ⟨blanks, t, r.on blanks, htext.symm, ?_, houter, ?_⟩
      · exact finish?_of_skip_nil hnil
      · exact keeps_self hnil fun more => by rw [hkeep, hnil]
    · have hclose' : c = ')' → r.outer ≠ [] := fun hc houter => hclose ⟨hc, houter⟩
      rw [finish?_of_skip_cons (r := r.within o) hskip, step?_within hclose',
        Option.bind_eq_some_iff] at h
      obtain ⟨next', hnext', h⟩ := h
      obtain ⟨next, hstep, rfl⟩ := Option.map_eq_some_iff.mp hnext'
      obtain ⟨front, behind, s', hrest, hfinish, houter, hkeeps⟩ := ih next hstep h
      -- The text splits at the same parenthesis as what the step leaves of it.
      obtain ⟨taken, htaken⟩ := step?_suffix hstep
      rw [hrest, ← List.append_assoc] at htaken
      rw [← htaken] at htext hskip hstep
      have hwhole : text = (blanks ++ c :: (taken ++ front)) ++ ')' :: behind := by
        simp only [← htext, List.append_assoc, List.cons_append]
      have hparen : r.level.flags.skip ((blanks ++ c :: (taken ++ front)) ++ ')' :: behind) =
          (c :: (taken ++ front)) ++ ')' :: behind := by
        rw [← hwhole, hskip, List.cons_append]
      obtain ⟨hskip', hkeep⟩ := skip_of_append hparen
      rcases step?_of_append hstep hrest with ⟨halone, hmore⟩ | ⟨-, inner, rfl, hinner⟩
      · refine ⟨_, behind, s', hwhole, ?_, houter, .of_step hkeep hclose' hmore hkeeps⟩
        rw [finish?_of_skip_cons hskip', halone]
        exact hfinish
      · rw [finish?_brace hinner] at hfinish
        exact absurd hfinish (Option.some_ne_none s').symm

end Reading

/-! ### The expression of a text -/

/-- The expression of a text, and how deep it is nested. -/
def Expr.nested? (text : List Char) : Option (Expr × Nat) :=
  (Reading.start.on text).finish?.bind fun r => if r.outer.isEmpty then some r.level.body else none

theorem nested?_eq_some_iff {x : Expr × Nat} :
    Expr.nested? text = some x ↔
      ∃ r, (Reading.start.on text).finish? = some r ∧ r.outer = [] ∧ r.level.body = x := by
  simp only [Expr.nested?, Option.bind_eq_some_iff, List.isEmpty_iff, Option.ite_none_right_eq_some,
    Option.some.injEq]

/-- The expression of a pattern is that of its text, if it is not nested too deep. -/
theorem Expr.read?_eq (pattern : String) :
    Expr.read? pattern =
      (nested? pattern.toList).bind fun x => if x.2 ≤ deepest then some x.1 else none := by
  rw [Expr.read?, nested?, Option.bind_assoc]
  refine Option.bind_congr fun r _ => ?_
  cases r.outer.isEmpty with
  | true => simp
  | false => simp

end Percolator.Pattern
