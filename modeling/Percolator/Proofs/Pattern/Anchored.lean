import Percolator.Proofs.Pattern.Reader.Runs
import Percolator.Proofs.Pattern.Sequence
import Percolator.Query.TermSet

/-!
# Patterns in a group between the start and the end of the text

A pattern is made to match whole terms by its text: it is put into a group, with the start of the
text in front of the group and the end of the text behind it. What comes of this depends on how the
pattern is read in front of the closing parenthesis.

A valid pattern is read in the same way there, and the group holds it, unless the pattern ends in a
comment, which takes in the parenthesis. A pattern that is not valid may become valid, where a
parenthesis of its own closes the group.

## Main definitions

* `Pattern.Valid` : the text is a valid pattern, however deep it is nested.
* `Pattern.anchored` : the pattern in the group.

## Main results

* `Pattern.nested?_anchored_iff` : the expression of a valid pattern in the group.
* `Pattern.exists_valid_front` : a pattern that is only valid in the group closes it.
-/

namespace Percolator.Pattern

variable {p q : List Char} {r s : Reading}

/-- The text is a valid pattern. -/
def Valid (text : List Char) : Prop := (Expr.nested? text).isSome = true

instance : DecidablePred Valid := fun text =>
  inferInstanceAs (Decidable ((Expr.nested? text).isSome = true))

theorem valid_iff : Valid p ↔ ∃ r, (Reading.start.on p).finish? = some r ∧ r.outer = [] := by
  simp only [Valid, Option.isSome_iff_exists, nested?_eq_some_iff]
  constructor
  · rintro ⟨x, r, hr, houter, -⟩
    exact ⟨r, hr, houter⟩
  · rintro ⟨r, hr, houter⟩
    exact ⟨_, r, hr, houter, rfl⟩

theorem Expr.feasible_of_nested? {e : Expr} {depth : Nat} (h : nested? p = some (e, depth)) :
    e.Feasible := by
  obtain ⟨r, hr, -, hbody⟩ := nested?_eq_some_iff.mp h
  have hstart : (Reading.start.on p).Feasible :=
    ⟨⟨fun _ hb => absurd hb List.not_mem_nil, fun _ he => absurd he List.not_mem_nil⟩,
      fun _ hl => absurd hl List.not_mem_nil⟩
  have hfeasible := (hstart.run? hr).level.body
  rwa [hbody] at hfeasible

/-- The start of the text, and an open group around what follows. -/
def anchorLevel : Level := { flags := {}, elements := [⟨.look .textStart, 0, false⟩] }

/-- The pattern in a group between the start and the end of the text. -/
def anchored (p : List Char) : List Char := '^' :: '(' :: '?' :: ':' :: (p ++ [')', '$'])

theorem toList_anchor (pattern : String) :
    (Regexp.anchor pattern).toList = anchored pattern.toList := by
  simp [Regexp.anchor, anchored]

/-- What stands in front of the pattern opens a group around it. -/
theorem finish?_anchored (p : List Char) :
    (Reading.start.on (anchored p)).finish? =
      ((Reading.start.within [anchorLevel]).on (p ++ [')', '$'])).finish? := by
  have hcaret : (Reading.start.on (anchored p)).finish? =
      ((Reading.start.push ⟨.look .textStart, 0, false⟩ []).on
        ('(' :: '?' :: ':' :: (p ++ [')', '$']))).finish? :=
    Reading.finish?_on_cons rfl '^' _
  have hgroup : ((Reading.start.push ⟨.look .textStart, 0, false⟩ []).on
      ('(' :: '?' :: ':' :: (p ++ [')', '$']))).finish? =
      ((Reading.start.within [anchorLevel]).on (p ++ [')', '$'])).finish? :=
    Reading.finish?_on_cons (r := Reading.start.push ⟨.look .textStart, 0, false⟩ []) rfl '(' _
  exact hcaret.trans hgroup

/-- What stands behind the pattern closes the group, and the end of the text follows. -/
theorem finish?_closing (houter : s.outer = []) :
    ((s.within [anchorLevel]).on [')', '$']).finish? =
      some { s with
        level := (anchorLevel.add s.level.close).add ⟨.look .textEnd, 0, false⟩
        outer := []
        rest := [] } := by
  have hskip := skip_paren s.level.flags ['$']
  rw [Reading.finish?_of_skip_cons (r := s.within [anchorLevel]) hskip, Reading.step?,
    Reading.closeGroup?]
  simp only [Reading.within, houter, List.nil_append, Option.bind_some]
  exact Reading.finish?_on_cons
    (r := { s with level := anchorLevel.add s.level.close, outer := [] }) rfl '$' []

/-- A parenthesis behind a pattern closes a group that was not opened. -/
theorem not_valid_of_keeps (h : Reading.start.Keeps p s) (houter : s.outer = []) :
    ¬Valid (p ++ [')']) := by
  have hparen : (Reading.start.on (p ++ [')'])).finish? = ((s.within []).on [')']).finish? :=
    h [] []
  have hclose : s.closeGroup? [] = none := by rw [Reading.closeGroup?, houter]
  have hskip := skip_paren s.level.flags []
  rw [Reading.finish?_of_skip_cons (r := s.within []) hskip,
    Reading.within, houter] at hparen
  rw [valid_iff, hparen]
  rintro ⟨r, hr, -⟩
  exact Option.some_ne_none r hr.symm

/-- A comment at the end of a pattern takes in a parenthesis behind it. -/
theorem valid_of_hides (h : Reading.start.Hides p s) (houter : s.outer = []) :
    Valid (p ++ [')']) := by
  obtain ⟨rest, hrest⟩ := h.2 [] [] List.not_mem_nil
  refine valid_iff.mpr ⟨_, hrest, ?_⟩
  rw [Reading.on, Reading.within, houter, List.append_nil]

/-- Only a pattern with a number sign can end in a comment. -/
theorem mem_of_valid_paren (h : Valid p) (hparen : Valid (p ++ [')'])) : '#' ∈ p := by
  obtain ⟨s, hs, houter⟩ := valid_iff.mp h
  rcases Reading.keeps_or_hides hs with hkeeps | hhides
  · exact absurd hparen (not_valid_of_keeps hkeeps houter)
  · exact hhides.1

/-- The outermost group is not a capturing one. -/
theorem number_eq_none (h : (Reading.start.on p).finish? = some s) (houter : s.outer = []) :
    s.level.number = none := by
  have hstart : Reading.start.Unnumbered := rfl
  have hnumber := hstart.finish? h
  rw [Reading.Unnumbered, Reading.numbers, houter] at hnumber
  exact Option.some.inj hnumber

/-- The expression of a valid pattern in the group, between the start and the end of the text. There
is none where the pattern ends in a comment, so that a parenthesis behind it changes nothing. -/
theorem nested?_anchored_iff {e : Expr} {depth : Nat} (h : Expr.nested? p = some (e, depth))
    {x : Expr × Nat} :
    Expr.nested? (anchored p) = some x ↔
      ¬Valid (p ++ [')']) ∧ x = (.seq [.look .textStart, e, .look .textEnd], depth + 2) := by
  obtain ⟨s, hs, houter, hbody⟩ := nested?_eq_some_iff.mp h
  rw [nested?_eq_some_iff, finish?_anchored]
  rcases Reading.keeps_or_hides hs with hkeeps | hhides
  · rw [hkeeps ['$'] [anchorLevel], finish?_closing houter]
    have hwhole : ((anchorLevel.add s.level.close).add ⟨.look .textEnd, 0, false⟩).body =
        (.seq [.look .textStart, e, .look .textEnd], depth + 2) := by
      have hclose : s.level.close = ⟨e, depth + 1, false⟩ := by
        rw [Level.close, number_eq_none hs houter, hbody]
        rfl
      rw [hclose]
      simp [Level.body, Level.branch, Level.add, anchorLevel]
    have hvalid := not_valid_of_keeps hkeeps houter
    constructor
    · rintro ⟨r, hr, -, rfl⟩
      obtain rfl := Option.some.inj hr
      exact ⟨hvalid, hwhole⟩
    · rintro ⟨-, rfl⟩
      exact ⟨_, rfl, rfl, hwhole⟩
  · have hvalid := valid_of_hides hhides houter
    obtain ⟨rest, hrest⟩ := hhides.2 ['$'] [anchorLevel] (by decide)
    rw [hrest]
    constructor
    · rintro ⟨r, hr, hopen, -⟩
      obtain rfl := Option.some.inj hr
      exact absurd (List.append_eq_nil_iff.mp hopen).2 (List.cons_ne_nil _ _)
    · exact fun hx => absurd hvalid hx.1

/-- A pattern that is only valid in the group has a parenthesis that closes the group, behind a
valid pattern. -/
theorem exists_valid_front (h : ¬Valid p) (hanchored : Valid (anchored p)) :
    ∃ front rest, p = front ++ ')' :: rest ∧ Valid front ∧ ¬Valid (front ++ [')']) := by
  obtain ⟨s, hs, houter⟩ := valid_iff.mp hanchored
  rw [finish?_anchored] at hs
  obtain ⟨front, behind, s', hsplit, hfront, houter', hkeeps⟩ :=
    Reading.exists_keeps_of_closed hs (List.cons_ne_nil _ _) houter
  have hvalid : Valid front := valid_iff.mpr ⟨s', hfront, houter'⟩
  have hne : p ≠ front := fun heq => h (heq ▸ hvalid)
  rcases List.append_eq_append_iff.mp hsplit with ⟨more, rfl, hmore⟩ | ⟨more, rfl, hmore⟩
  · cases more with
    | nil => exact absurd (List.append_nil p).symm hne
    | cons c more =>
      obtain ⟨-, hmore⟩ := List.cons.inj hmore
      cases more with
      | nil => simp at hmore
      | cons d more => simp at hmore
  · cases more with
    | nil => exact absurd (List.append_nil front) hne
    | cons c more =>
      obtain ⟨rfl, -⟩ := List.cons.inj hmore
      exact ⟨front, more, rfl, hvalid, not_valid_of_keeps hkeeps houter'⟩

end Percolator.Pattern
