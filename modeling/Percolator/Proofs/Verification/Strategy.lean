import Percolator.Proofs.Float.Positive
import Percolator.Proofs.Sorted
import Percolator.Proofs.Verification.Ledger
import Percolator.Verification.Strategy

/-!
# What strategies combine

Two matches of one query come to the same whichever of them was known before: a match without
further knowledge is like any other, positive scores are ordered, so that one of them is the
highest, and a set of hits does not remember the order of its parts.

## Main definitions

* `Strategy.Finds` : what a strategy can find out about a match.
* `Strategy.BuiltIn` : the strategies there are.

## Main results

* `Strategy.BuiltIn.combines` : the laws of combining what a strategy finds.
-/

namespace Percolator

namespace Strategy

variable {α : Type} {s : Strategy α}

/-- The strategy can find that out about a match. -/
def Finds (s : Strategy α) (known : α) : Prop :=
  ∃ (d : DocumentIndex) (c : Candidate), s.verify d c = .ok (some known)

/-- The strategies of verification. -/
inductive BuiltIn : {α : Type} → Strategy α → Prop
  | simple : BuiltIn simple
  | scoring : BuiltIn scoring
  | highlighting : BuiltIn highlighting

theorem combines_simple : Combines simple.combine fun _ => True where
  id_eq _ _ hid := hid.symm
  closed _ _ _ _ _ := trivial
  comm _ _ hid _ _ := congrArg₂ Match.mk hid.symm rfl
  assoc _ _ _ _ _ _ _ _ := rfl

theorem combine_scoring_of_lt {a b : Match Float32} (h : a.known < b.known) :
    scoring.combine a b = b := if_pos h

theorem combine_scoring_of_not_lt {a b : Match Float32} (h : ¬a.known < b.known) :
    scoring.combine a b = a := if_neg h

theorem combines_scoring : Combines scoring.combine fun m => 0 < m.known where
  id_eq a b h := by
    by_cases hlt : a.known < b.known
    · rw [combine_scoring_of_lt hlt, h]
    · rw [combine_scoring_of_not_lt hlt]
  closed a b _ ha hb := by
    by_cases hlt : a.known < b.known
    · rwa [combine_scoring_of_lt hlt]
    · rwa [combine_scoring_of_not_lt hlt]
  comm a b h ha hb := by
    have hab := lt_iff_toBits_lt ha hb
    have hba := lt_iff_toBits_lt hb ha
    by_cases hlt : a.known < b.known
    · have hngt : ¬b.known < a.known := fun hgt => Nat.lt_asymm (hab.mp hlt) (hba.mp hgt)
      rw [combine_scoring_of_lt hlt, combine_scoring_of_not_lt hngt]
    · rw [combine_scoring_of_not_lt hlt]
      by_cases hgt : b.known < a.known
      · rw [combine_scoring_of_lt hgt]
      · have hknown : a.known = b.known := toBits_injective <|
          Nat.le_antisymm (Nat.not_lt.mp (mt hba.mpr hgt)) (Nat.not_lt.mp (mt hab.mpr hlt))
        rw [combine_scoring_of_not_lt hgt]
        cases a
        cases b
        exact congrArg₂ Match.mk h hknown
  assoc a b c _ _ ha hb hc := by
    have hab := lt_iff_toBits_lt ha hb
    have hbc := lt_iff_toBits_lt hb hc
    have hac := lt_iff_toBits_lt ha hc
    by_cases hlt : a.known < b.known <;> by_cases hlt' : b.known < c.known
    · have hlt'' : a.known < c.known := hac.mpr (Nat.lt_trans (hab.mp hlt) (hbc.mp hlt'))
      rw [combine_scoring_of_lt hlt, combine_scoring_of_lt hlt', combine_scoring_of_lt hlt'']
    · rw [combine_scoring_of_lt hlt, combine_scoring_of_not_lt hlt', combine_scoring_of_lt hlt]
    · rw [combine_scoring_of_not_lt hlt, combine_scoring_of_lt hlt']
    · have hnlt : ¬a.known < c.known := by
        rw [hab] at hlt
        rw [hbc] at hlt'
        rw [hac]
        omega
      rw [combine_scoring_of_not_lt hlt, combine_scoring_of_not_lt hlt',
        combine_scoring_of_not_lt hnlt, combine_scoring_of_not_lt hlt]

theorem combines_highlighting :
    Combines highlighting.combine fun m => Sorted.Increasing m.known where
  id_eq _ _ _ := rfl
  closed _ _ _ ha hb := Sorted.increasing_union ha hb
  comm _ _ h ha hb := congrArg₂ Match.mk h (Sorted.union_comm ha hb)
  assoc a _ _ _ _ ha hb hc := congrArg (Match.mk a.id) (Sorted.union_assoc ha hb hc)

theorem pos_of_finds {known : Float32} (h : scoring.Finds known) : 0 < known := by
  obtain ⟨d, c, hverify⟩ := h
  simp only [scoring] at hverify
  cases hscore : c.query.score d with
  | error fault => simp only [hscore, bind, Except.bind, reduceCtorEq] at hverify
  | ok score =>
    simp only [hscore, bind, Except.bind] at hverify
    split at hverify
    · next hpos =>
      obtain rfl := Option.some.inj (Except.ok.inj hverify)
      exact hpos
    · simp only [Except.ok.injEq, reduceCtorEq] at hverify

/-- Every positive score is that of a match. -/
theorem finds_of_pos {score : Float32} (h : 0 < score) : scoring.Finds score :=
  ⟨{}, ⟨"", .all score, none⟩, congrArg Except.ok (if_pos h)⟩

theorem increasing_of_finds {known : List Hit} (h : highlighting.Finds known) :
    Sorted.Increasing known := by
  obtain ⟨d, c, hverify⟩ := h
  simp only [highlighting, bind, Except.bind] at hverify
  split at hverify
  · simp only [reduceCtorEq] at hverify
  · split at hverify
    · split at hverify
      · simp only [reduceCtorEq] at hverify
      · next hits _ =>
        obtain rfl := Option.some.inj (Except.ok.inj hverify)
        exact Sorted.increasing_ofList hits
    · simp only [Except.ok.injEq, reduceCtorEq] at hverify

/-- What a strategy finds out about matches of one query can be combined in any order. -/
theorem BuiltIn.combines (h : s.BuiltIn) :
    ∃ P, Combines s.combine P ∧ ∀ m : Match α, s.Finds m.known → P m := by
  cases h with
  | simple => exact ⟨_, combines_simple, fun _ _ => trivial⟩
  | scoring => exact ⟨_, combines_scoring, fun _ hfinds => pos_of_finds hfinds⟩
  | highlighting => exact ⟨_, combines_highlighting, fun _ hfinds => increasing_of_finds hfinds⟩

end Strategy

end Percolator
