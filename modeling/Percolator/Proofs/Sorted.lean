import Mathlib.Data.List.Perm.Basic
import Mathlib.Tactic.Tauto
import Percolator.Document.Index
import Percolator.Presearch.Term

/-!
# Laws of sorted lists

A sorted list is determined by its members, so the union of sorted lists is commutative and
associative. Hits and key terms are ordered lexicographically, hence by a lawful order.

## Main results

* `Sorted.mem_union` : the members of a union.
* `Sorted.union_comm`, `Sorted.union_assoc` : the order of unions does not matter.
-/

namespace Percolator.Sorted

open Std

variable {α : Type} [Ord α]

/-- The list is increasing, without repetitions. -/
def Increasing (as : List α) : Prop := as.Pairwise (compare · · = .lt)

theorem insert_ne_nil (a : α) (as : List α) : insert a as ≠ [] := by
  cases as with
  | nil => exact List.cons_ne_nil _ _
  | cons b as =>
    simp only [insert]
    split <;> exact List.cons_ne_nil _ _

theorem ofList_ne_nil_iff {as : List α} : ofList as ≠ [] ↔ as ≠ [] := by
  cases as with
  | nil => exact Iff.rfl
  | cons a as => exact iff_of_true (insert_ne_nil a (ofList as)) (List.cons_ne_nil a as)

theorem mem_of_mem_diff {a : α} {as bs : List α} (h : a ∈ diff as bs) : a ∈ as := by
  fun_induction diff as bs with
  | case1 => exact h
  | case2 => exact h
  | case3 b as c bs hlt ih =>
    rcases List.mem_cons.mp h with rfl | h
    · exact List.mem_cons_self
    · exact List.mem_cons_of_mem _ (ih h)
  | case4 b as c bs heq ih => exact List.mem_cons_of_mem _ (ih h)
  | case5 b as c bs hgt ih => exact ih h

section Members

variable [LawfulEqOrd α]

theorem mem_insert {a b : α} {as : List α} : b ∈ insert a as ↔ b = a ∨ b ∈ as := by
  induction as with
  | nil => simp only [insert, List.mem_singleton, List.not_mem_nil, or_false]
  | cons c as ih =>
    simp only [insert]
    split
    · exact List.mem_cons
    · next h =>
      have hac : a = c := LawfulEqCmp.eq_of_compare h
      subst hac
      simp only [List.mem_cons, or_self_left]
    · simp only [List.mem_cons, ih]
      exact or_left_comm

theorem mem_ofList {a : α} {as : List α} : a ∈ ofList as ↔ a ∈ as := by
  induction as with
  | nil => exact Iff.rfl
  | cons b as ih =>
    have hb : ofList (b :: as) = insert b (ofList as) := rfl
    rw [hb, mem_insert, ih, List.mem_cons]

theorem mem_union {a : α} {as bs : List α} : a ∈ union as bs ↔ a ∈ as ∨ a ∈ bs := by
  fun_induction union as bs with
  | case1 bs => simp only [List.not_mem_nil, false_or]
  | case2 as _ => simp only [List.not_mem_nil, or_false]
  | case3 b as c bs h ih => simp only [List.mem_cons, ih, or_assoc]
  | case4 b as c bs h ih =>
    have hbc : b = c := LawfulEqCmp.eq_of_compare h
    subst hbc
    simp only [List.mem_cons, ih]
    tauto
  | case5 b as c bs h ih =>
    simp only [List.mem_cons, ih]
    tauto

theorem mem_diff_of_not_mem {a : α} {as bs : List α} (h : a ∈ as) (hnot : a ∉ bs) :
    a ∈ diff as bs := by
  fun_induction diff as bs with
  | case1 => exact h
  | case2 => exact h
  | case3 b as c bs hlt ih =>
    rcases List.mem_cons.mp h with rfl | h
    · exact List.mem_cons_self
    · exact List.mem_cons_of_mem _ (ih h hnot)
  | case4 b as c bs heq ih =>
    obtain rfl : b = c := LawfulEqCmp.eq_of_compare heq
    exact ih ((List.mem_cons.mp h).resolve_left (List.ne_of_not_mem_cons hnot))
      (List.not_mem_of_not_mem_cons hnot)
  | case5 b as c bs hgt ih => exact ih h (List.not_mem_of_not_mem_cons hnot)

end Members

section Order

variable [TransOrd α] [LawfulEqOrd α]

theorem increasing_insert {a : α} {as : List α} (h : Increasing as) : Increasing (insert a as) := by
  induction as with
  | nil => exact List.pairwise_singleton _ _
  | cons b as ih =>
    obtain ⟨hb, has⟩ := List.pairwise_cons.mp h
    simp only [insert]
    split
    · next hab =>
      refine List.pairwise_cons.mpr ⟨fun c hc => ?_, h⟩
      rcases List.mem_cons.mp hc with rfl | hc
      · exact hab
      · exact TransCmp.lt_trans hab (hb c hc)
    · exact h
    · next hab =>
      refine List.pairwise_cons.mpr ⟨fun c hc => ?_, ih has⟩
      rcases mem_insert.mp hc with rfl | hc
      · exact OrientedCmp.lt_of_gt hab
      · exact hb c hc

theorem increasing_ofList (as : List α) : Increasing (ofList as) := by
  induction as with
  | nil => exact List.Pairwise.nil
  | cons a as ih => exact increasing_insert ih

theorem increasing_union {as bs : List α} (ha : Increasing as) (hb : Increasing bs) :
    Increasing (union as bs) := by
  fun_induction union as bs with
  | case1 bs => exact hb
  | case2 as _ => exact ha
  | case3 a as b bs h ih =>
    obtain ⟨haas, has⟩ := List.pairwise_cons.mp ha
    refine List.pairwise_cons.mpr ⟨fun c hc => ?_, ih has hb⟩
    rcases mem_union.mp hc with hc | hc
    · exact haas c hc
    · rcases List.mem_cons.mp hc with rfl | hc
      · exact h
      · exact TransCmp.lt_trans h ((List.pairwise_cons.mp hb).1 c hc)
  | case4 a as b bs h ih =>
    have hab : a = b := LawfulEqCmp.eq_of_compare h
    subst hab
    obtain ⟨haas, has⟩ := List.pairwise_cons.mp ha
    obtain ⟨habs, hbs⟩ := List.pairwise_cons.mp hb
    refine List.pairwise_cons.mpr ⟨fun c hc => ?_, ih has hbs⟩
    rcases mem_union.mp hc with hc | hc
    · exact haas c hc
    · exact habs c hc
  | case5 a as b bs h ih =>
    obtain ⟨hbbs, hbs⟩ := List.pairwise_cons.mp hb
    have hba : compare b a = .lt := OrientedCmp.lt_of_gt h
    refine List.pairwise_cons.mpr ⟨fun c hc => ?_, ih ha hbs⟩
    rcases mem_union.mp hc with hc | hc
    · rcases List.mem_cons.mp hc with rfl | hc
      · exact hba
      · exact TransCmp.lt_trans hba ((List.pairwise_cons.mp ha).1 c hc)
    · exact hbbs c hc

/-- An increasing list is determined by its members. -/
theorem Increasing.ext {as bs : List α} (ha : Increasing as) (hb : Increasing bs)
    (h : ∀ a, a ∈ as ↔ a ∈ bs) : as = bs := by
  have nodup : ∀ {cs : List α}, Increasing cs → cs.Nodup := fun hc =>
    hc.imp fun hlt heq => by subst heq; simp only [ReflOrd.compare_self, reduceCtorEq] at hlt
  refine List.Perm.eq_of_pairwise (fun a b _ _ hab hba => ?_) ha hb
    ((List.perm_ext_iff_of_nodup (nodup ha) (nodup hb)).mpr h)
  exact absurd hba (OrientedCmp.not_lt_of_lt hab)

theorem union_comm {as bs : List α} (ha : Increasing as) (hb : Increasing bs) :
    union as bs = union bs as :=
  (increasing_union ha hb).ext (increasing_union hb ha) fun a => by
    simp only [mem_union, or_comm]

theorem union_assoc {as bs cs : List α} (ha : Increasing as) (hb : Increasing bs)
    (hc : Increasing cs) : union (union as bs) cs = union as (union bs cs) :=
  (increasing_union (increasing_union ha hb) hc).ext
    (increasing_union ha (increasing_union hb hc)) fun a => by
    simp only [mem_union, or_assoc]

end Order

end Percolator.Sorted

namespace Percolator

open Std

/-! ### The orders of hits and of key terms -/

theorem KeyKind.rank_injective : Function.Injective KeyKind.rank := by
  intro a b h
  cases a <;> cases b <;> simp_all [KeyKind.rank]

instance : TransOrd KeyTerm :=
  inferInstanceAs (TransCmp (compareLex (compareOn KeyTerm.field)
    (compareLex (compareOn KeyTerm.text) (compareOn (KeyKind.rank ∘ KeyTerm.kind)))))

instance : LawfulEqOrd KeyTerm where
  eq_of_compare {s t} h := by
    obtain ⟨hfield, htext, hkind⟩ : compare s.field t.field = .eq ∧
        compare s.text t.text = .eq ∧ compare s.kind.rank t.kind.rank = .eq := by
      simpa only [compare, KeyTerm.compare, Ordering.then_eq_eq] using h
    cases s
    cases t
    simp only [KeyTerm.mk.injEq]
    exact ⟨LawfulEqOrd.eq_of_compare hfield, LawfulEqOrd.eq_of_compare htext,
      KeyKind.rank_injective (LawfulEqOrd.eq_of_compare hkind)⟩

instance : TransOrd Hit :=
  inferInstanceAs (TransCmp (compareLex (compareOn Hit.field)
    (compareLex (compareOn Hit.startPosition) (compareLex (compareOn Hit.endPosition)
      (compareLex (compareOn Hit.startOffset) (compareOn Hit.endOffset))))))

instance : LawfulEqOrd Hit where
  eq_of_compare {a b} h := by
    obtain ⟨hfield, hstart, hend, hfirst, hlast⟩ : compare a.field b.field = .eq ∧
        compare a.startPosition b.startPosition = .eq ∧
        compare a.endPosition b.endPosition = .eq ∧
        compare a.startOffset b.startOffset = .eq ∧ compare a.endOffset b.endOffset = .eq := by
      simpa only [compare, Hit.compare, Ordering.then_eq_eq] using h
    cases a
    cases b
    simp only [Hit.mk.injEq]
    exact ⟨LawfulEqOrd.eq_of_compare hfield, LawfulEqOrd.eq_of_compare hstart,
      LawfulEqOrd.eq_of_compare hend, LawfulEqOrd.eq_of_compare hfirst,
      LawfulEqOrd.eq_of_compare hlast⟩

end Percolator
