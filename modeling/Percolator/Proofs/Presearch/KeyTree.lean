import Percolator.Presearch.Tree
import Percolator.Proofs.Sorted

/-!
# What key trees say

A key tree is true of a document, relative to an assignment of truth values to key terms. The
builders of trees mean what their names say, although they flatten, drop repetitions and drop trees
that every document has. The terms of a tree cover it: where the tree is true, one of its terms is.
This does not depend on the weights, which only choose the part whose terms stand for a conjunction.

## Main definitions

* `KeyTree.Holds` : the tree is true under an assignment.
* `KeyTree.Proper` : no node of the tree is without parts.
* `KeyTree.Composed`, `KeyTree.Built` : the tree is put together by the builders.

## Main results

* `KeyTree.conjunction_cases`, `KeyTree.disjunction_cases` : what the builders put together.
* `KeyTree.holds_conjunction`, `KeyTree.holds_disjunction` : the meaning of the builders.
* `KeyTree.exists_mem_terms` : the terms of a tree cover it.
* `KeyTree.meaning_and_cover` : both, for all trees that the builders put together.
-/

namespace Percolator.KeyTree

variable {φ : KeyTerm → Prop}

mutual

/-- The tree is true where the key terms that satisfy `φ` are. -/
def Holds (φ : KeyTerm → Prop) : KeyTree → Prop
  | .leaf term _ => φ term
  | .all parts _ => HoldsAll φ parts
  | .oneOf parts _ => HoldsSome φ parts
  | .everything field text => φ ⟨field, text, .any⟩

/-- All of the trees are true. -/
def HoldsAll (φ : KeyTerm → Prop) : List KeyTree → Prop
  | [] => True
  | tree :: rest => Holds φ tree ∧ HoldsAll φ rest

/-- One of the trees is true. -/
def HoldsSome (φ : KeyTerm → Prop) : List KeyTree → Prop
  | [] => False
  | tree :: rest => Holds φ tree ∨ HoldsSome φ rest

end

theorem holdsAll_iff {trees : List KeyTree} : HoldsAll φ trees ↔ ∀ tree ∈ trees, Holds φ tree := by
  induction trees with
  | nil => simp only [HoldsAll, List.not_mem_nil, false_implies, implies_true]
  | cons tree rest ih => simp only [HoldsAll, ih, List.forall_mem_cons]

theorem holdsSome_iff {trees : List KeyTree} :
    HoldsSome φ trees ↔ ∃ tree ∈ trees, Holds φ tree := by
  induction trees with
  | nil => simp only [HoldsSome, List.not_mem_nil, false_and, exists_false]
  | cons tree rest ih => simp only [HoldsSome, ih, List.exists_mem_cons_iff]

mutual

/-- Every node of the tree that puts parts together has some. -/
def Proper : KeyTree → Prop
  | .leaf _ _ => True
  | .all parts _ => parts ≠ [] ∧ ProperAll parts
  | .oneOf parts _ => parts ≠ [] ∧ ProperAll parts
  | .everything _ _ => True

/-- The trees are proper. -/
def ProperAll : List KeyTree → Prop
  | [] => True
  | tree :: rest => Proper tree ∧ ProperAll rest

end

theorem properAll_iff {trees : List KeyTree} : ProperAll trees ↔ ∀ tree ∈ trees, Proper tree := by
  induction trees with
  | nil => simp only [ProperAll, List.not_mem_nil, false_implies, implies_true]
  | cons tree rest ih => simp only [ProperAll, ih, List.forall_mem_cons]

/-! ### Trees that are the same -/

mutual

theorem Holds.congr_same : (a b : KeyTree) → same a b = true → (Holds φ a ↔ Holds φ b)
  | .leaf s v, .leaf t w, h => by
    simp only [same, Bool.and_eq_true, beq_iff_eq] at h
    simp only [Holds, h.1]
  | .all as v, .all bs w, h => by
    simp only [same, Bool.and_eq_true] at h
    exact (congr_sameEach as bs h.1).1
  | .oneOf as v, .oneOf bs w, h => by
    simp only [same, Bool.and_eq_true] at h
    exact (congr_sameEach as bs h.1).2
  | .everything f s, .everything g t, h => by
    simp only [same, Bool.and_eq_true, beq_iff_eq] at h
    simp only [Holds, h.1, h.2]
  | .leaf _ _, .all _ _, h | .leaf _ _, .oneOf _ _, h | .leaf _ _, .everything _ _, h
  | .all _ _, .leaf _ _, h | .all _ _, .oneOf _ _, h | .all _ _, .everything _ _, h
  | .oneOf _ _, .leaf _ _, h | .oneOf _ _, .all _ _, h | .oneOf _ _, .everything _ _, h
  | .everything _ _, .leaf _ _, h | .everything _ _, .all _ _, h
  | .everything _ _, .oneOf _ _, h => by simp only [same, Bool.false_eq_true] at h

theorem congr_sameEach : (as bs : List KeyTree) → sameEach as bs = true →
    (HoldsAll φ as ↔ HoldsAll φ bs) ∧ (HoldsSome φ as ↔ HoldsSome φ bs)
  | [], [], _ => ⟨Iff.rfl, Iff.rfl⟩
  | a :: as, b :: bs, h => by
    simp only [sameEach, Bool.and_eq_true] at h
    have hhead := Holds.congr_same a b h.1
    have htail := congr_sameEach as bs h.2
    simp only [HoldsAll, HoldsSome, hhead, htail.1, htail.2, and_self]
  | [], _ :: _, h | _ :: _, [], h => by simp only [sameEach, Bool.false_eq_true] at h

end

theorem mem_of_mem_foldl_addTo {trees acc : List KeyTree} {tree : KeyTree}
    (h : tree ∈ trees.foldl addTo acc) : tree ∈ acc ∨ tree ∈ trees := by
  induction trees generalizing acc with
  | nil => exact .inl h
  | cons first rest ih =>
    rcases ih h with h | h
    · simp only [addTo] at h
      split at h
      · exact .inl h
      · rcases List.mem_append.mp h with h | h
        · exact .inl h
        · exact .inr (List.mem_cons.mpr (.inl (List.mem_singleton.mp h)))
    · exact .inr (List.mem_cons_of_mem _ h)

theorem mem_addTo_of_mem {trees : List KeyTree} {tree other : KeyTree} (h : tree ∈ trees) :
    tree ∈ addTo trees other := by
  simp only [addTo]
  split
  · exact h
  · exact List.mem_append_left _ h

theorem mem_foldl_addTo_of_mem {trees acc : List KeyTree} {tree : KeyTree} (h : tree ∈ acc) :
    tree ∈ trees.foldl addTo acc := by
  induction trees generalizing acc with
  | nil => exact h
  | cons first rest ih => exact ih (mem_addTo_of_mem h)

/-- Behind the removal of repetitions each tree, or one that is the same, is still there. -/
theorem exists_same_mem_foldl_addTo (acc : List KeyTree) {trees : List KeyTree} {tree : KeyTree}
    (h : tree ∈ trees) :
    ∃ other ∈ trees.foldl addTo acc, other = tree ∨ other.same tree = true := by
  induction trees generalizing acc with
  | nil => exact absurd h List.not_mem_nil
  | cons first rest ih =>
    rcases List.mem_cons.mp h with rfl | h
    · by_cases hany : acc.any (·.same tree) = true
      · obtain ⟨other, hother, hsame⟩ := List.any_eq_true.mp hany
        exact ⟨other, mem_foldl_addTo_of_mem hother, .inr hsame⟩
      · refine ⟨tree, ?_, .inl rfl⟩
        rw [List.foldl_cons, addTo, if_neg hany]
        refine mem_foldl_addTo_of_mem ?_
        exact List.mem_append_right _ (List.mem_singleton.mpr rfl)
    · exact ih _ h

/-! ### The removal of repetitions -/

theorem holdsAll_foldl_addTo {trees : List KeyTree} :
    HoldsAll φ (trees.foldl addTo []) ↔ HoldsAll φ trees := by
  simp only [holdsAll_iff]
  constructor
  · intro h tree htree
    obtain ⟨other, hother, rfl | hsame⟩ := exists_same_mem_foldl_addTo [] htree
    · exact h other hother
    · exact (Holds.congr_same other tree hsame).mp (h other hother)
  · intro h tree htree
    rcases mem_of_mem_foldl_addTo htree with htree | htree
    · exact absurd htree List.not_mem_nil
    · exact h tree htree

theorem holdsSome_foldl_addTo {trees : List KeyTree} :
    HoldsSome φ (trees.foldl addTo []) ↔ HoldsSome φ trees := by
  simp only [holdsSome_iff]
  constructor
  · rintro ⟨tree, htree, hholds⟩
    rcases mem_of_mem_foldl_addTo htree with htree | htree
    · exact absurd htree List.not_mem_nil
    · exact ⟨tree, htree, hholds⟩
  · rintro ⟨tree, htree, hholds⟩
    obtain ⟨other, hother, rfl | hsame⟩ := exists_same_mem_foldl_addTo [] htree
    · exact ⟨other, hother, hholds⟩
    · exact ⟨other, hother, (Holds.congr_same other tree hsame).mpr hholds⟩

theorem foldl_addTo_eq_nil {trees : List KeyTree} (h : trees.foldl addTo [] = []) : trees = [] := by
  cases trees with
  | nil => rfl
  | cons tree rest =>
    obtain ⟨other, hother, -⟩ := exists_same_mem_foldl_addTo []
      (List.mem_cons_self : tree ∈ tree :: rest)
    rw [h] at hother
    exact absurd hother List.not_mem_nil

/-! ### The builders -/

/-- Every document has the trees that stand for every document. -/
def Universal (φ : KeyTerm → Prop) : Prop := ∀ field text, φ ⟨field, text, .any⟩

theorem exists_of_isEverything {tree : KeyTree} (h : tree.isEverything = true) :
    ∃ field text, tree = .everything field text := by
  cases tree with
  | everything field text => exact ⟨field, text, rfl⟩
  | leaf _ _ | all _ _ | oneOf _ _ => simp only [isEverything, Bool.false_eq_true] at h

theorem holds_of_isEverything (hφ : Universal φ) {tree : KeyTree}
    (h : tree.isEverything = true) : Holds φ tree := by
  obtain ⟨field, text, rfl⟩ := exists_of_isEverything h
  exact hφ field text

theorem holds_any (hφ : Universal φ) (field : String) : Holds φ (any field) := hφ field ""

@[simp] theorem holds_ofTerm {weights : Weights} {t : KeyTerm} :
    Holds φ (ofTerm weights t) ↔ φ t := by
  obtain ⟨field, text, kind⟩ := t
  cases kind <;> exact Iff.rfl

theorem holdsAll_conjuncts (hφ : Universal φ) {tree : KeyTree} :
    HoldsAll φ tree.conjuncts ↔ Holds φ tree := by
  cases tree with
  | all parts weight => exact Iff.rfl
  | everything field text => exact iff_of_true trivial (hφ field text)
  | leaf _ _ | oneOf _ _ => simp only [conjuncts, HoldsAll, and_true]

theorem holdsSome_disjuncts {tree : KeyTree} : HoldsSome φ tree.disjuncts ↔ Holds φ tree := by
  cases tree with
  | oneOf parts weight => exact Iff.rfl
  | all _ _ | everything _ _ | leaf _ _ => simp only [disjuncts, HoldsSome, or_false]

theorem holdsAll_flatMap_conjuncts (hφ : Universal φ) {trees : List KeyTree} :
    HoldsAll φ (trees.flatMap conjuncts) ↔ HoldsAll φ trees := by
  simp only [holdsAll_iff, List.mem_flatMap]
  constructor
  · exact fun h tree htree => (holdsAll_conjuncts hφ).mp
      (holdsAll_iff.mpr fun part hpart => h part ⟨tree, htree, hpart⟩)
  · rintro h part ⟨tree, htree, hpart⟩
    exact holdsAll_iff.mp ((holdsAll_conjuncts hφ).mpr (h tree htree)) part hpart

theorem holdsSome_flatMap_disjuncts {trees : List KeyTree} :
    HoldsSome φ (trees.flatMap disjuncts) ↔ HoldsSome φ trees := by
  simp only [holdsSome_iff, List.mem_flatMap]
  constructor
  · rintro ⟨part, ⟨tree, htree, hpart⟩, hholds⟩
    exact ⟨tree, htree, holdsSome_disjuncts.mp (holdsSome_iff.mpr ⟨part, hpart, hholds⟩)⟩
  · rintro ⟨tree, htree, hholds⟩
    obtain ⟨part, hpart, hholds⟩ := holdsSome_iff.mp (holdsSome_disjuncts.mpr hholds)
    exact ⟨part, ⟨tree, htree, hpart⟩, hholds⟩

theorem ne_nil_of_several {parts : List KeyTree} (h : 1 < parts.length) : parts ≠ [] :=
  List.ne_nil_of_length_pos (Nat.zero_lt_of_lt h)

/-- A conjunction has no parts and stands for every document, or it is its only part, or it is a
node over several parts. -/
theorem conjunction_cases (trees : List KeyTree) {parts : List KeyTree}
    (h : (trees.flatMap conjuncts).foldl addTo [] = parts) :
    (parts = [] ∧ ∃ field text, conjunction trees = .everything field text) ∨
      parts = [conjunction trees] ∨
      (1 < parts.length ∧ conjunction trees =
        .all parts ((parts.map weight).foldl Weights.lower Weights.infinite)) := by
  simp only [conjunction, h]
  cases parts with
  | nil =>
    refine .inl ⟨rfl, ?_⟩
    cases hfind : trees.find? isEverything with
    | none => exact ⟨"", "", rfl⟩
    | some tree => exact exists_of_isEverything (List.find?_some hfind)
  | cons first rest =>
    cases rest with
    | nil => exact .inr (.inl rfl)
    | cons second rest => exact .inr (.inr ⟨Nat.one_lt_succ_succ rest.length, rfl⟩)

/-- A disjunction is a tree that every document has. Or none of the trees is such a one, and the
disjunction has no parts and stands for every document, or it is its only part, or it is a node over
several parts. -/
theorem disjunction_cases (trees : List KeyTree) {parts : List KeyTree}
    (h : (trees.flatMap disjuncts).foldl addTo [] = parts) :
    (∃ tree ∈ trees, tree.isEverything = true ∧ disjunction trees = tree) ∨
      (∀ tree ∈ trees, tree.isEverything = false) ∧
        ((parts = [] ∧ disjunction trees = any "") ∨
          parts = [disjunction trees] ∨
          (1 < parts.length ∧ disjunction trees =
            .oneOf parts ((parts.map weight).foldl Weights.higher 0))) := by
  simp only [disjunction, h]
  cases hfind : trees.find? isEverything with
  | some tree =>
    exact .inl ⟨tree, List.mem_of_find?_eq_some hfind, List.find?_some hfind, rfl⟩
  | none =>
    refine .inr ⟨fun tree htree => ?_, ?_⟩
    · exact Bool.eq_false_iff.mpr (List.find?_eq_none.mp hfind tree htree)
    cases parts with
    | nil => exact .inl ⟨rfl, rfl⟩
    | cons first rest =>
      cases rest with
      | nil => exact .inr (.inl rfl)
      | cons second rest => exact .inr (.inr ⟨Nat.one_lt_succ_succ rest.length, rfl⟩)

/-- A conjunction is true where all of its trees are. -/
theorem holds_conjunction (hφ : Universal φ) {trees : List KeyTree} :
    Holds φ (conjunction trees) ↔ ∀ tree ∈ trees, Holds φ tree := by
  rw [← holdsAll_iff, ← holdsAll_flatMap_conjuncts hφ, ← holdsAll_foldl_addTo]
  rcases conjunction_cases trees rfl with ⟨hnil, field, text, heq⟩ | hone | ⟨-, heq⟩
  · rw [heq, hnil]
    exact iff_of_true (hφ field text) trivial
  · rw [hone]
    simp only [HoldsAll, and_true]
  · rw [heq]
    exact Iff.rfl

theorem disjuncts_ne_nil {tree : KeyTree} (h : Proper tree) : tree.disjuncts ≠ [] := by
  cases tree with
  | oneOf parts weight => exact h.1
  | all _ _ | everything _ _ | leaf _ _ => exact List.cons_ne_nil _ _

/-- A disjunction is true where one of its trees is, and where it has none. -/
theorem holds_disjunction (hφ : Universal φ) {trees : List KeyTree} (h : ProperAll trees) :
    Holds φ (disjunction trees) ↔ trees = [] ∨ ∃ tree ∈ trees, Holds φ tree := by
  rcases disjunction_cases trees rfl with ⟨tree, htree, heverything, heq⟩ | ⟨-, hcases⟩
  · have hholds := holds_of_isEverything hφ heverything
    rw [heq]
    exact iff_of_true hholds (.inr ⟨tree, htree, hholds⟩)
  · have hnil : (trees.flatMap disjuncts).foldl addTo [] = [] ↔ trees = [] := by
      refine ⟨fun hparts => List.eq_nil_iff_forall_not_mem.mpr fun tree htree => ?_, ?_⟩
      · exact disjuncts_ne_nil (properAll_iff.mp h tree htree)
          (List.flatMap_eq_nil_iff.mp (foldl_addTo_eq_nil hparts) tree htree)
      · rintro rfl
        rfl
    rw [← holdsSome_iff, ← holdsSome_flatMap_disjuncts, ← holdsSome_foldl_addTo, ← hnil]
    rcases hcases with ⟨hparts, heq⟩ | hone | ⟨hseveral, heq⟩
    · rw [heq]
      exact iff_of_true (holds_any hφ "") (.inl hparts)
    · rw [hone]
      simp only [HoldsSome, or_false, List.cons_ne_nil, false_or]
    · rw [heq, or_iff_right (ne_nil_of_several hseveral)]
      exact Iff.rfl

/-! ### Proper trees -/

theorem proper_of_mem_conjuncts {tree part : KeyTree} (h : Proper tree)
    (hpart : part ∈ tree.conjuncts) : Proper part := by
  cases tree with
  | all parts weight => exact properAll_iff.mp h.2 part hpart
  | everything field text => exact absurd hpart List.not_mem_nil
  | leaf _ _ | oneOf _ _ => rwa [List.mem_singleton.mp hpart]

theorem proper_of_mem_disjuncts {tree part : KeyTree} (h : Proper tree)
    (hpart : part ∈ tree.disjuncts) : Proper part := by
  cases tree with
  | oneOf parts weight => exact properAll_iff.mp h.2 part hpart
  | all _ _ | everything _ _ | leaf _ _ => rwa [List.mem_singleton.mp hpart]

theorem forall_mem_foldl_addTo {motive : KeyTree → Prop} {f : KeyTree → List KeyTree}
    {trees : List KeyTree} (h : ∀ tree ∈ trees, ∀ part ∈ f tree, motive part) :
    ∀ part ∈ (trees.flatMap f).foldl addTo [], motive part := by
  intro part hpart
  rcases mem_of_mem_foldl_addTo hpart with hpart | hpart
  · exact absurd hpart List.not_mem_nil
  · obtain ⟨tree, htree, hpart⟩ := List.mem_flatMap.mp hpart
    exact h tree htree part hpart

/-- What holds of trees that every document has, of what the trees contribute, and of a node over
trees that it holds of, holds of their conjunction. -/
theorem conjunction_induction {motive : KeyTree → Prop} {trees : List KeyTree}
    (heverything : ∀ field text, motive (.everything field text))
    (hpart : ∀ tree ∈ trees, ∀ part ∈ tree.conjuncts, motive part)
    (hall : ∀ parts, parts ≠ [] → (∀ part ∈ parts, motive part) →
      motive (.all parts ((parts.map weight).foldl Weights.lower Weights.infinite))) :
    motive (conjunction trees) := by
  have hparts := forall_mem_foldl_addTo hpart
  rcases conjunction_cases trees rfl with ⟨-, field, text, heq⟩ | hone | ⟨hseveral, heq⟩
  · rw [heq]
    exact heverything field text
  · rw [hone] at hparts
    exact hparts _ List.mem_cons_self
  · rw [heq]
    exact hall _ (ne_nil_of_several hseveral) hparts

/-- The same holds of their disjunction, with what the trees contribute to one. -/
theorem disjunction_induction {motive : KeyTree → Prop} {trees : List KeyTree}
    (heverything : ∀ field text, motive (.everything field text))
    (hpart : ∀ tree ∈ trees, ∀ part ∈ tree.disjuncts, motive part)
    (hone : ∀ parts, parts ≠ [] → (∀ part ∈ parts, motive part) →
      motive (.oneOf parts ((parts.map weight).foldl Weights.higher 0))) :
    motive (disjunction trees) := by
  have hparts := forall_mem_foldl_addTo hpart
  rcases disjunction_cases trees rfl with ⟨tree, -, htree, heq⟩ |
    ⟨-, ⟨-, heq⟩ | hsingle | ⟨hseveral, heq⟩⟩
  · obtain ⟨field, text, rfl⟩ := exists_of_isEverything htree
    rw [heq]
    exact heverything field text
  · rw [heq]
    exact heverything "" ""
  · rw [hsingle] at hparts
    exact hparts _ List.mem_cons_self
  · rw [heq]
    exact hone _ (ne_nil_of_several hseveral) hparts

theorem proper_conjunction {trees : List KeyTree} (h : ProperAll trees) :
    Proper (conjunction trees) :=
  conjunction_induction (fun _ _ => trivial)
    (fun tree htree _ => proper_of_mem_conjuncts (properAll_iff.mp h tree htree))
    fun _ hne hparts => ⟨hne, properAll_iff.mpr hparts⟩

theorem proper_disjunction {trees : List KeyTree} (h : ProperAll trees) :
    Proper (disjunction trees) :=
  disjunction_induction (fun _ _ => trivial)
    (fun tree htree _ => proper_of_mem_disjuncts (properAll_iff.mp h tree htree))
    fun _ hne hparts => ⟨hne, properAll_iff.mpr hparts⟩

/-! ### The terms of a tree -/

theorem mem_allTerms {trees : List KeyTree} {t : KeyTerm} :
    t ∈ allTerms trees ↔ ∃ tree ∈ trees, t ∈ tree.terms := by
  induction trees with
  | nil => simp only [allTerms, List.not_mem_nil, false_and, exists_false]
  | cons tree rest ih =>
    simp only [allTerms, Sorted.mem_union, ih, List.exists_mem_cons_iff]

/-- Whatever the weights are, the lightest terms are those of the best tree so far or those of one
of the trees. -/
theorem lightestTerms_eq (best : Option (Float32 × List KeyTerm)) {trees : List KeyTree}
    (h : best.isSome ∨ trees ≠ []) :
    (∃ weight, best = some (weight, lightestTerms best trees)) ∨
      ∃ tree ∈ trees, lightestTerms best trees = tree.terms := by
  induction trees generalizing best with
  | nil =>
    cases best with
    | none => simp only [Option.isSome_none, Bool.false_eq_true, ne_eq, not_true_eq_false,
        or_self] at h
    | some best => exact .inl ⟨best.1, rfl⟩
  | cons tree rest ih =>
    simp only [lightestTerms]
    split
    · rcases ih (some (tree.weight, tree.terms)) (.inl rfl) with ⟨weight, heq⟩ | htree
      · refine .inr ⟨tree, List.mem_cons_self, ?_⟩
        exact (Prod.mk.inj (Option.some.inj heq)).2.symm
      · obtain ⟨other, hother, heq⟩ := htree
        exact .inr ⟨other, List.mem_cons_of_mem _ hother, heq⟩
    · next hbest =>
      have hsome : best.isSome := by
        cases best with
        | none => exact absurd rfl hbest
        | some best => rfl
      rcases ih best (.inl hsome) with heq | ⟨other, hother, heq⟩
      · exact .inl heq
      · exact .inr ⟨other, List.mem_cons_of_mem _ hother, heq⟩

/-- The terms of a node for all of its parts are those of one of them. -/
theorem exists_terms_all_eq {parts : List KeyTree} {weight : Float32} (hne : parts ≠ []) :
    ∃ part ∈ parts, (all parts weight).terms = part.terms := by
  rcases lightestTerms_eq none (.inr hne) with ⟨_, heq⟩ | hpart
  · exact absurd heq (Option.some_ne_none _).symm
  · exact hpart

mutual

/-- The terms of a tree cover it: where the tree is true, one of them is. -/
theorem exists_mem_terms : (tree : KeyTree) → Proper tree → Holds φ tree → ∃ t ∈ tree.terms, φ t
  | .leaf term _, _, h => ⟨term, List.mem_singleton.mpr rfl, h⟩
  | .everything _ _, _, h => ⟨_, List.mem_singleton.mpr rfl, h⟩
  | .all parts _, hproper, h => by
    obtain ⟨part, hpart, heq⟩ := exists_terms_all_eq hproper.1
    rw [heq]
    exact exists_mem_terms_of_mem parts part hpart (properAll_iff.mp hproper.2 part hpart)
      (holdsAll_iff.mp h part hpart)
  | .oneOf parts _, hproper, h => by
    obtain ⟨part, hpart, hholds⟩ := holdsSome_iff.mp h
    obtain ⟨t, ht, hφ⟩ := exists_mem_terms_of_mem parts part hpart
      (properAll_iff.mp hproper.2 part hpart) hholds
    exact ⟨t, mem_allTerms.mpr ⟨part, hpart, ht⟩, hφ⟩

theorem exists_mem_terms_of_mem : (trees : List KeyTree) →
    ∀ tree ∈ trees, Proper tree → Holds φ tree → ∃ t ∈ tree.terms, φ t
  | [] => fun _ hmem => absurd hmem List.not_mem_nil
  | first :: rest =>
    List.forall_mem_cons.mpr ⟨exists_mem_terms first, exists_mem_terms_of_mem rest⟩

end

/-! ### Trees that the builders put together -/

/-- The tree is put together by the builders, from leaves whose terms and weights satisfy `P`. -/
inductive Composed (P : KeyTerm → Float32 → Prop) : KeyTree → Prop
  | leaf {term weight} (hkind : term.kind ≠ .any) (h : P term weight) :
      Composed P (.leaf term weight)
  | everything (field text : String) : Composed P (.everything field text)
  | conjunction {trees} (h : ∀ tree ∈ trees, Composed P tree) : Composed P (conjunction trees)
  | disjunction {trees} (h : ∀ tree ∈ trees, Composed P tree) : Composed P (disjunction trees)

variable {P : KeyTerm → Float32 → Prop}

theorem composed_ofTerm {weights : Weights} {t : KeyTerm} (h : P t (weights.weigh t)) :
    Composed P (ofTerm weights t) := by
  obtain ⟨field, text, kind⟩ := t
  cases kind with
  | exact | part => exact .leaf (by simp only [ne_eq, reduceCtorEq, not_false_eq_true]) h
  | any => exact .everything field text

theorem Composed.proper {tree : KeyTree} (h : Composed P tree) : Proper tree := by
  induction h with
  | leaf hkind h => exact trivial
  | everything field text => exact trivial
  | conjunction h ih => exact proper_conjunction (properAll_iff.mpr ih)
  | disjunction h ih => exact proper_disjunction (properAll_iff.mpr ih)

theorem properAll_of_composed {trees : List KeyTree} (h : ∀ tree ∈ trees, Composed P tree) :
    ProperAll trees :=
  properAll_iff.mpr fun tree htree => (h tree htree).proper

/-- The tree is put together by the builders, with any weights. -/
abbrev Built : KeyTree → Prop := Composed fun _ _ => True

/-- Whatever the weights of leaves are, and wherever the trees for every document are true, the
builders mean what their names say, and a true tree has a true term among its terms. -/
theorem meaning_and_cover (hφ : Universal φ) :
    (∀ trees, (∀ tree ∈ trees, Composed (fun _ _ => True) tree) →
      (Holds φ (conjunction trees) ↔ ∀ tree ∈ trees, Holds φ tree) ∧
        (trees ≠ [] → (Holds φ (disjunction trees) ↔ ∃ tree ∈ trees, Holds φ tree))) ∧
    Holds φ (conjunction []) ∧ Holds φ (disjunction []) ∧
    ∀ tree, Composed (fun _ _ => True) tree → Holds φ tree → ∃ t ∈ tree.terms, φ t := by
  refine ⟨fun trees htrees => ⟨holds_conjunction hφ, fun hne => ?_⟩, ?_, ?_, ?_⟩
  · rw [holds_disjunction hφ (properAll_of_composed htrees)]
    exact or_iff_right hne
  · exact (holds_conjunction hφ).mpr fun _ h => absurd h List.not_mem_nil
  · have hnil : ProperAll [] := trivial
    exact (holds_disjunction hφ hnil).mpr (.inl rfl)
  · exact fun tree htree hholds => exists_mem_terms tree htree.proper hholds

/-- Terms with the text `rust` are true, and so are those that every document has. -/
def rustOnly (t : KeyTerm) : Prop := t.kind = .any ∨ t.text = "rust"

/-- One true leaf that is heavy, and a false one that is light. -/
def rustOrCats : List KeyTree :=
  [.leaf ⟨"body", "rust", .exact⟩ Weights.infinite, .leaf ⟨"body", "cats", .exact⟩ (-1)]

/-- Beside them, a leaf whose weight is not a number, and a tree that every document has. -/
def oddlyWeighted : List KeyTree :=
  [.leaf ⟨"body", "rust", .exact⟩ (0 / 0), disjunction rustOrCats, any "price"]

/-- The conjunction of oddly weighted trees is true, and found by a true term. -/
theorem meaning_and_cover_oddlyWeighted : Universal rustOnly ∧
    (∀ tree ∈ oddlyWeighted, Composed (fun _ _ => True) tree) ∧
    Holds rustOnly (conjunction oddlyWeighted) ∧
    ∃ t ∈ (conjunction oddlyWeighted).terms, rustOnly t := by
  have huniversal : Universal rustOnly := fun _ _ => .inl rfl
  have hleaf : ∀ text weight,
      Composed (fun _ _ => True) (.leaf ⟨"body", text, .exact⟩ weight) := fun _ _ =>
    .leaf (by simp only [ne_eq, reduceCtorEq, not_false_eq_true]) trivial
  have heither : ∀ tree ∈ rustOrCats, Composed (fun _ _ => True) tree :=
    List.forall_mem_cons.mpr ⟨hleaf _ _, List.forall_mem_singleton.mpr (hleaf _ _)⟩
  have hcomposed : ∀ tree ∈ oddlyWeighted, Composed (fun _ _ => True) tree :=
    List.forall_mem_cons.mpr ⟨hleaf _ _, List.forall_mem_cons.mpr
      ⟨.disjunction heither, List.forall_mem_singleton.mpr (.everything "price" "")⟩⟩
  obtain ⟨hbuilders, -, -, hcover⟩ := meaning_and_cover huniversal
  have hdisjunction : Holds rustOnly (disjunction rustOrCats) :=
    ((hbuilders rustOrCats heither).2 (List.cons_ne_nil _ _)).mpr
      ⟨_, List.mem_cons_self, .inr rfl⟩
  have hholds : Holds rustOnly (conjunction oddlyWeighted) :=
    (hbuilders oddlyWeighted hcomposed).1.mpr (List.forall_mem_cons.mpr
      ⟨.inr rfl, List.forall_mem_cons.mpr
        ⟨hdisjunction, List.forall_mem_singleton.mpr (.inl rfl)⟩⟩)
  exact ⟨huniversal, hcomposed, hholds, hcover _ (.conjunction hcomposed) hholds⟩

end Percolator.KeyTree
