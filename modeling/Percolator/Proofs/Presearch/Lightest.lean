import Percolator.Proofs.Float.NotNegative
import Percolator.Proofs.Presearch.KeyTree

/-!
# The terms of a tree are the lightest ones to keep

To find a query by key terms, one part of every conjunction is enough, while all parts of a
disjunction are needed. So there are many lists of terms that a query can be found by, and the worst
of its terms decides how much a list costs. The weight of a tree, which is computed when the tree is
put together, is what the terms of the tree cost, and no other choice of parts costs less.

Weights are compared as numbers, so that it does not matter which of the two zeros a leaf has.

## Main definitions

* `KeyTree.Keeps` : terms that are left where one part of every conjunction is kept.
* `KeyTree.cost` : what it costs to find a query by a term.
* `KeyTree.Weighed` : the weight of a node is that of its lightest, or of its heaviest part.

## Main results

* `KeyTree.Composed.weighed` : the builders weigh what they put together.
* `KeyTree.Composed.weight_minimax` : the terms of a tree cost its weight, and others no less.
-/

namespace Percolator.KeyTree

variable {w : KeyTerm → Float32} {kept : List KeyTerm}

/-! ### Terms to keep -/

mutual

/-- The terms are left of the tree where one part of every conjunction is kept, and all parts of
every disjunction. -/
def Keeps : KeyTree → List KeyTerm → Prop
  | .leaf term _, kept => kept = [term]
  | .everything field text, kept => kept = [⟨field, text, .any⟩]
  | .all parts _, kept => KeepsOne parts kept
  | .oneOf parts _, kept => KeepsEach parts kept

/-- The terms are left of one of the trees. -/
def KeepsOne : List KeyTree → List KeyTerm → Prop
  | [], _ => False
  | tree :: rest, kept => Keeps tree kept ∨ KeepsOne rest kept

/-- The terms are those that are left of each of the trees. -/
def KeepsEach : List KeyTree → List KeyTerm → Prop
  | [], kept => kept = []
  | tree :: rest, kept =>
    ∃ front back, kept = front ++ back ∧ Keeps tree front ∧ KeepsEach rest back

end

theorem keepsOne_iff {trees : List KeyTree} :
    KeepsOne trees kept ↔ ∃ tree ∈ trees, Keeps tree kept := by
  induction trees with
  | nil => simp only [KeepsOne, List.not_mem_nil, false_and, exists_false]
  | cons tree rest ih => simp only [KeepsOne, ih, List.exists_mem_cons_iff]

/-- Of each of the trees, terms are left. -/
theorem KeepsEach.exists_keeps {trees : List KeyTree} (h : KeepsEach trees kept) {tree : KeyTree}
    (htree : tree ∈ trees) : ∃ own, Keeps tree own ∧ own ⊆ kept := by
  induction trees generalizing kept with
  | nil => exact absurd htree List.not_mem_nil
  | cons first rest ih =>
    obtain ⟨front, back, rfl, hfront, hback⟩ := h
    rcases List.mem_cons.mp htree with rfl | htree
    · exact ⟨front, hfront, List.subset_append_left front back⟩
    · obtain ⟨own, hown, hsubset⟩ := ih hback htree
      exact ⟨own, hown, List.subset_append_of_subset_right front hsubset⟩

mutual

/-- The terms of a tree are left for a choice of parts. -/
theorem exists_keeps_terms : (tree : KeyTree) → Proper tree →
    ∃ kept, Keeps tree kept ∧ ∀ t, t ∈ kept ↔ t ∈ tree.terms
  | .leaf term _, _ => ⟨[term], rfl, fun _ => Iff.rfl⟩
  | .everything field text, _ => ⟨[⟨field, text, .any⟩], rfl, fun _ => Iff.rfl⟩
  | .all parts _, hproper => by
    obtain ⟨part, hpart, heq⟩ := exists_terms_all_eq hproper.1
    obtain ⟨kept, hkept, hmem⟩ := exists_keeps_terms_of_mem parts part hpart
      (properAll_iff.mp hproper.2 part hpart)
    refine ⟨kept, keepsOne_iff.mpr ⟨part, hpart, hkept⟩, fun t => ?_⟩
    rw [hmem, heq]
  | .oneOf parts _, hproper => exists_keepsEach_allTerms parts hproper.2

theorem exists_keeps_terms_of_mem : (trees : List KeyTree) → ∀ tree ∈ trees, Proper tree →
    ∃ kept, Keeps tree kept ∧ ∀ t, t ∈ kept ↔ t ∈ tree.terms
  | [] => fun _ hmem => absurd hmem List.not_mem_nil
  | first :: rest =>
    List.forall_mem_cons.mpr ⟨exists_keeps_terms first, exists_keeps_terms_of_mem rest⟩

theorem exists_keepsEach_allTerms : (trees : List KeyTree) → ProperAll trees →
    ∃ kept, KeepsEach trees kept ∧ ∀ t, t ∈ kept ↔ t ∈ allTerms trees
  | [], _ => ⟨[], rfl, fun _ => Iff.rfl⟩
  | first :: rest, hproper => by
    obtain ⟨front, hfront, hmemFront⟩ := exists_keeps_terms first hproper.1
    obtain ⟨back, hback, hmemBack⟩ := exists_keepsEach_allTerms rest hproper.2
    refine ⟨front ++ back, ⟨front, back, rfl, hfront, hback⟩, fun t => ?_⟩
    rw [List.mem_append, hmemFront, hmemBack, allTerms, Sorted.mem_union]

end

/-! ### Weights of nodes -/

/-- What it costs to find a query by a term that weighs `w`: everything, if all documents have the
term. -/
def cost (w : KeyTerm → Float32) (t : KeyTerm) : Float32 :=
  if t.kind = .any then Weights.infinite else w t

mutual

/-- Leaves weigh `w`, nodes for all parts as much as their lightest part, and nodes for one of their
parts as much as the heaviest. -/
def Weighed (w : KeyTerm → Float32) : KeyTree → Prop
  | .leaf term weight => term.kind ≠ .any ∧ 0 ≤ weight ∧ (weight == w term) = true
  | .everything _ _ => True
  | .all parts weight => WeighedAll w parts ∧ 0 ≤ weight ∧
    (∃ part ∈ parts, part.weight ≤ weight) ∧ ∀ part ∈ parts, weight ≤ part.weight
  | .oneOf parts weight => WeighedAll w parts ∧ 0 ≤ weight ∧
    (∃ part ∈ parts, weight ≤ part.weight) ∧ ∀ part ∈ parts, part.weight ≤ weight

/-- The trees are weighed. -/
def WeighedAll (w : KeyTerm → Float32) : List KeyTree → Prop
  | [] => True
  | tree :: rest => Weighed w tree ∧ WeighedAll w rest

end

theorem weighedAll_iff {trees : List KeyTree} :
    WeighedAll w trees ↔ ∀ tree ∈ trees, Weighed w tree := by
  induction trees with
  | nil => simp only [WeighedAll, List.not_mem_nil, false_implies, implies_true]
  | cons tree rest ih => simp only [WeighedAll, ih, List.forall_mem_cons]

theorem Weighed.zero_le {tree : KeyTree} (h : Weighed w tree) : 0 ≤ tree.weight := by
  cases tree with
  | leaf term weight => exact h.2.1
  | everything field text => exact zero_le_infinite
  | all parts weight => exact h.2.1
  | oneOf parts weight => exact h.2.1

theorem zero_le_of_mem_map_weight {parts : List KeyTree} (h : ∀ part ∈ parts, Weighed w part) :
    ∀ x ∈ parts.map weight, 0 ≤ x := by
  intro x hx
  obtain ⟨part, hpart, rfl⟩ := List.mem_map.mp hx
  exact (h part hpart).zero_le

/-- A fold over the weights of parts comes to the weight of a part, or to the one that it began
with, which stands for the weight of any part where all are related to it. -/
theorem exists_part_of_mem {R : Float32 → Float32 → Prop} {parts : List KeyTree}
    {first x : Float32} (hne : parts ≠ []) (hmem : x ∈ first :: parts.map weight)
    (hfirst : ∀ part ∈ parts, R part.weight first)
    (hrefl : ∀ part ∈ parts, R part.weight part.weight) : ∃ part ∈ parts, R part.weight x := by
  rcases List.mem_cons.mp hmem with rfl | hmem
  · obtain ⟨part, hpart⟩ := List.exists_mem_of_ne_nil parts hne
    exact ⟨part, hpart, hfirst part hpart⟩
  · obtain ⟨part, hpart, rfl⟩ := List.mem_map.mp hmem
    exact ⟨part, hpart, hrefl part hpart⟩

theorem weighed_all {parts : List KeyTree} (hne : parts ≠ []) (h : ∀ part ∈ parts, Weighed w part) :
    Weighed w (.all parts ((parts.map weight).foldl Weights.lower Weights.infinite)) := by
  have hweights := zero_le_of_mem_map_weight h
  obtain ⟨hmem, hle⟩ := Weights.foldl_lower_spec zero_le_infinite hweights
  have hzero := List.forall_mem_cons.mpr ⟨zero_le_infinite, hweights⟩ _ hmem
  have hpart := exists_part_of_mem (R := (· ≤ ·)) hne hmem
    (fun part hpart => le_infinite (h part hpart).zero_le)
    fun part hpart => le_refl_of_zero_le (h part hpart).zero_le
  exact ⟨weighedAll_iff.mpr h, hzero, hpart, fun part hpart =>
    hle _ (List.mem_cons_of_mem _ (List.mem_map_of_mem hpart))⟩

theorem weighed_oneOf {parts : List KeyTree} (hne : parts ≠ [])
    (h : ∀ part ∈ parts, Weighed w part) :
    Weighed w (.oneOf parts ((parts.map weight).foldl Weights.higher 0)) := by
  have hweights := zero_le_of_mem_map_weight h
  obtain ⟨hmem, hle⟩ := Weights.foldl_higher_spec zero_le_zero hweights
  have hzero := List.forall_mem_cons.mpr ⟨zero_le_zero, hweights⟩ _ hmem
  have hpart := exists_part_of_mem (R := fun x y => y ≤ x) hne hmem
    (fun part hpart => (h part hpart).zero_le)
    fun part hpart => le_refl_of_zero_le (h part hpart).zero_le
  exact ⟨weighedAll_iff.mpr h, hzero, hpart, fun part hpart =>
    hle _ (List.mem_cons_of_mem _ (List.mem_map_of_mem hpart))⟩

theorem weighed_of_mem_conjuncts {tree part : KeyTree} (h : Weighed w tree)
    (hpart : part ∈ tree.conjuncts) : Weighed w part := by
  cases tree with
  | all parts weight => exact weighedAll_iff.mp h.1 part hpart
  | everything field text => exact absurd hpart List.not_mem_nil
  | leaf _ _ | oneOf _ _ => rwa [List.mem_singleton.mp hpart]

theorem weighed_of_mem_disjuncts {tree part : KeyTree} (h : Weighed w tree)
    (hpart : part ∈ tree.disjuncts) : Weighed w part := by
  cases tree with
  | oneOf parts weight => exact weighedAll_iff.mp h.1 part hpart
  | all _ _ | everything _ _ | leaf _ _ => rwa [List.mem_singleton.mp hpart]

/-- The builders weigh what they put together. -/
theorem Composed.weighed {tree : KeyTree}
    (h : Composed (fun t weight => 0 ≤ weight ∧ (weight == w t) = true) tree) : Weighed w tree := by
  induction h with
  | leaf hkind h => exact ⟨hkind, h⟩
  | everything field text => exact trivial
  | conjunction h ih =>
    exact conjunction_induction (fun _ _ => trivial)
      (fun tree htree _ => weighed_of_mem_conjuncts (ih tree htree)) fun _ => weighed_all
  | disjunction h ih =>
    exact disjunction_induction (fun _ _ => trivial)
      (fun tree htree _ => weighed_of_mem_disjuncts (ih tree htree)) fun _ => weighed_oneOf

/-! ### What terms cost -/

/-- The lightest terms are those of the best tree so far if no other one is lighter, and otherwise
those of a tree that no other one is lighter than. -/
theorem lightestTerms_some {best : Float32} {bestTerms : List KeyTerm} {trees : List KeyTree}
    (hbest : 0 ≤ best) (h : ∀ tree ∈ trees, 0 ≤ tree.weight) :
    (lightestTerms (some (best, bestTerms)) trees = bestTerms ∧
        ∀ tree ∈ trees, best ≤ tree.weight) ∨
      ∃ tree ∈ trees, lightestTerms (some (best, bestTerms)) trees = tree.terms ∧
        tree.weight ≤ best ∧ ∀ other ∈ trees, tree.weight ≤ other.weight := by
  induction trees generalizing best bestTerms with
  | nil => exact .inl ⟨rfl, fun _ h => absurd h List.not_mem_nil⟩
  | cons first rest ih =>
    obtain ⟨hfirst, hrest⟩ := List.forall_mem_cons.mp h
    simp only [lightestTerms, Option.all_some, decide_eq_true_eq]
    by_cases hlt : first.weight < best
    · rw [if_pos hlt]
      have hle := le_of_lt hfirst hbest hlt
      rcases ih hfirst hrest with ⟨heq, hall⟩ | ⟨tree, htree, heq, hfirst', hall⟩
      · exact .inr ⟨first, List.mem_cons_self, heq, hle,
          List.forall_mem_cons.mpr ⟨le_refl_of_zero_le hfirst, hall⟩⟩
      · exact .inr ⟨tree, List.mem_cons_of_mem _ htree, heq,
          le_trans_of_zero_le (hrest tree htree) hfirst hbest hfirst' hle,
          List.forall_mem_cons.mpr ⟨hfirst', hall⟩⟩
    · rw [if_neg hlt]
      have hle := le_of_not_lt hbest hfirst hlt
      rcases ih hbest hrest with ⟨heq, hall⟩ | ⟨tree, htree, heq, hbest', hall⟩
      · exact .inl ⟨heq, List.forall_mem_cons.mpr ⟨hle, hall⟩⟩
      · exact .inr ⟨tree, List.mem_cons_of_mem _ htree, heq, hbest',
          List.forall_mem_cons.mpr
            ⟨le_trans_of_zero_le (hrest tree htree) hbest hfirst hbest' hle, hall⟩⟩

theorem exists_lightest {trees : List KeyTree} (hne : trees ≠ [])
    (h : ∀ tree ∈ trees, 0 ≤ tree.weight) :
    ∃ tree ∈ trees, lightestTerms none trees = tree.terms ∧
      ∀ other ∈ trees, tree.weight ≤ other.weight := by
  cases trees with
  | nil => exact absurd rfl hne
  | cons first rest =>
    obtain ⟨hfirst, hrest⟩ := List.forall_mem_cons.mp h
    have hstart : lightestTerms none (first :: rest) =
        lightestTerms (some (first.weight, first.terms)) rest := by
      simp only [lightestTerms, Option.all_none, if_true]
    rw [hstart]
    rcases lightestTerms_some hfirst hrest with ⟨heq, hall⟩ | ⟨tree, htree, heq, hle, hall⟩
    · exact ⟨first, List.mem_cons_self, heq,
        List.forall_mem_cons.mpr ⟨le_refl_of_zero_le hfirst, hall⟩⟩
    · exact ⟨tree, List.mem_cons_of_mem _ htree, heq, List.forall_mem_cons.mpr ⟨hle, hall⟩⟩

theorem cost_leaf {term : KeyTerm} {weight : Float32} (h : Weighed w (.leaf term weight)) :
    0 ≤ cost w term ∧ cost w term ≤ weight ∧ weight ≤ cost w term := by
  obtain ⟨hkind, hzero, hbeq⟩ := h
  have hzero' := zero_le_of_beq hzero hbeq
  rw [cost, if_neg hkind]
  rw [beq_iff_rank_eq hzero hzero'] at hbeq
  exact ⟨hzero', (le_iff_rank_le hzero' hzero).mpr hbeq.ge,
    (le_iff_rank_le hzero hzero').mpr hbeq.le⟩

mutual

/-- No term of a tree costs more than the tree weighs. -/
theorem Weighed.cost_le : (tree : KeyTree) → Proper tree → Weighed w tree →
    ∀ t ∈ tree.terms, 0 ≤ cost w t ∧ cost w t ≤ tree.weight
  | .leaf term _, _, h, t, ht => by
    rw [List.mem_singleton.mp ht]
    exact ⟨(cost_leaf h).1, (cost_leaf h).2.1⟩
  | .everything field text, _, _, t, ht => by
    rw [List.mem_singleton.mp ht]
    exact ⟨zero_le_infinite, le_refl_of_zero_le zero_le_infinite⟩
  | .all parts weight, hproper, h, t, ht => by
    obtain ⟨hparts, hzero, ⟨other, hother, hle⟩, -⟩ := h
    have hweighed := weighedAll_iff.mp hparts
    obtain ⟨part, hpart, heq, hlightest⟩ := exists_lightest hproper.1
      fun tree htree => (hweighed tree htree).zero_le
    rw [terms, heq] at ht
    obtain ⟨hcost, hcostle⟩ := Weighed.cost_le_of_mem parts part hpart
      (properAll_iff.mp hproper.2 part hpart) (hweighed part hpart) t ht
    have hpartle := le_trans_of_zero_le (hweighed part hpart).zero_le
      (hweighed other hother).zero_le hzero (hlightest other hother) hle
    exact ⟨hcost, le_trans_of_zero_le hcost (hweighed part hpart).zero_le hzero hcostle hpartle⟩
  | .oneOf parts weight, hproper, h, t, ht => by
    obtain ⟨hparts, hzero, -, hle⟩ := h
    have hweighed := weighedAll_iff.mp hparts
    obtain ⟨part, hpart, ht⟩ := mem_allTerms.mp ht
    obtain ⟨hcost, hcostle⟩ := Weighed.cost_le_of_mem parts part hpart
      (properAll_iff.mp hproper.2 part hpart) (hweighed part hpart) t ht
    exact ⟨hcost, le_trans_of_zero_le hcost (hweighed part hpart).zero_le hzero hcostle
      (hle part hpart)⟩

theorem Weighed.cost_le_of_mem : (trees : List KeyTree) → ∀ tree ∈ trees, Proper tree →
    Weighed w tree → ∀ t ∈ tree.terms, 0 ≤ cost w t ∧ cost w t ≤ tree.weight
  | [] => fun _ hmem => absurd hmem List.not_mem_nil
  | first :: rest =>
    List.forall_mem_cons.mpr ⟨Weighed.cost_le first, Weighed.cost_le_of_mem rest⟩

end

mutual

/-- Whatever is kept of a tree, one of the terms costs as much as the tree weighs. -/
theorem Keeps.exists_le_cost : (tree : KeyTree) → Weighed w tree → ∀ kept, Keeps tree kept →
    ∃ t ∈ kept, 0 ≤ cost w t ∧ tree.weight ≤ cost w t
  | .leaf term _, h, kept, hkept => by
    obtain rfl := hkept
    exact ⟨term, List.mem_singleton.mpr rfl, (cost_leaf h).1, (cost_leaf h).2.2⟩
  | .everything field text, _, kept, hkept => by
    obtain rfl := hkept
    exact ⟨_, List.mem_singleton.mpr rfl, zero_le_infinite, le_refl_of_zero_le zero_le_infinite⟩
  | .all parts weight, h, kept, hkept => by
    obtain ⟨hparts, hzero, -, hle⟩ := h
    obtain ⟨part, hpart, hkept⟩ := keepsOne_iff.mp hkept
    have hweighed := weighedAll_iff.mp hparts part hpart
    obtain ⟨t, ht, hcost, hcostle⟩ :=
      Keeps.exists_le_cost_of_mem parts part hpart hweighed kept hkept
    exact ⟨t, ht, hcost,
      le_trans_of_zero_le hzero hweighed.zero_le hcost (hle part hpart) hcostle⟩
  | .oneOf parts weight, h, kept, hkept => by
    obtain ⟨hparts, hzero, ⟨part, hpart, hle⟩, -⟩ := h
    have hweighed := weighedAll_iff.mp hparts part hpart
    obtain ⟨own, hown, hsubset⟩ := KeepsEach.exists_keeps hkept hpart
    obtain ⟨t, ht, hcost, hcostle⟩ :=
      Keeps.exists_le_cost_of_mem parts part hpart hweighed own hown
    exact ⟨t, hsubset ht, hcost, le_trans_of_zero_le hzero hweighed.zero_le hcost hle hcostle⟩

theorem Keeps.exists_le_cost_of_mem : (trees : List KeyTree) → ∀ tree ∈ trees, Weighed w tree →
    ∀ kept, Keeps tree kept → ∃ t ∈ kept, 0 ≤ cost w t ∧ tree.weight ≤ cost w t
  | [] => fun _ hmem => absurd hmem List.not_mem_nil
  | first :: rest =>
    List.forall_mem_cons.mpr ⟨Keeps.exists_le_cost first, Keeps.exists_le_cost_of_mem rest⟩

end

/-- The terms of a tree are left for a choice of parts, and the worst of them costs what the tree
weighs; whatever other parts are kept, the worst of their terms costs no less. -/
theorem Composed.weight_minimax {tree : KeyTree}
    (h : Composed (fun t weight => 0 ≤ weight ∧ (weight == w t) = true) tree) :
    (∃ kept, Keeps tree kept ∧ ∀ t, t ∈ kept ↔ t ∈ tree.terms) ∧
      ((∃ t ∈ tree.terms, (cost w t == tree.weight) = true) ∧
        ∀ t ∈ tree.terms, cost w t ≤ tree.weight) ∧
      ∀ kept, Keeps tree kept → ∃ t ∈ kept, tree.weight ≤ cost w t := by
  have hcost := Weighed.cost_le tree h.proper h.weighed
  obtain ⟨kept, hkept, hmem⟩ := exists_keeps_terms tree h.proper
  obtain ⟨t, ht, hzero, hle⟩ := Keeps.exists_le_cost tree h.weighed kept hkept
  have ht' := (hmem t).mp ht
  refine ⟨⟨kept, hkept, hmem⟩, ⟨⟨t, ht', ?_⟩, fun t ht => (hcost t ht).2⟩, fun kept hkept => ?_⟩
  · have hweight := h.weighed.zero_le
    rw [beq_iff_rank_eq hzero hweight]
    exact le_antisymm ((le_iff_rank_le hzero hweight).mp (hcost t ht').2)
      ((le_iff_rank_le hweight hzero).mp hle)
  · obtain ⟨t, ht, -, hle⟩ := Keeps.exists_le_cost tree h.weighed kept hkept
    exact ⟨t, ht, hle⟩

/-- Weights of three words; the zero of birds is the negative one. -/
def wordWeight (t : KeyTerm) : Float32 :=
  if t.text = "cat" then 3 else if t.text = "dog" then 1 else -0

/-- The leaf of a word. -/
def wordLeaf (text : String) : KeyTree :=
  .leaf ⟨"body", text, .exact⟩ (wordWeight ⟨"body", text, .exact⟩)

/-- Cats or dogs, and birds, whose zero is written without a sign. -/
def catsOrDogsAndBirds : KeyTree :=
  conjunction [disjunction [wordLeaf "cat", wordLeaf "dog"], .leaf ⟨"body", "bird", .exact⟩ 0]

/-- The tree is found by birds alone, and cats and dogs would cost more. -/
theorem weight_minimax_catsOrDogsAndBirds :
    Composed (fun t weight => 0 ≤ weight ∧ (weight == wordWeight t) = true) catsOrDogsAndBirds ∧
      Keeps catsOrDogsAndBirds [⟨"body", "cat", .exact⟩, ⟨"body", "dog", .exact⟩] ∧
      (∃ t ∈ catsOrDogsAndBirds.terms, (cost wordWeight t == catsOrDogsAndBirds.weight) = true) ∧
      ∃ t ∈ [⟨"body", "cat", .exact⟩, ⟨"body", "dog", .exact⟩],
        catsOrDogsAndBirds.weight ≤ cost wordWeight t := by
  have hleaf : ∀ text weight, 0 ≤ weight ∧ (weight == wordWeight ⟨"body", text, .exact⟩) = true →
      Composed (fun t weight => 0 ≤ weight ∧ (weight == wordWeight t) = true)
        (.leaf ⟨"body", text, .exact⟩ weight) := fun _ _ h =>
    .leaf (by simp only [ne_eq, reduceCtorEq, not_false_eq_true]) h
  have hcomposed : Composed (fun t weight => 0 ≤ weight ∧ (weight == wordWeight t) = true)
      catsOrDogsAndBirds := by
    refine .conjunction (List.forall_mem_cons.mpr ⟨.disjunction (List.forall_mem_cons.mpr
      ⟨hleaf "cat" _ ?_, List.forall_mem_singleton.mpr (hleaf "dog" _ ?_)⟩),
      List.forall_mem_singleton.mpr (hleaf "bird" _ ?_)⟩)
    all_goals decide +kernel
  have hkeeps : Keeps catsOrDogsAndBirds [⟨"body", "cat", .exact⟩, ⟨"body", "dog", .exact⟩] :=
    .inl ⟨[_], [_], rfl, rfl, [_], [], rfl, rfl, rfl⟩
  obtain ⟨-, ⟨hmost, -⟩, hall⟩ := hcomposed.weight_minimax
  exact ⟨hcomposed, hkeeps, hmost, hall _ hkeeps⟩

end Percolator.KeyTree
