import Percolator.Proofs.Float.Positive
import Percolator.Proofs.Presearch.KeyTree

/-!
# The normal form of key trees

The builders keep key trees in normal form. A tree that every document has stands by itself and is
not joined to others. A node has several parts, no two of them the same; none of the parts of a node
for all of them is such a node itself, and none of the parts of a node for one of them is. A builder
looks no deeper than at the parts of the trees that it is given, which is enough where these are in
normal form.

So the terms of a tree are never none, and the term that every document has is only there by itself.
Which trees are the same is up to their weights too, and a weight that is not a number is not the
same as itself, but it does not matter in which order two trees are compared.

## Main definitions

* `KeyTree.Distinct` : no two of the trees are the same.
* `KeyTree.NodeParts`, `KeyTree.Normal` : the normal form of a node, and of a tree.

## Main results

* `KeyTree.same_comm` : trees are the same in either order.
* `KeyTree.Composed.normal` : the builders keep trees in normal form.
* `KeyTree.Normal.terms_ne_nil`, `KeyTree.Normal.terms_eq_singleton` : the terms of such a tree.
-/

open Float.Model Float.Model.UnpackedFloat

namespace Percolator

/-! ### Weights that are the same -/

theorem compare_swap (u v : UnpackedFloat) : v.compare u = (u.compare v).map Ordering.swap := by
  cases u with
  | notANumber => cases v <;> rfl
  | infinity s =>
    cases v with
    | infinity t | finite t _ _ _ => cases s <;> cases t <;> rfl
    | zero _ | notANumber => cases s <;> rfl
  | zero s =>
    cases v with
    | infinity t | finite t _ _ _ => cases t <;> rfl
    | zero _ | notANumber => rfl
  | finite s m e _ =>
    cases v with
    | infinity t => cases s <;> cases t <;> rfl
    | zero _ | notANumber => cases s <;> rfl
    | finite t m' e' _ =>
      have hswap : ((compare e e').then (compare m m')).swap =
          (compare e' e).then (compare m' m) := by
        rw [Ordering.swap_then, ← Std.OrientedCmp.eq_swap, ← Std.OrientedCmp.eq_swap]
      cases s <;> cases t
      · exact congrArg (some ∘ Ordering.swap) hswap.symm
      · rfl
      · rfl
      · exact congrArg some hswap.symm

theorem weight_beq_comm (v w : Float32) : (v == w) = (w == v) := by
  have hbeq : ∀ x y : Float32, (x == y) = x.toModel.unpack.beq y.toModel.unpack := fun _ _ => rfl
  rw [hbeq, hbeq, UnpackedFloat.beq, UnpackedFloat.beq, compare_swap]
  rcases w.toModel.unpack.compare v.toModel.unpack with _ | (_ | _ | _) <;> rfl

namespace KeyTree

/-! ### Trees that are not the same -/

mutual

theorem same_comm : (a b : KeyTree) → a.same b = b.same a
  | .leaf s v, .leaf t w => by rw [same, same, Bool.beq_comm, weight_beq_comm]
  | .all as v, .all bs w => by rw [same, same, sameEach_comm as bs, weight_beq_comm]
  | .oneOf as v, .oneOf bs w => by rw [same, same, sameEach_comm as bs, weight_beq_comm]
  | .everything f s, .everything g t => by rw [same, same, Bool.beq_comm, Bool.beq_comm (a := s)]
  | .leaf _ _, .all _ _ | .leaf _ _, .oneOf _ _ | .leaf _ _, .everything _ _
  | .all _ _, .leaf _ _ | .all _ _, .oneOf _ _ | .all _ _, .everything _ _
  | .oneOf _ _, .leaf _ _ | .oneOf _ _, .all _ _ | .oneOf _ _, .everything _ _
  | .everything _ _, .leaf _ _ | .everything _ _, .all _ _ | .everything _ _, .oneOf _ _ => by
    simp only [same]

theorem sameEach_comm : (as bs : List KeyTree) → sameEach as bs = sameEach bs as
  | [], [] => rfl
  | a :: as, b :: bs => by rw [sameEach, sameEach, same_comm a b, sameEach_comm as bs]
  | [], _ :: _ | _ :: _, [] => by simp only [sameEach]

end

/-- No two of the trees are the same. -/
def Distinct (trees : List KeyTree) : Prop :=
  trees.Pairwise fun a b => a.same b = false ∧ b.same a = false

theorem Distinct.addTo {trees : List KeyTree} (h : Distinct trees) (tree : KeyTree) :
    Distinct (addTo trees tree) := by
  rw [KeyTree.addTo]
  split
  · exact h
  · next hnone =>
    refine List.pairwise_append.mpr ⟨h, List.pairwise_singleton _ tree, fun a ha b hb => ?_⟩
    have hsame : a.same tree = false := by
      rw [List.any_eq_true] at hnone
      exact Bool.eq_false_iff.mpr fun hsame => hnone ⟨a, ha, hsame⟩
    rw [List.mem_singleton.mp hb, same_comm tree a]
    exact ⟨hsame, hsame⟩

theorem distinct_foldl_addTo {trees acc : List KeyTree} (h : Distinct acc) :
    Distinct (trees.foldl KeyTree.addTo acc) := by
  induction trees generalizing acc with
  | nil => exact h
  | cons tree rest ih => exact ih (h.addTo tree)

/-! ### The normal form -/

/-- The tree is a node for all of its parts. -/
def isAll : KeyTree → Bool
  | .all _ _ => true
  | _ => false

/-- The tree is a node for one of its parts. -/
def isOneOf : KeyTree → Bool
  | .oneOf _ _ => true
  | _ => false

/-- The parts of a node in normal form, where `nested` tells which trees are such nodes. -/
structure NodeParts (nested : KeyTree → Bool) (parts : List KeyTree) : Prop where
  several : 1 < parts.length
  flat : ∀ part ∈ parts, nested part = false
  selective : ∀ part ∈ parts, part.isEverything = false
  distinct : Distinct parts

/-- The tree is in normal form. -/
inductive Normal : KeyTree → Prop
  | leaf {term weight} (hkind : term.kind ≠ .any) : Normal (.leaf term weight)
  | everything (field text : String) : Normal (.everything field text)
  | all {parts weight} (hnode : NodeParts isAll parts) (h : ∀ part ∈ parts, Normal part) :
    Normal (.all parts weight)
  | oneOf {parts weight} (hnode : NodeParts isOneOf parts) (h : ∀ part ∈ parts, Normal part) :
    Normal (.oneOf parts weight)

variable {nested : KeyTree → Bool} {parts : List KeyTree} {tree part : KeyTree} {t : KeyTerm}

theorem NodeParts.ne_nil (h : NodeParts nested parts) : parts ≠ [] := ne_nil_of_several h.several

/-- What a tree in normal form contributes to a conjunction. -/
theorem Normal.of_mem_conjuncts (h : Normal tree) (hpart : part ∈ tree.conjuncts) :
    Normal part ∧ part.isAll = false ∧ part.isEverything = false := by
  cases h with
  | leaf hkind =>
    rw [List.mem_singleton.mp hpart]
    exact ⟨.leaf hkind, rfl, rfl⟩
  | everything field text => exact absurd hpart List.not_mem_nil
  | all hnode h => exact ⟨h part hpart, hnode.flat part hpart, hnode.selective part hpart⟩
  | oneOf hnode h =>
    rw [List.mem_singleton.mp hpart]
    exact ⟨.oneOf hnode h, rfl, rfl⟩

/-- What a tree in normal form that not every document has contributes to a disjunction. -/
theorem Normal.of_mem_disjuncts (h : Normal tree) (htree : tree.isEverything = false)
    (hpart : part ∈ tree.disjuncts) :
    Normal part ∧ part.isOneOf = false ∧ part.isEverything = false := by
  cases h with
  | leaf hkind =>
    rw [List.mem_singleton.mp hpart]
    exact ⟨.leaf hkind, rfl, rfl⟩
  | everything field text => exact absurd htree Bool.noConfusion
  | oneOf hnode h => exact ⟨h part hpart, hnode.flat part hpart, hnode.selective part hpart⟩
  | all hnode h =>
    rw [List.mem_singleton.mp hpart]
    exact ⟨.all hnode h, rfl, rfl⟩

/-- Several parts that are in normal form make up a node in normal form, once no two of them are the
same. -/
theorem nodeParts_foldl_addTo {f : KeyTree → List KeyTree} {trees : List KeyTree}
    (h : ∀ tree ∈ trees, ∀ part ∈ f tree,
      Normal part ∧ nested part = false ∧ part.isEverything = false)
    (hseveral : 1 < ((trees.flatMap f).foldl addTo []).length) :
    NodeParts nested ((trees.flatMap f).foldl addTo []) where
  several := hseveral
  flat part hpart := (forall_mem_foldl_addTo h part hpart).2.1
  selective part hpart := (forall_mem_foldl_addTo h part hpart).2.2
  distinct := distinct_foldl_addTo List.Pairwise.nil

/-- A conjunction of trees in normal form is in normal form. -/
theorem normal_conjunction {trees : List KeyTree} (h : ∀ tree ∈ trees, Normal tree) :
    Normal (conjunction trees) := by
  -- Flattening goes one level down, where the normal form of each tree leaves no more to flatten.
  have hparts : ∀ tree ∈ trees, ∀ part ∈ tree.conjuncts,
      Normal part ∧ part.isAll = false ∧ part.isEverything = false := fun tree htree _ =>
    (h tree htree).of_mem_conjuncts
  have hnormal := forall_mem_foldl_addTo hparts
  rcases conjunction_cases trees rfl with ⟨-, field, text, heq⟩ | hone | ⟨hseveral, heq⟩
  · rw [heq]
    exact .everything field text
  · -- A single part is the conjunction itself, and may be a node of the other kind.
    rw [hone] at hnormal
    exact (hnormal _ List.mem_cons_self).1
  · rw [heq]
    exact .all (nodeParts_foldl_addTo hparts hseveral) fun part hpart => (hnormal part hpart).1

/-- A disjunction of trees in normal form is in normal form. -/
theorem normal_disjunction {trees : List KeyTree} (h : ∀ tree ∈ trees, Normal tree) :
    Normal (disjunction trees) := by
  rcases disjunction_cases trees rfl with ⟨tree, htree, -, heq⟩ | ⟨hselective, hcases⟩
  · rw [heq]
    exact h tree htree
  have hparts : ∀ tree ∈ trees, ∀ part ∈ tree.disjuncts,
      Normal part ∧ part.isOneOf = false ∧ part.isEverything = false := fun tree htree _ =>
    (h tree htree).of_mem_disjuncts (hselective tree htree)
  have hnormal := forall_mem_foldl_addTo hparts
  rcases hcases with ⟨-, heq⟩ | hone | ⟨hseveral, heq⟩
  · rw [heq]
    exact .everything "" ""
  · rw [hone] at hnormal
    exact (hnormal _ List.mem_cons_self).1
  · rw [heq]
    exact .oneOf (nodeParts_foldl_addTo hparts hseveral) fun part hpart => (hnormal part hpart).1

/-- The builders keep trees in normal form. -/
theorem Composed.normal {P : KeyTerm → Float32 → Prop} (h : Composed P tree) : Normal tree := by
  induction h with
  | leaf hkind h => exact .leaf hkind
  | everything field text => exact .everything field text
  | conjunction h ih => exact normal_conjunction ih
  | disjunction h ih => exact normal_disjunction ih

/-! ### The terms of trees in normal form -/

theorem Normal.terms_ne_nil (h : Normal tree) : tree.terms ≠ [] := by
  induction h with
  | leaf hkind => exact List.cons_ne_nil _ _
  | everything field text => exact List.cons_ne_nil _ _
  | all hnode h ih =>
    obtain ⟨part, hpart, heq⟩ := exists_terms_all_eq hnode.ne_nil
    rw [heq]
    exact ih part hpart
  | oneOf hnode h ih =>
    obtain ⟨part, hpart⟩ := List.exists_mem_of_ne_nil _ hnode.ne_nil
    obtain ⟨t, ht⟩ := List.exists_mem_of_ne_nil _ (ih part hpart)
    exact List.ne_nil_of_mem (mem_allTerms.mpr ⟨part, hpart, ht⟩)

/-- A tree in normal form that not every document has has no term that every document has. -/
theorem Normal.kind_ne_any (h : Normal tree) (htree : tree.isEverything = false)
    (ht : t ∈ tree.terms) : t.kind ≠ .any := by
  induction h with
  | leaf hkind => rwa [List.mem_singleton.mp ht]
  | everything field text => exact absurd htree Bool.noConfusion
  | all hnode h ih =>
    obtain ⟨part, hpart, heq⟩ := exists_terms_all_eq hnode.ne_nil
    exact ih part hpart (hnode.selective part hpart) (heq ▸ ht)
  | oneOf hnode h ih =>
    obtain ⟨part, hpart, ht⟩ := mem_allTerms.mp ht
    exact ih part hpart (hnode.selective part hpart) ht

/-- A term that every document has is only there by itself. -/
theorem Normal.terms_eq_singleton (h : Normal tree) (ht : t ∈ tree.terms) (hkind : t.kind = .any) :
    tree.terms = [t] := by
  have htree : tree.isEverything = true :=
    Bool.eq_true_of_not_eq_false fun htree => h.kind_ne_any htree ht hkind
  obtain ⟨field, text, rfl⟩ := exists_of_isEverything htree
  rw [List.mem_singleton.mp ht, terms]

end KeyTree

end Percolator
