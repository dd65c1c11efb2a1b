import Mathlib.Data.Prod.Lex
import Percolator.Presearch.Weight
import Percolator.Proofs.Float.Positive

/-!
# Weights that are not negative

The numbers from zero on, infinity among them, are ordered by their ranks, where the two zeros have
the same rank. So the lower and the higher of two such weights are what their names say, and folding
them over a list of weights comes to a weight of the list, or to the one that the fold began with.

## Main definitions

* `Weights.rank` : where a number from zero on stands in the order.
* `Weights.Picks` : an operation that takes one of two weights.

## Main results

* `lt_iff_rank_lt`, `le_iff_rank_le`, `beq_iff_rank_eq` : numbers are compared by their ranks.
* `Weights.foldl_lower_spec`, `Weights.foldl_higher_spec` : the weight that a fold comes to.
-/

open Float.Model Float.Model.UnpackedFloat

namespace Percolator

/-! ### The order from zero on -/

/-- A number from zero on. -/
inductive NotNegative : UnpackedFloat → Prop
  | zero (s : Sign) : NotNegative (.zero s)
  | finite (m : Nat) (e : Int) (h : 0 < m) : NotNegative (.finite .positive m e h)
  | infinity : NotNegative (.infinity .positive)

/-- Where a number from zero on stands in the order: zeros, then numbers by their exponents and
mantissas, then infinity. -/
def unpackedRank : UnpackedFloat → ℕ ×ₗ ℤ ×ₗ ℕ
  | .finite _ m e _ => toLex (1, toLex (e, m))
  | .infinity _ => toLex (2, toLex (0, 0))
  | .zero _ | .notANumber => toLex (0, toLex (0, 0))

private theorem NotNegative.compare_eq {u v : UnpackedFloat} (hu : NotNegative u)
    (hv : NotNegative v) : u.compare v = some (compare (unpackedRank u) (unpackedRank v)) := by
  cases hu <;> cases hv <;> rfl

private theorem notNegative_of_zero_le {u : UnpackedFloat}
    (h : (UnpackedFloat.zero .positive).le u = true) : NotNegative u := by
  cases u with
  | zero s => exact .zero s
  | notANumber => exact absurd h Bool.false_ne_true
  | infinity s =>
    cases s with
    | positive => exact .infinity
    | negative => exact absurd h Bool.false_ne_true
  | finite s m e hm =>
    cases s with
    | positive => exact .finite m e hm
    | negative => exact absurd h Bool.false_ne_true

private theorem zero_le_of_notNegative {u : UnpackedFloat} (h : NotNegative u) :
    (UnpackedFloat.zero .positive).le u = true := by
  cases h <;> rfl

private theorem notNegative_of_beq {u v : UnpackedFloat} (hu : NotNegative u) (h : u.beq v = true) :
    NotNegative v := by
  refine notNegative_of_zero_le ?_
  cases v with
  | zero s => rfl
  | notANumber => cases hu <;> exact absurd h Bool.false_ne_true
  | infinity s =>
    cases s with
    | positive => rfl
    | negative => cases hu <;> exact absurd h Bool.false_ne_true
  | finite s m e hm =>
    cases s with
    | positive => rfl
    | negative => cases hu <;> exact absurd h Bool.false_ne_true

variable {x y z : Float32}

private theorem zero_le_iff : 0 ≤ x ↔ NotNegative x.toModel.unpack := by
  have hle : 0 ≤ x ↔ (UnpackedFloat.zero .positive).le x.toModel.unpack = true :=
    decide_eq_true_iff
  rw [hle]
  exact ⟨notNegative_of_zero_le, zero_le_of_notNegative⟩

theorem zero_le_of_beq (hx : 0 ≤ x) (h : (x == y) = true) : 0 ≤ y :=
  zero_le_iff.mpr (notNegative_of_beq (zero_le_iff.mp hx) h)

/-- Where a number from zero on stands in the order. -/
def Weights.rank (x : Float32) : ℕ ×ₗ ℤ ×ₗ ℕ := unpackedRank x.toModel.unpack

theorem lt_iff_rank_lt (hx : 0 ≤ x) (hy : 0 ≤ y) : x < y ↔ Weights.rank x < Weights.rank y := by
  rw [lt_iff_unpack_lt, UnpackedFloat.lt,
    (zero_le_iff.mp hx).compare_eq (zero_le_iff.mp hy), beq_iff_eq, Option.some.injEq,
    compare_lt_iff_lt]
  rfl

theorem le_iff_rank_le (hx : 0 ≤ x) (hy : 0 ≤ y) : x ≤ y ↔ Weights.rank x ≤ Weights.rank y := by
  have hle : x ≤ y ↔ x.toModel.unpack.le y.toModel.unpack = true := decide_eq_true_iff
  rw [hle, UnpackedFloat.le, (zero_le_iff.mp hx).compare_eq (zero_le_iff.mp hy),
    Option.any_some, Ordering.isLE_iff_ne_gt]
  exact compare_le_iff_le

theorem beq_iff_rank_eq (hx : 0 ≤ x) (hy : 0 ≤ y) :
    (x == y) = true ↔ Weights.rank x = Weights.rank y := by
  have hbeq : (x == y) = x.toModel.unpack.beq y.toModel.unpack := rfl
  rw [hbeq, UnpackedFloat.beq, (zero_le_iff.mp hx).compare_eq (zero_le_iff.mp hy),
    beq_iff_eq, Option.some.injEq, compare_eq_iff_eq]
  rfl

private theorem NotNegative.isNaN_eq {u : UnpackedFloat} (hu : NotNegative u) :
    u.isNaN = false := by
  cases hu <;> rfl

private theorem NotNegative.rank_le {u : UnpackedFloat} (hu : NotNegative u) :
    unpackedRank u ≤ unpackedRank (.infinity .positive) := by
  cases hu with
  | zero s => exact Prod.Lex.toLex_le_toLex.mpr (.inl Nat.two_pos)
  | finite m e h => exact Prod.Lex.toLex_le_toLex.mpr (.inl Nat.one_lt_two)
  | infinity => exact le_refl _

private theorem isNaN_eq_false (hx : 0 ≤ x) : x.isNaN = false := (zero_le_iff.mp hx).isNaN_eq

theorem le_refl_of_zero_le (hx : 0 ≤ x) : x ≤ x := (le_iff_rank_le hx hx).mpr le_rfl

theorem le_trans_of_zero_le (hx : 0 ≤ x) (hy : 0 ≤ y) (hz : 0 ≤ z) (hxy : x ≤ y) (hyz : y ≤ z) :
    x ≤ z :=
  (le_iff_rank_le hx hz).mpr
    (((le_iff_rank_le hx hy).mp hxy).trans ((le_iff_rank_le hy hz).mp hyz))

theorem le_of_not_lt (hx : 0 ≤ x) (hy : 0 ≤ y) (h : ¬y < x) : x ≤ y := by
  rw [lt_iff_rank_lt hy hx, not_lt] at h
  exact (le_iff_rank_le hx hy).mpr h

theorem le_of_lt (hx : 0 ≤ x) (hy : 0 ≤ y) (h : x < y) : x ≤ y :=
  (le_iff_rank_le hx hy).mpr ((lt_iff_rank_lt hx hy).mp h).le

theorem zero_le_infinite : 0 ≤ Weights.infinite := by decide

theorem le_infinite (hx : 0 ≤ x) : x ≤ Weights.infinite := by
  rw [le_iff_rank_le hx zero_le_infinite]
  exact (zero_le_iff.mp hx).rank_le

/-! ### The lower and the higher weight -/

namespace Weights

/-- An operation that takes one of two weights, and one that is related to both of them. -/
structure Picks (R : Float32 → Float32 → Prop) (op : Float32 → Float32 → Float32) : Prop where
  eq_or_eq : ∀ x y, op x y = x ∨ op x y = y
  left : ∀ x y, 0 ≤ x → 0 ≤ y → R (op x y) x
  right : ∀ x y, 0 ≤ x → 0 ≤ y → R (op x y) y

theorem Picks.zero_le {R : Float32 → Float32 → Prop} {op : Float32 → Float32 → Float32}
    (h : Picks R op) (hx : 0 ≤ x) (hy : 0 ≤ y) : 0 ≤ op x y := by
  rcases h.eq_or_eq x y with heq | heq
  · rwa [heq]
  · rwa [heq]

/-- A fold comes to one of the weights, which is related to all of them. -/
theorem Picks.foldl {R : Float32 → Float32 → Prop} {op : Float32 → Float32 → Float32}
    (h : Picks R op) (hrefl : ∀ x, 0 ≤ x → R x x)
    (htrans : ∀ x y z, 0 ≤ x → 0 ≤ y → 0 ≤ z → R x y → R y z → R x z)
    {first : Float32} {weights : List Float32} (hfirst : 0 ≤ first)
    (hweights : ∀ x ∈ weights, 0 ≤ x) :
    weights.foldl op first ∈ first :: weights ∧
      ∀ x ∈ first :: weights, R (weights.foldl op first) x := by
  induction weights generalizing first with
  | nil =>
    rw [List.foldl_nil]
    refine ⟨List.mem_singleton.mpr rfl, fun x hx => ?_⟩
    rw [List.mem_singleton.mp hx]
    exact hrefl first hfirst
  | cons second rest ih =>
    obtain ⟨hsecond, hrest⟩ := List.forall_mem_cons.mp hweights
    have hop := h.zero_le hfirst hsecond
    obtain ⟨hmem, hall⟩ := ih hop hrest
    rw [List.foldl_cons]
    have hresult : 0 ≤ rest.foldl op (op first second) :=
      (List.forall_mem_cons.mpr ⟨hop, hrest⟩) _ hmem
    have hlinked : R (rest.foldl op (op first second)) (op first second) :=
      hall _ List.mem_cons_self
    constructor
    · rcases List.mem_cons.mp hmem with heq | hmem
      · rw [heq]
        rcases h.eq_or_eq first second with heq | heq
        · rw [heq]
          exact List.mem_cons_self
        · rw [heq]
          exact List.mem_cons_of_mem _ List.mem_cons_self
      · exact List.mem_cons_of_mem _ (List.mem_cons_of_mem _ hmem)
    · intro x hx
      rcases List.mem_cons.mp hx with rfl | hx
      · exact htrans _ _ _ hresult hop hfirst hlinked (h.left _ _ hfirst hsecond)
      · rcases List.mem_cons.mp hx with rfl | hx
        · exact htrans _ _ _ hresult hop hsecond hlinked (h.right _ _ hfirst hsecond)
        · exact hall x (List.mem_cons_of_mem _ hx)

private theorem picks_lower : Picks (· ≤ ·) lower where
  eq_or_eq x y := by
    simp only [lower]
    split_ifs <;> simp only [true_or, or_true]
  left x y hx hy := by
    simp only [lower, isNaN_eq_false hx, isNaN_eq_false hy, Bool.false_eq_true, if_false]
    by_cases h : y < x
    · rw [if_pos h]
      exact le_of_lt hy hx h
    · rw [if_neg h]
      exact le_refl_of_zero_le hx
  right x y hx hy := by
    simp only [lower, isNaN_eq_false hx, isNaN_eq_false hy, Bool.false_eq_true, if_false]
    by_cases h : y < x
    · rw [if_pos h]
      exact le_refl_of_zero_le hy
    · rw [if_neg h]
      exact le_of_not_lt hx hy h

private theorem picks_higher : Picks (fun x y => y ≤ x) higher where
  eq_or_eq x y := by
    simp only [higher]
    split_ifs <;> simp only [true_or, or_true]
  left x y hx hy := by
    simp only [higher, isNaN_eq_false hx, isNaN_eq_false hy, Bool.false_eq_true, if_false]
    by_cases h : x < y
    · rw [if_pos h]
      exact le_of_lt hx hy h
    · rw [if_neg h]
      exact le_refl_of_zero_le hx
  right x y hx hy := by
    simp only [higher, isNaN_eq_false hx, isNaN_eq_false hy, Bool.false_eq_true, if_false]
    by_cases h : x < y
    · rw [if_pos h]
      exact le_refl_of_zero_le hy
    · rw [if_neg h]
      exact le_of_not_lt hy hx h

/-- The fold that takes the lower weight comes to one that is not above another one. -/
theorem foldl_lower_spec {first : Float32} {weights : List Float32} (hfirst : 0 ≤ first)
    (h : ∀ x ∈ weights, 0 ≤ x) : weights.foldl lower first ∈ first :: weights ∧
      ∀ x ∈ first :: weights, weights.foldl lower first ≤ x :=
  picks_lower.foldl (fun _ => le_refl_of_zero_le)
    (fun _ _ _ => le_trans_of_zero_le) hfirst h

/-- The fold that takes the higher weight comes to one that is not below another one. -/
theorem foldl_higher_spec {first : Float32} {weights : List Float32} (hfirst : 0 ≤ first)
    (h : ∀ x ∈ weights, 0 ≤ x) : weights.foldl higher first ∈ first :: weights ∧
      ∀ x ∈ first :: weights, x ≤ weights.foldl higher first :=
  picks_higher.foldl (fun _ => le_refl_of_zero_le)
    (fun _ _ _ hx hy hz hxy hyz => le_trans_of_zero_le hz hy hx hyz hxy) hfirst h

end Weights

end Percolator
