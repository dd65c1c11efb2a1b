import Percolator.Proofs.Float.Rounding

/-!
# Positive scores

Scores are sums, products and quotients of roots, rounded. A positive score is compared by the bits
that it is written with, as these grow with the score; a score that is no number is never positive.
Sums of positive scores are positive, as are quotients of the roots of numbers that fit in 64 bits:
they are far above the smallest number. Zero times a positive number is zero.

## Main definitions

* `PositiveBits` : the bits of a positive number.
* `Normal` : a positive number whose exponent is within bounds.

## Main results

* `lt_iff_toBits_lt` : positive scores are ordered like their bits.
* `add_pos_of_pos`, `zero_add_pos` : sums of positive scores.
* `root_div_root_pos` : quotients of roots.
* `zero_mul_of_pos` : products with zero.
-/

open Float.Model Float.Model.UnpackedFloat

namespace Percolator

/-! ### The bits of positive scores -/

/-- The bits of a positive number, and the number as it is read from them. -/
inductive PositiveBits (b : Nat) : UnpackedFloat → Prop
  | subnormal {m : Nat} {e : Int} (hb : b = m) (hm : m < 2 ^ 23) (he : e = -149) (h : 0 < m) :
    PositiveBits b (.finite .positive m e h)
  | normal {k m : Nat} {e : Int} (hb : b + 2 ^ 23 = k * 2 ^ 23 + m) (hk : 0 < k) (hk' : k < 255)
    (hm : 2 ^ 23 ≤ m) (hm' : m < 2 ^ 24) (he : e = k - 150) (h : 0 < m) :
    PositiveBits b (.finite .positive m e h)
  | infinity (hb : b = 255 * 2 ^ 23) : PositiveBits b (.infinity .positive)

private theorem PositiveBits.lt_iff {b c : Nat} {u v : UnpackedFloat} (hu : PositiveBits b u)
    (hv : PositiveBits c v) : u.lt v = true ↔ b < c := by
  cases hu <;> cases hv <;>
    simp only [UnpackedFloat.lt, UnpackedFloat.compare, beq_iff_eq, Option.some.injEq,
      Ordering.then_eq_lt, Int.compare_eq_lt, Nat.compare_eq_lt, Int.compare_eq_eq, reduceCtorEq,
      false_iff, true_iff]
  all_goals omega

/-- A number in its sign, its exponent and its mantissa. -/
private theorem toNat_eq_add (b : BitVec Format.binary32.numBits) :
    b.toNat = (unpackSign b).toNat * 2 ^ 31 + (unpackExponent b).toNat * 2 ^ 23 +
      (unpackMantissa b).toNat := by
  have hb : b.toNat < 2 ^ 32 := b.isLt
  simp only [unpackSign, unpackExponent, unpackMantissa, BitVec.toNat_cast,
    BitVec.extractLsb_toNat, Nat.shiftRight_eq_div_pow]
  omega

/-- The bits of a number above zero. -/
private theorem positiveBits_unpack {b : BitVec Format.binary32.numBits}
    (hb : (UnpackedFloat.zero .positive).lt (unpack Format.binary32 b) = true) :
    PositiveBits b.toNat (unpack Format.binary32 b) := by
  have hparts := toNat_eq_add b
  have hmantissa : (unpackMantissa b).toNat < 2 ^ 23 := (unpackMantissa b).isLt
  have hexponent : (unpackExponent b).toNat < 2 ^ 8 := (unpackExponent b).isLt
  rw [UnpackedFloat.unpack] at hb ⊢
  simp only at hb ⊢
  have hsign : unpackSign b = 0#1 := by
    by_contra hne
    rw [show Sign.ofBitVec (unpackSign b) = .negative from if_neg hne] at hb
    split at hb <;> [split at hb; (split at hb <;> [split at hb; skip])] <;>
      simp only [UnpackedFloat.lt, UnpackedFloat.compare, beq_iff_eq, Option.some.injEq,
        reduceCtorEq] at hb
  rw [show Sign.ofBitVec (unpackSign b) = .positive from if_pos hsign] at hb ⊢
  rw [hsign, BitVec.toNat_ofNat, Nat.zero_mod, Nat.zero_mul, Nat.zero_add] at hparts
  by_cases hmax : unpackExponent b = -1#8
  · rw [if_pos hmax] at hb ⊢
    by_cases hzero : unpackMantissa b = 0#23
    · rw [if_pos hzero, hparts, hmax, hzero]
      exact .infinity rfl
    · rw [if_neg hzero] at hb
      simp only [UnpackedFloat.lt, UnpackedFloat.compare, beq_iff_eq, reduceCtorEq] at hb
  · rw [if_neg hmax] at hb ⊢
    have hmax : (unpackExponent b).toNat ≠ 255 := BitVec.toNat_ne.mp hmax
    by_cases hmin : unpackExponent b = 0#8
    · rw [if_pos hmin] at hb ⊢
      rw [hmin, BitVec.toNat_ofNat, Nat.zero_mod, Nat.zero_mul, Nat.zero_add] at hparts
      by_cases hzero : unpackMantissa b = 0#23
      · rw [dif_pos hzero] at hb
        simp only [UnpackedFloat.lt, UnpackedFloat.compare, beq_iff_eq, Option.some.injEq,
          reduceCtorEq] at hb
      · rw [dif_neg hzero]
        exact .subnormal hparts hmantissa (by rw [hmin]; rfl) _
    · rw [if_neg hmin]
      have hmin : (unpackExponent b).toNat ≠ 0 := BitVec.toNat_ne.mp hmin
      have hone := toNat_one_append (unpackMantissa b)
      have hbias : (Format.binary32.exponentBias : Int) = 127 := rfl
      refine .normal (k := (unpackExponent b).toNat) ?_ ?_ ?_ ?_ ?_ ?_ _
      all_goals omega

theorem lt_iff_unpack_lt {x y : Float32} :
    x < y ↔ x.toModel.unpack.lt y.toModel.unpack = true :=
  decide_eq_true_iff

/-- Positive scores are ordered like their bits. -/
theorem lt_iff_toBits_lt {x y : Float32} (hx : 0 < x) (hy : 0 < y) :
    x < y ↔ x.toBits.toNat < y.toBits.toNat := by
  rw [lt_iff_unpack_lt] at hx hy ⊢
  exact (positiveBits_unpack hx).lt_iff (positiveBits_unpack hy)

theorem toBits_injective {x y : Float32} (h : x.toBits.toNat = y.toBits.toNat) : x = y := by
  obtain ⟨⟨bits, hvalid⟩⟩ := x
  obtain ⟨⟨bits', hvalid'⟩⟩ := y
  obtain rfl : bits = bits' := UInt32.toNat_inj.mp h
  rfl

/-! ### Comparing with zero -/

variable {x y : Float32}

/-- A positive number has a mantissa and an exponent that are not too small, or is infinite. -/
private theorem unpack_of_pos (h : 0 < x) : x.toModel.unpack = .infinity .positive ∨
    ∃ m e h, x.toModel.unpack = .finite .positive m e h ∧ m < 2 ^ 24 ∧ -149 ≤ e := by
  have hbits := positiveBits_unpack (lt_iff_unpack_lt.mp h)
  have hunpack : x.toModel.unpack =
      UnpackedFloat.unpack Format.binary32 x.toModel.toBits.toBitVec := rfl
  rw [hunpack]
  generalize UnpackedFloat.unpack Format.binary32 x.toModel.toBits.toBitVec = u at hbits
  cases hbits with
  | subnormal hb hm he h => exact .inr ⟨_, _, h, rfl, by omega, by omega⟩
  | normal hb hk hk' hm hm' he h => exact .inr ⟨_, _, h, rfl, hm', by omega⟩
  | infinity hb => exact .inl rfl

theorem not_zero_lt_zero : ¬(0 : Float32) < 0 := by decide

theorem zero_le_zero : (0 : Float32) ≤ 0 := by decide

theorem not_le_zero_of_pos (h : 0 < x) : ¬x ≤ 0 := by
  have hle : x ≤ 0 ↔ x.toModel.unpack.le (UnpackedFloat.zero .positive) = true :=
    decide_eq_true_iff
  rw [hle]
  rcases unpack_of_pos h with hx | ⟨m, e, h, hx, -⟩
  · rw [hx]
    exact Bool.false_ne_true
  · rw [hx]
    exact Bool.false_ne_true

theorem beq_zero_of_pos (h : 0 < x) : (x == 0) = false := by
  have hbeq : (x == 0) = x.toModel.unpack.beq (UnpackedFloat.zero .positive) := rfl
  rw [hbeq]
  rcases unpack_of_pos h with hx | ⟨m, e, h, hx, -⟩
  · rw [hx]
    rfl
  · rw [hx]
    rfl

/-! ### Sums and products -/

/-- What is written from a mantissa and an exponent that are not too small is positive. -/
private theorem pos_of_pack {m : Nat} {e : Int} (h : 0 < m) (hm : m < 2 ^ 24) (he : -149 ≤ e) :
    0 < Float32.ofModel (.pack (.finite .positive m e h)) :=
  lt_iff_unpack_lt.mpr (positive_unpack_pack h hm he)

private theorem pos_of_pack_infinity : 0 < Float32.ofModel (.pack (.infinity .positive)) := by
  decide

/-- The sum of positive scores is positive. -/
theorem add_pos_of_pos (hx : 0 < x) (hy : 0 < y) : 0 < x + y := by
  have hadd : x + y = .ofModel (.pack
      (UnpackedFloat.add Format.binary32 x.toModel.unpack y.toModel.unpack)) := rfl
  rw [hadd]
  rcases unpack_of_pos hx with hx | ⟨m, e, hm, hx, -, hle⟩
  · rcases unpack_of_pos hy with hy | ⟨n, f, hn, hy, -⟩ <;>
    · rw [hx, hy]
      exact pos_of_pack_infinity
  · rcases unpack_of_pos hy with hy | ⟨n, f, hn, hy, -, hle'⟩
    · rw [hx, hy]
      exact pos_of_pack_infinity
    · rw [hx, hy]
      -- Both mantissas are written with the smaller exponent, and added.
      have hsum : UnpackedFloat.add Format.binary32 (.finite .positive m e hm)
          (.finite .positive n f hn) = normalize Format.binary32
            (m <<< (e - min e f).toNat + n <<< (f - min e f).toNat : Nat) (min e f)
            .positive := rfl
      have hpos : 0 < m <<< (e - min e f).toNat + n <<< (f - min e f).toNat := by
        rw [Nat.shiftLeft_eq]
        exact Nat.add_pos_left (Nat.mul_pos hm (Nat.two_pow_pos _)) _
      obtain ⟨m', e', h, hround, hlt, hle, -⟩ := round_spec hpos (e := min e f) (by omega)
      rw [hsum, normalize_of_pos hpos, hround]
      exact pos_of_pack h hlt hle

theorem zero_add_pos (hx : 0 < x) : 0 < 0 + x := by
  have hadd : 0 + x = .ofModel (.pack
      (UnpackedFloat.add Format.binary32 (.zero .positive) x.toModel.unpack)) := rfl
  rw [hadd]
  rcases unpack_of_pos hx with hx | ⟨m, e, h, hx, hlt, hle⟩
  · rw [hx]
    exact pos_of_pack_infinity
  · rw [hx]
    exact pos_of_pack h hlt hle

/-- Zero times a positive number is zero. -/
theorem zero_mul_of_pos (hx : 0 < x) (hfinite : x.isFinite = true) : 0 * x = 0 := by
  have hmul : 0 * x = .ofModel (.pack
      (UnpackedFloat.mul Format.binary32 (.zero .positive) x.toModel.unpack)) := rfl
  have hisFinite : x.isFinite = x.toModel.unpack.isFinite := rfl
  rw [hmul]
  rcases unpack_of_pos hx with hx | ⟨m, e, h, hx, -⟩
  · rw [hisFinite, hx] at hfinite
    exact absurd hfinite Bool.false_ne_true
  · rw [hx]
    rfl

/-! ### Quotients of roots -/

/-- A positive number with a mantissa of 24 digits and an exponent within bounds. -/
def Normal (least most : Int) (x : Float32) : Prop :=
  ∃ m e h, x.toModel.unpack = .finite .positive m e h ∧ 2 ^ 23 ≤ m ∧ m < 2 ^ 24 ∧
    least ≤ e ∧ e ≤ most

private theorem normal_of_pack {m : Nat} {e least most : Int} (h : 0 < m) (hm : 2 ^ 23 ≤ m)
    (hm' : m < 2 ^ 24) (hleast : least ≤ e) (hmost : e ≤ most) (hleast' : -149 ≤ least)
    (hmost' : most ≤ 104) :
    Normal least most (.ofModel (.pack (.finite .positive m e h))) :=
  ⟨m, e, h, unpack_pack_normal h hm hm' (by omega) (by omega), hm, hm', hleast, hmost⟩

/-- A number that fits in 64 bits. -/
private theorem normal_toFloat32 {n : UInt64} (h : 0 < n.toNat) : Normal (-23) 41 n.toFloat32 := by
  have hconvert : n.toFloat32 = .ofModel (.pack
      (normalize Format.binary32 (n.toNat : Int) 0 .positive)) := rfl
  obtain ⟨m, e, hm, hround, hlt, -, hlarge⟩ := round_spec h (e := 0) (by decide)
  have hlog : n.toNat.log2 < 64 := (Nat.log2_lt (Nat.ne_of_gt h)).mpr n.toNat_lt
  have htotal : totalExponent n.toNat 0 = (n.toNat.log2 : Int) + 1 + 0 := rfl
  obtain ⟨hdigits, hle, hle'⟩ := hlarge (by omega)
  rw [hconvert, normalize_of_pos h, hround]
  exact normal_of_pack hm hdigits hlt (by omega) (by omega) (by decide) (by decide)

/-- The root of a number between 1 and the largest one in 64 bits. -/
theorem Normal.sqrt (h : Normal (-23) 41 x) : Normal (-23) 10 x.sqrt := by
  obtain ⟨m, e, hpos, hx, hm, hm', hleast, hmost⟩ := h
  have hlog : m.log2 = 23 := (Nat.log2_eq_iff (Nat.ne_of_gt hpos)).mpr ⟨hm, hm'⟩
  have htotal : totalExponent m e = (m.log2 : Int) + 1 + e := rfl
  have htarget : min (e / 2) (max ((totalExponent m e + 1) / 2 - 24) (-149)) =
      (e + 25) / 2 - 24 := by omega
  have hsqrt : ∃ accuracy, UnpackedFloat.sqrt Format.binary32 (.finite .positive m e hpos) =
      roundWithAccuracy Format.binary32 .positive
        (m <<< (e - 2 * min (e / 2) (max ((totalExponent m e + 1) / 2 - 24) (-149))).toNat).sqrt
        (min (e / 2) (max ((totalExponent m e + 1) / 2 - 24) (-149))) accuracy := ⟨_, rfl⟩
  obtain ⟨accuracy, hsqrt⟩ := hsqrt
  rw [htarget] at hsqrt
  -- The root is taken of 47 or 48 digits, so that it has 24.
  have hroot : 2 ^ 23 ≤ (m <<< (e - 2 * ((e + 25) / 2 - 24)).toNat).sqrt ∧
      (m <<< (e - 2 * ((e + 25) / 2 - 24)).toNat).sqrt < 2 ^ 24 := by
    have hshift : (e - 2 * ((e + 25) / 2 - 24)).toNat = 23 ∨
        (e - 2 * ((e + 25) / 2 - 24)).toNat = 24 := by omega
    rw [Nat.le_sqrt, Nat.sqrt_lt, Nat.shiftLeft_eq]
    rcases hshift with h | h <;> rw [h] <;> omega
  generalize (m <<< (e - 2 * ((e + 25) / 2 - 24)).toNat).sqrt = root at hsqrt hroot
  have hrootpos : 0 < root := by omega
  have hrootlog : root.log2 = 23 := (Nat.log2_eq_iff (Nat.ne_of_gt hrootpos)).mpr hroot
  obtain ⟨m', e', hpos', hround, hlt, hle, hlarge⟩ :=
    roundWithAccuracy_spec hrootpos (e := (e + 25) / 2 - 24) (by omega) accuracy
  obtain ⟨hdigits, htotal'⟩ := hlarge hroot.1
  rw [totalExponent, hrootlog] at htotal'
  have hresult : x.sqrt = .ofModel (.pack
      (UnpackedFloat.sqrt Format.binary32 x.toModel.unpack)) := rfl
  rw [hresult, hx, hsqrt, hround]
  exact normal_of_pack hpos' hdigits hlt (by omega) (by omega) (by decide) (by decide)

/-- The quotient of two such roots is far above the smallest number. -/
private theorem Normal.div_pos (hx : Normal (-23) 10 x) (hy : Normal (-23) 10 y) : 0 < x / y := by
  obtain ⟨m, e, hm, hx, hdigits, hlt, hleast, hmost⟩ := hx
  obtain ⟨n, f, hn, hy, hdigits', hlt', hleast', hmost'⟩ := hy
  have htotal : totalExponent m e = (m.log2 : Int) + 1 + e := rfl
  have htotal' : totalExponent n f = (n.log2 : Int) + 1 + f := rfl
  have hlog : m.log2 = 23 := (Nat.log2_eq_iff (Nat.ne_of_gt hm)).mpr ⟨hdigits, hlt⟩
  have hlog' : n.log2 = 23 := (Nat.log2_eq_iff (Nat.ne_of_gt hn)).mpr ⟨hdigits', hlt'⟩
  have htarget : min (e - f) (max (totalExponent m e - totalExponent n f - 24) (-149)) =
      e - f - 24 := by omega
  have hdiv : ∃ accuracy, UnpackedFloat.div Format.binary32 (.finite .positive m e hm)
      (.finite .positive n f hn) = roundWithAccuracy Format.binary32 .positive
        (m <<< (e - f - min (e - f)
          (max (totalExponent m e - totalExponent n f - 24) (-149))).toNat / n)
        (min (e - f) (max (totalExponent m e - totalExponent n f - 24) (-149)))
        accuracy := ⟨_, rfl⟩
  obtain ⟨accuracy, hdiv⟩ := hdiv
  rw [htarget, show (e - f - (e - f - 24)).toNat = 24 by omega] at hdiv
  have hquotient : 0 < m <<< 24 / n := by
    rw [Nat.shiftLeft_eq]
    exact Nat.div_pos (by omega) hn
  obtain ⟨m', e', hpos, hround, hlt, hle, -⟩ :=
    roundWithAccuracy_spec hquotient (e := e - f - 24) (by omega) accuracy
  have hresult : x / y = .ofModel (.pack
      (UnpackedFloat.div Format.binary32 x.toModel.unpack y.toModel.unpack)) := rfl
  rw [hresult, hx, hy, hdiv, hround]
  exact pos_of_pack hpos hlt (by omega)

/-- The quotient of the roots of two numbers that fit in 64 bits is positive. -/
theorem root_div_root_pos {n m : Nat} (hn : 0 < n) (hn' : n < 2 ^ 64) (hm : 0 < m)
    (hm' : m < 2 ^ 64) :
    0 < n.toUInt64.toFloat32.sqrt / m.toUInt64.toFloat32.sqrt := by
  have hnormal : ∀ {n : Nat}, 0 < n → n < 2 ^ 64 → Normal (-23) 41 n.toUInt64.toFloat32 := by
    intro n hn hn'
    refine normal_toFloat32 ?_
    rwa [Nat.toUInt64_eq, UInt64.toNat_ofNat', Nat.mod_eq_of_lt hn']
  exact (hnormal hn hn').sqrt.div_pos (hnormal hm hm').sqrt

end Percolator
