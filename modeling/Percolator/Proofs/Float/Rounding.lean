import Mathlib

/-!
# Rounding numbers above zero

A number above zero is a mantissa and an exponent. It is rounded to a mantissa of at most 24 binary
digits, and its exponent does not sink below that of the smallest number: so a number whose exponent
is large enough to begin with is above zero after rounding, and is read as it was written. Where the
mantissa had all 24 digits or more, it keeps 24, and the position of the first digit moves by at
most one, when rounding carries.

## Main results

* `roundWithAccuracy_spec`, `round_spec` : what a number above zero is rounded to.
* `unpack_pack_normal`, `positive_unpack_pack` : what is read from the bits of a number.
-/

open Float.Model Float.Model.UnpackedFloat

namespace Percolator

/-! ### Rounding -/

private theorem mantissa_shiftRight (em : ExtendedMantissa) (n : Nat) :
    (em >>> n).mantissa = em.mantissa / 2 ^ n := by
  have hrepeat : ∀ n, (n.repeat ExtendedMantissa.shiftRightOne em).mantissa =
      em.mantissa / 2 ^ n := by
    intro n
    induction n with
    | zero => exact (Nat.div_one _).symm
    | succ n ih => rw [Nat.repeat, ExtendedMantissa.shiftRightOne, ih, Nat.div_div_eq_div_mul,
        Nat.pow_succ]
  exact hrepeat n

private theorem roundedMantissa_eq (em : ExtendedMantissa) :
    em.roundedMantissa = em.mantissa ∨ em.roundedMantissa = em.mantissa + 1 := by
  obtain ⟨m, round, sticky⟩ := em
  cases round <;> cases sticky
  · exact .inl rfl
  · exact .inl rfl
  · have hround : ExtendedMantissa.roundedMantissa ⟨m, true, false⟩ = m + m % 2 := rfl
    rw [hround]
    dsimp only
    omega
  · exact .inr rfl

private theorem targetExponent_binary32 (n : Int) :
    Format.binary32.targetExponent n = max (n - 24) (-149) := rfl

/-- Dropping all but 24 digits of a number. -/
private theorem div_two_pow_log2 {m : Nat} (hm : 0 < m) (h : 23 ≤ m.log2) :
    2 ^ 23 ≤ m / 2 ^ (m.log2 - 23) ∧ m / 2 ^ (m.log2 - 23) < 2 ^ 24 := by
  have hpos : 0 < 2 ^ (m.log2 - 23) := Nat.two_pow_pos _
  rw [Nat.le_div_iff_mul_le hpos, Nat.div_lt_iff_lt_mul hpos, ← Nat.pow_add, ← Nat.pow_add]
  constructor
  · rw [Nat.add_sub_cancel' h]
    exact Nat.log2_self_le (Nat.ne_of_gt hm)
  · rw [show 24 + (m.log2 - 23) = m.log2 + 1 by omega]
    exact Nat.lt_log2_self

private theorem shiftToTargetExponent_spec {m : Nat} {e : Int} (hm : 0 < m) (he : -149 ≤ e)
    (accuracy : Accuracy) :
    ∃ em e', shiftToTargetExponent Format.binary32 m e accuracy = (em, e') ∧ 0 < em.mantissa ∧
      em.mantissa < 2 ^ 24 ∧ e ≤ e' ∧
      (2 ^ 23 ≤ m → 2 ^ 23 ≤ em.mantissa ∧ e' + 24 = totalExponent m e) := by
  refine ⟨_, _, rfl, ?_⟩
  have hmantissa : (ExtendedMantissa.ofMantissaAndAccuracy m accuracy).mantissa = m := by
    match accuracy with
    | .exact | .inexact .lt | .inexact .eq | .inexact .gt => rfl
  have hlog := Nat.le_log2 (Nat.ne_of_gt hm) (k := 23)
  rw [mantissa_shiftRight, hmantissa, targetExponent_binary32, totalExponent]
  by_cases hlarge : 23 ≤ m.log2
  · have hshift : (max ((m.log2 : Int) + 1 + e - 24) (-149) - e).toNat = m.log2 - 23 := by omega
    obtain ⟨hle, hlt⟩ := div_two_pow_log2 hm hlarge
    rw [hshift]
    exact ⟨by omega, hlt, by omega, fun _ => ⟨hle, by omega⟩⟩
  · have hshift : (max ((m.log2 : Int) + 1 + e - 24) (-149) - e).toNat = 0 := by omega
    rw [hshift, Nat.pow_zero, Nat.div_one]
    omega

theorem roundWithAccuracy_spec {m : Nat} {e : Int} (hm : 0 < m) (he : -149 ≤ e)
    (accuracy : Accuracy) :
    ∃ m' e' h, roundWithAccuracy Format.binary32 .positive m e accuracy =
        .finite .positive m' e' h ∧ m' < 2 ^ 24 ∧ e ≤ e' ∧
      (2 ^ 23 ≤ m → 2 ^ 23 ≤ m' ∧ totalExponent m e ≤ e' + 24 ∧
        e' + 23 ≤ totalExponent m e) := by
  obtain ⟨em, e₁, hshift, hpos, hlt, hle, hlarge⟩ := shiftToTargetExponent_spec hm he accuracy
  have hround := roundedMantissa_eq em
  have hrounded : 0 < em.roundedMantissa := by omega
  obtain ⟨em', e', hshift', hpos', hlt', hle', hlarge'⟩ :=
    shiftToTargetExponent_spec hrounded (Int.le_trans he hle) .exact
  refine ⟨em'.mantissa, e', hpos', ?_, hlt', Int.le_trans hle hle', fun h => ?_⟩
  · simp only [roundWithAccuracy, hshift, hshift']
    exact dif_neg (Nat.ne_of_gt hpos')
  · obtain ⟨hle₁, htotal⟩ := hlarge h
    obtain ⟨hle₂, htotal'⟩ := hlarge' (by omega)
    -- Rounding may carry into the 25th digit, which the second shift drops.
    have hlog : em.roundedMantissa.log2 = 23 ∨ em.roundedMantissa.log2 = 24 := by
      rcases Nat.lt_or_ge em.roundedMantissa (2 ^ 24) with hcarry | hcarry
      · exact .inl ((Nat.log2_eq_iff (Nat.ne_of_gt hrounded)).mpr ⟨by omega, hcarry⟩)
      · exact .inr ((Nat.log2_eq_iff (Nat.ne_of_gt hrounded)).mpr ⟨hcarry, by omega⟩)
    rw [totalExponent] at htotal'
    exact ⟨hle₂, by omega, by omega⟩

private theorem log2_shiftLeft {m : Nat} (hm : 0 < m) (k : Nat) : (m <<< k).log2 = m.log2 + k := by
  have hpos : 0 < 2 ^ k := Nat.two_pow_pos k
  have hne : m * 2 ^ k ≠ 0 := Nat.ne_of_gt (Nat.mul_pos hm hpos)
  rw [Nat.shiftLeft_eq, Nat.log2_eq_iff hne, Nat.pow_add, Nat.add_right_comm, Nat.pow_add]
  exact ⟨Nat.mul_le_mul_right _ (Nat.log2_self_le (Nat.ne_of_gt hm)),
    Nat.mul_lt_mul_of_pos_right Nat.lt_log2_self hpos⟩

theorem round_spec {m : Nat} {e : Int} (hm : 0 < m) (he : -149 ≤ e) :
    ∃ m' e' h, round Format.binary32 .positive m e = .finite .positive m' e' h ∧
      m' < 2 ^ 24 ∧ -149 ≤ e' ∧
      (-125 ≤ totalExponent m e → 2 ^ 23 ≤ m' ∧ totalExponent m e ≤ e' + 24 ∧
        e' + 23 ≤ totalExponent m e) := by
  have hround : round Format.binary32 .positive m e =
      roundWithAccuracy Format.binary32 .positive
        (m <<< (e - max (totalExponent m e - 24) (-149)).toNat)
        (e - (e - max (totalExponent m e - 24) (-149)).toNat) .exact := rfl
  have htotal : totalExponent m e = (m.log2 : Int) + 1 + e := rfl
  generalize hk : (e - max (totalExponent m e - 24) (-149)).toNat = k at hround
  have hshift : 0 < m <<< k := by
    rw [Nat.shiftLeft_eq]
    exact Nat.mul_pos hm (Nat.two_pow_pos k)
  have hlog := log2_shiftLeft hm k
  obtain ⟨m', e', h, hrounded, hlt, hle, hlarge⟩ :=
    roundWithAccuracy_spec hshift (e := e - k) (by omega) .exact
  refine ⟨m', e', h, hround.trans hrounded, hlt, by omega, fun hnormal => ?_⟩
  have hdigits : 2 ^ 23 ≤ m <<< k := (Nat.le_log2 (Nat.ne_of_gt hshift)).mp (by omega)
  obtain ⟨hle', htotal'⟩ := hlarge hdigits
  rw [totalExponent, hlog] at htotal'
  exact ⟨hle', by omega⟩

theorem normalize_of_pos {n : Nat} {e : Int} (h : 0 < n) :
    normalize Format.binary32 n e .positive = round Format.binary32 .positive n e := by
  have hcompare : compare (n : Int) 0 = .gt := Int.compare_eq_gt.mpr (Int.natCast_pos.mpr h)
  simp only [UnpackedFloat.normalize, hcompare, Int.toNat_natCast]

/-! ### Bits -/

theorem toNat_one_append (m : BitVec 23) : (1#1 ++ m).toNat = 2 ^ 23 + m.toNat := by
  rw [BitVec.toNat_append, ← Nat.shiftLeft_add_eq_or_of_lt m.isLt]
  rfl

private theorem unpackSign_packComponents {sign : Sign} {exponent : BitVec 8}
    {mantissa : BitVec 23} :
    unpackSign (packComponents Format.binary32 sign exponent mantissa) = sign.toBitVec := by
  ext i hi
  obtain rfl : i = 0 := by omega
  have hbit : (sign.toBitVec ++ exponent ++ mantissa).getLsbD 31 = sign.toBitVec.getLsbD 0 := by
    rw [BitVec.getLsbD_append, if_neg (by decide), BitVec.getLsbD_append, if_neg (by decide)]
  simp only [unpackSign, Nat.reduceAdd, Nat.reduceSub, packComponents, BitVec.cast_eq,
    BitVec.getElem_extract, Nat.add_zero]
  exact hbit

private theorem positive_iff {u : UnpackedFloat} : (UnpackedFloat.zero .positive).lt u = true ↔
    u = .infinity .positive ∨ ∃ m e h, u = .finite .positive m e h := by
  rcases u with sign | _ | sign | ⟨sign, m, e, h⟩
  · cases sign <;> simp [UnpackedFloat.lt, UnpackedFloat.compare]
  · simp [UnpackedFloat.lt, UnpackedFloat.compare]
  · cases sign <;> simp [UnpackedFloat.lt, UnpackedFloat.compare]
  · cases sign <;> simp [UnpackedFloat.lt, UnpackedFloat.compare, h]

private theorem unpack_packComponents {exponent : BitVec 8} (mantissa : BitVec 23)
    (hmax : exponent ≠ -1#8) (hmin : exponent ≠ 0#8) : ∃ h,
    UnpackedFloat.unpack Format.binary32
      (packComponents Format.binary32 .positive exponent mantissa) =
      .finite .positive (2 ^ 23 + mantissa.toNat) (exponent.toNat - 150) h := by
  have hpos : 0 < 2 ^ 23 + mantissa.toNat := Nat.add_pos_left (by decide) _
  refine ⟨hpos, ?_⟩
  simp only [UnpackedFloat.unpack, unpackExponent_packComponents, unpackMantissa_packComponents,
    unpackSign_packComponents]
  rw [if_neg hmax, if_neg hmin]
  simp only [toNat_one_append]
  rfl

private theorem unpack_packedInfinity : UnpackedFloat.unpack Format.binary32
    (packedInfinity Format.binary32 .positive) = .infinity .positive := by
  rfl

private theorem unpack_packComponents_subnormal {mantissa : BitVec 23} (h : mantissa ≠ 0#23) :
    ∃ m e h,
    UnpackedFloat.unpack Format.binary32
      (packComponents Format.binary32 .positive 0#8 mantissa) = .finite .positive m e h := by
  simp only [UnpackedFloat.unpack, unpackExponent_packComponents, unpackMantissa_packComponents,
    unpackSign_packComponents]
  rw [if_neg (by decide), if_pos trivial, dif_neg h]
  exact ⟨mantissa.toNat, _, BitVec.toNat_pos_of_ne_zero h, rfl⟩

private theorem biasedExponent_eq (e : Int) :
    (e + (Format.binary32.exponentBias : Int) + (23 : Nat)).toNat = (e + 150).toNat := by
  have hbias : (Format.binary32.exponentBias : Int) = 127 := rfl
  omega

/-- A number in its normal form is read as it was written. -/
theorem unpack_pack_normal {m : Nat} {e : Int} (h : 0 < m) (hm : 2 ^ 23 ≤ m) (hm' : m < 2 ^ 24)
    (he : -149 ≤ e) (he' : e ≤ 104) :
    UnpackedFloat.unpack Format.binary32 (UnpackedFloat.pack Format.binary32
      (.finite .positive m e h)) = .finite .positive m e h := by
  have hlog : m.log2 + 1 = Format.binary32.mantissaBits := by
    rw [(Nat.log2_eq_iff (Nat.ne_of_gt h)).mpr ⟨hm, hm'⟩]
    rfl
  have hexponent : (BitVec.ofNat 8 (e + 150).toNat).toNat = (e + 150).toNat := by
    rw [BitVec.toNat_ofNat, Nat.mod_eq_of_lt (by omega)]
  have hmantissa : (BitVec.ofNat 23 m).toNat = m - 2 ^ 23 := by
    rw [BitVec.toNat_ofNat]
    omega
  have hmax : BitVec.ofNat 8 (e + 150).toNat ≠ -1#8 := fun heq => by
    have htoNat := congrArg BitVec.toNat heq
    rw [hexponent, show (-1#8).toNat = 255 from rfl] at htoNat
    omega
  have hmin : BitVec.ofNat 8 (e + 150).toNat ≠ 0#8 := fun heq => by
    have htoNat := congrArg BitVec.toNat heq
    rw [hexponent, show (0#8).toNat = 0 from rfl] at htoNat
    omega
  simp only [UnpackedFloat.pack, biasedExponent_eq, hlog, if_true]
  rw [if_neg (by omega)]
  obtain ⟨hpos, hunpack⟩ := unpack_packComponents (BitVec.ofNat 23 m) hmax hmin
  have hm₂ : 2 ^ 23 + (BitVec.ofNat 23 m).toNat = m := by omega
  have he₂ : ((BitVec.ofNat 8 (e + 150).toNat).toNat : Int) - 150 = e := by omega
  exact hunpack.trans ((UnpackedFloat.finite.injEq ..).mpr ⟨rfl, hm₂, he₂⟩)

/-- A number above zero is read as one, unless it was too small to be written. -/
theorem positive_unpack_pack {m : Nat} {e : Int} (h : 0 < m) (hm : m < 2 ^ 24) (he : -149 ≤ e) :
    (UnpackedFloat.zero .positive).lt (UnpackedFloat.unpack Format.binary32
      (UnpackedFloat.pack Format.binary32 (.finite .positive m e h))) = true := by
  rw [positive_iff]
  by_cases hlarge : 104 < e
  · refine .inl ?_
    simp only [UnpackedFloat.pack, biasedExponent_eq]
    rw [if_pos (by omega)]
    exact unpack_packedInfinity
  rcases Nat.lt_or_ge m (2 ^ 23) with hsmall | hnormal
  · have hlog : m.log2 + 1 ≠ Format.binary32.mantissaBits := by
      have hlt := (Nat.log2_lt (Nat.ne_of_gt h)).mpr hsmall
      have hbits : Format.binary32.mantissaBits = 24 := rfl
      omega
    have hmantissa : BitVec.ofNat 23 m ≠ 0#23 := fun heq => by
      have htoNat := congrArg BitVec.toNat heq
      rw [BitVec.toNat_ofNat, Nat.mod_eq_of_lt hsmall, show (0#23).toNat = 0 from rfl] at htoNat
      omega
    simp only [UnpackedFloat.pack, biasedExponent_eq, if_neg hlog]
    rw [if_neg (by omega)]
    exact .inr (unpack_packComponents_subnormal hmantissa)
  · exact .inr ⟨m, e, h, unpack_pack_normal h hnormal hm he (by omega)⟩

end Percolator
