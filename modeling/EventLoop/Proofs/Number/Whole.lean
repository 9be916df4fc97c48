import Mathlib
import EventLoop.Number.Numeral

/-!
# Whole numbers as doubles

A natural number below `2 ^ 53` is a double without rounding: its mantissa is the number itself,
moved up until it has 53 bits. Rounding drops only zeros, and packing keeps such a mantissa.
-/

namespace EventLoop.Number

open Float.Model UnpackedFloat

/-- Is this the mantissa of a normal double? -/
def FullMantissa (m : Nat) : Prop :=
  2 ^ 52 ≤ m ∧ m < 2 ^ 53

namespace FullMantissa

variable {m : Nat}

theorem pos (full : FullMantissa m) : 0 < m :=
  Nat.lt_of_lt_of_le (Nat.two_pow_pos 52) full.1

theorem log2_mul (full : FullMantissa m) (k : Nat) : (m * 2 ^ k).log2 = 52 + k := by
  have low : 2 ^ (52 + k) ≤ m * 2 ^ k := by
    rw [Nat.pow_add]
    exact Nat.mul_le_mul_right _ full.1
  have high : m * 2 ^ k < 2 ^ (52 + k + 1) := by
    rw [show 52 + k + 1 = 53 + k by omega, Nat.pow_add]
    exact Nat.mul_lt_mul_of_pos_right full.2 (Nat.two_pow_pos k)
  have filled : m * 2 ^ k ≠ 0 := Nat.ne_of_gt (Nat.mul_pos full.pos (Nat.two_pow_pos k))
  exact (Nat.log2_eq_iff filled).mpr ⟨low, high⟩

theorem log2_eq (full : FullMantissa m) : m.log2 = 52 := by
  simpa using full.log2_mul 0

end FullMantissa

/-! ## Rounding -/

/-- Zeros are dropped without a trace. -/
theorem shiftRight_zeros (m k : Nat) :
    (⟨m * 2 ^ k, false, false⟩ : ExtendedMantissa) >>> k = ⟨m, false, false⟩ := by
  show Nat.repeat ExtendedMantissa.shiftRightOne k _ = _
  induction k generalizing m with
  | zero => rw [Nat.pow_zero, Nat.mul_one]; rfl
  | succ k ih =>
    rw [Nat.pow_succ', ← Nat.mul_assoc, Nat.repeat, ih]
    simp [ExtendedMantissa.shiftRightOne]

theorem shiftToTargetExponent_full {m : Nat} (full : FullMantissa m) {e : Int} (small : -1074 ≤ e)
    (k : Nat) :
    shiftToTargetExponent Format.binary64 (m * 2 ^ k) (e - k) .exact = (⟨m, false, false⟩, e) := by
  have target : Format.binary64.targetExponent (totalExponent (m * 2 ^ k) (e - k)) = e := by
    rw [Format.targetExponent, totalExponent, full.log2_mul]
    show max (((52 + k : Nat) : Int) + 1 + (e - k) - 53) (-1074) = e
    omega
  have amount : (e - (e - k)).toNat = k := by omega
  rw [shiftToTargetExponent, target, shiftToExponent, amount]
  refine Prod.ext (shiftRight_zeros m k) ?_
  show e - k + k = e
  omega

/-- A number whose further bits are zeros is not changed by rounding. -/
theorem roundWithAccuracy_full {m : Nat} (full : FullMantissa m) {e : Int} (small : -1074 ≤ e)
    (sign : Sign) (k : Nat) :
    roundWithAccuracy Format.binary64 sign (m * 2 ^ k) (e - k) .exact =
      .finite sign m e full.pos := by
  have again := shiftToTargetExponent_full full small 0
  rw [Nat.pow_zero, Nat.mul_one, show e - (0 : Nat) = e by omega] at again
  have rounded : (⟨m, false, false⟩ : ExtendedMantissa).roundedMantissa = m := rfl
  simp only [roundWithAccuracy, shiftToTargetExponent_full full small k, rounded, again,
    Nat.ne_of_gt full.pos, dite_false]

/-- A natural number with at most 53 bits, as mantissa and exponent. -/
theorem round_whole {n : Nat} (some : 0 < n) {k : Nat} (bits : n.log2 + k = 52) (sign : Sign) :
    ∃ full : FullMantissa (n * 2 ^ k),
      UnpackedFloat.round Format.binary64 sign n 0 = .finite sign (n * 2 ^ k) (-k) full.pos := by
  have bounds := (Nat.log2_eq_iff (Nat.ne_of_gt some)).mp rfl
  have full : FullMantissa (n * 2 ^ k) := by
    constructor
    · rw [← bits, Nat.pow_add]
      exact Nat.mul_le_mul_right _ bounds.1
    · rw [show 53 = n.log2 + 1 + k by omega, Nat.pow_add]
      exact Nat.mul_lt_mul_of_pos_right bounds.2 (Nat.two_pow_pos k)
  have target : Format.binary64.targetExponent (totalExponent n 0) = -k := by
    rw [Format.targetExponent, totalExponent]
    show max ((n.log2 : Int) + 1 + 0 - 53) (-1074) = -k
    omega
  have moved : decreaseExponent n 0 (-k) = (n * 2 ^ k, -(k : Int)) := by
    rw [decreaseExponent, show ((0 : Int) - -k).toNat = k by omega, Nat.shiftLeft_eq]
    exact Prod.ext rfl (Int.zero_sub _)
  have whole := roundWithAccuracy_full full (e := -k) (by omega) sign 0
  rw [Nat.pow_zero, Nat.mul_one, show -(k : Int) - (0 : Nat) = -k by omega] at whole
  refine ⟨full, ?_⟩
  rw [UnpackedFloat.round, target, moved]
  exact whole

/-! ## Packing -/

theorem unpackSign_packComponents {format : Float.Model.Format} {sign : Sign}
    {e : BitVec format.exponentBits} {m : BitVec format.mantissaBitsWithoutImplicit} :
    unpackSign (packComponents format sign e m) = sign.toBitVec := by
  ext i bit
  obtain rfl : i = 0 := Nat.lt_one_iff.mp bit
  simp [unpackSign, packComponents, BitVec.getLsbD_append, BitVec.getElem_append]

theorem ofBitVec_toBitVec (sign : Sign) : Sign.ofBitVec sign.toBitVec = sign := by
  cases sign <;> rfl

/-- The bit that is left out when a normal double is packed is put back. -/
theorem toNat_leadingBit {m : Nat} (full : FullMantissa m) :
    (1#1 ++ BitVec.ofNat 52 m).toNat = m := by
  obtain ⟨low, high⟩ := full
  rw [BitVec.toNat_append, ← Nat.shiftLeft_add_eq_or_of_lt (BitVec.ofNat 52 m).isLt,
    BitVec.toNat_ofNat, Nat.shiftLeft_eq, BitVec.toNat_ofNat]
  omega

/-- Packing keeps a normal double. -/
theorem unpack_pack_full {m : Nat} (full : FullMantissa m) {e : Int} (low : -1074 ≤ e)
    (high : e ≤ 971) (sign : Sign) :
    (Float.Model.pack (.finite sign m e full.pos)).unpack = .finite sign m e full.pos := by
  obtain ⟨biased, shifted⟩ := Int.eq_ofNat_of_zero_le (show 0 ≤ e + 1075 by omega)
  have packed : UnpackedFloat.pack Format.binary64 (.finite sign m e full.pos) =
      packComponents Format.binary64 sign (BitVec.ofNat 11 biased) (BitVec.ofNat 52 m) := by
    have exponent : (e + Format.binary64.exponentBias +
        Format.binary64.mantissaBitsWithoutImplicit).toNat = biased := by
      show (e + 1023 + 52).toNat = biased
      omega
    rw [UnpackedFloat.pack]
    simp only [exponent, full.log2_eq]
    rw [if_neg (show ¬ 2 ^ 11 ≤ biased + 1 by omega),
      if_pos (show 52 + 1 = Format.binary64.mantissaBits from rfl)]
  have exponent : (BitVec.ofNat 11 biased).toNat = biased := by
    rw [BitVec.toNat_ofNat]
    omega
  have other {x : BitVec 11} (apart : biased ≠ x.toNat) : BitVec.ofNat 11 biased ≠ x := by
    rintro rfl
    exact apart exponent.symm
  have finite : BitVec.ofNat 11 biased ≠ -1#11 := other (show biased ≠ 2047 by omega)
  have normal : BitVec.ofNat 11 biased ≠ 0#11 := other (show biased ≠ 0 by omega)
  show UnpackedFloat.unpack Format.binary64 (UnpackedFloat.pack Format.binary64 _) = _
  rw [packed, UnpackedFloat.unpack]
  simp only [unpackMantissa_packComponents, unpackExponent_packComponents,
    unpackSign_packComponents, finite, normal, if_false, ofBitVec_toBitVec, exponent,
    toNat_leadingBit full]
  have restored : (biased : Int) - (Format.binary64.exponentBias + (52 : Nat)) = e := by
    show (biased : Int) - (1023 + 52) = e
    omega
  rw [restored]

/-! ## Whole numbers -/

theorem unpack_toFloat {n : Nat} (some : 0 < n) {k : Nat} (bits : n.log2 + k = 52) :
    ∃ full : FullMantissa (n * 2 ^ k),
      n.toUInt64.toFloat.toModel.unpack = .finite .positive (n * 2 ^ k) (-k) full.pos := by
  obtain ⟨full, rounded⟩ := round_whole some bits .positive
  have small : n < 2 ^ 64 := (Nat.log2_lt (Nat.ne_of_gt some)).mp (by omega)
  have converted : UnpackedFloat.ofUInt64 Format.binary64 n.toUInt64 =
      UnpackedFloat.round Format.binary64 .positive n 0 := by
    have word : n.toUInt64.toNat = n := UInt64.toNat_ofNat_of_lt' small
    have sign : compare (n : Int) 0 = .gt := Int.compare_eq_gt.mpr (Int.natCast_pos.mpr some)
    rw [UnpackedFloat.ofUInt64, word, UnpackedFloat.ofNat, UnpackedFloat.ofInt,
      UnpackedFloat.normalize, sign]
    rfl
  refine ⟨full, ?_⟩
  show (Float.Model.pack (UnpackedFloat.ofUInt64 Format.binary64 n.toUInt64)).unpack = _
  rw [converted, rounded]
  exact unpack_pack_full full (by omega) (by omega) .positive

theorem unpack_one :
    (Float.ofBits 0x3FF0000000000000).toModel.unpack =
      .finite .positive (2 ^ 52) (-52) (Nat.two_pow_pos 52) := by
  rfl

/-- A whole number below `2 ^ 53` is a double. -/
theorem unpack_ofNat {n : Nat} (some : 0 < n) (small : n < 2 ^ 53) :
    ∃ (k : Nat) (full : FullMantissa (n * 2 ^ k)),
      (Float.ofNat n).toModel.unpack = .finite .positive (n * 2 ^ k) (-k) full.pos := by
  have bits : n.log2 < 53 := (Nat.log2_lt (Nat.ne_of_gt some)).mpr small
  obtain ⟨k, bits⟩ := Nat.exists_eq_add_of_le (Nat.le_of_lt_succ bits)
  obtain ⟨full, converted⟩ := unpack_toFloat some bits.symm
  have product : (Float.ofNat n) = n.toUInt64.toFloat * Float.ofBits 0x3FF0000000000000 :=
    dif_pos ⟨small, Nat.zero_le 22⟩
  refine ⟨k, full, ?_⟩
  -- the factor is one, so the product of the mantissas only gains 52 zeros
  rw [product]
  show (Float.Model.pack (UnpackedFloat.mul Format.binary64 n.toUInt64.toFloat.toModel.unpack
    (Float.ofBits 0x3FF0000000000000).toModel.unpack)).unpack = _
  rw [converted, unpack_one, UnpackedFloat.mul]
  have rounded := roundWithAccuracy_full full (e := -k) (by omega) .positive 52
  show (Float.Model.pack (roundWithAccuracy Format.binary64 .positive (n * 2 ^ k * 2 ^ 52)
    (-k - (52 : Nat)) .exact)).unpack = _
  rw [rounded]
  exact unpack_pack_full full (by omega) (by omega) .positive

/-- The whole part of a whole number. -/
theorem wholeWithin_ofNat {n : Nat} (small : n < 2 ^ 53) :
    wholeWithin 0 maxWord (Float.ofNat n) = n := by
  rcases Nat.eq_zero_or_pos n with rfl | some
  · decide +kernel
  obtain ⟨k, full, unpacked⟩ := unpack_ofNat some small
  have whole : ((n * 2 ^ k : Nat) : Int) * Nat.pow 2 (-(k : Int)).toNat /
      Nat.pow 2 (- -(k : Int)).toNat = n := by
    rw [show (-(k : Int)).toNat = 0 by omega, show (- -(k : Int)).toNat = k by omega,
      ← Int.natCast_mul, ← Int.natCast_ediv]
    show ((n * 2 ^ k * 1 / 2 ^ k : Nat) : Int) = n
    rw [Nat.mul_one, Nat.mul_div_cancel _ (Nat.two_pow_pos k)]
  rw [wholeWithin, unpacked]
  simp only [whole]
  show max 0 (min (maxWord : Int) n) = n
  have fits : n ≤ maxWord := Nat.le_of_lt (Nat.lt_of_lt_of_le small (by decide +kernel))
  omega

/-- A natural number is converted like its digits. -/
theorem ofDecimal_toDigits {n : Nat} (small : n < 10 ^ significantDigits) :
    ofDecimal (Nat.toDigits 10 n) [] 0 = Float.ofNat n := by
  have short : (Nat.toDigits 10 n).length ≤ significantDigits := by
    rwa [Nat.length_toDigits_le_iff (by decide) (by decide)]
  rw [ofDecimal_of_length_le (by simpa using short), List.append_nil,
    show ofDigits (Nat.toDigits 10 n) = n from Nat.ofDigitChars_ten_toDigits]
  rfl

end EventLoop.Number
