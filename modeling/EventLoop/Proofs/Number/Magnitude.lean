import EventLoop.Proofs.Number.Whole

/-!
# Doubles as exact numbers

The parts of a normal double are canonical: each number has only one pair of mantissa and exponent.
So doubles are compared as the numbers they are, and a natural number that is a double is converted
to that double. An integral number is zero, or has a sign and a natural number as its magnitude.
-/

namespace EventLoop.Number

open Float.Model UnpackedFloat

/-- `m · 2 ^ q` is the natural number, and the parts are those of a normal double. -/
structure Canonical (m : Nat) (q : Int) (n : Nat) : Prop where
  full : FullMantissa m
  low : -1074 ≤ q
  high : q ≤ 971
  value : m * 2 ^ q.toNat = n * 2 ^ (-q).toNat

namespace Canonical

variable {m m' n n' : Nat} {q q' : Int}

theorem pos (c : Canonical m q n) : 0 < n := by
  refine Nat.pos_of_ne_zero ?_
  rintro rfl
  have value := c.value
  rw [Nat.zero_mul, Nat.mul_eq_zero] at value
  exact value.elim (Nat.ne_of_gt c.full.pos) (Nat.ne_of_gt (Nat.two_pow_pos _))

/-- A greater exponent makes a greater number. -/
theorem lt_of_exponent_lt (c : Canonical m q n) (c' : Canonical m' q' n') (less : q < q') :
    n < n' := by
  have below : m < m' * 2 := by
    have := c.full.2
    have := c'.full.1
    omega
  have scaled : n * 2 ^ ((-q).toNat + (-q').toNat) < n' * 2 ^ ((-q).toNat + (-q').toNat) := calc
    n * 2 ^ ((-q).toNat + (-q').toNat) = m * 2 ^ (q.toNat + (-q').toNat) := by
      rw [Nat.pow_add, Nat.pow_add, ← Nat.mul_assoc, ← c.value, Nat.mul_assoc]
    _ < m' * 2 * 2 ^ (q.toNat + (-q').toNat) :=
      Nat.mul_lt_mul_of_pos_right below (Nat.two_pow_pos _)
    _ = m' * 2 ^ (q.toNat + (-q').toNat + 1) := by rw [Nat.pow_succ', Nat.mul_assoc]
    _ ≤ m' * 2 ^ (q'.toNat + (-q).toNat) :=
      Nat.mul_le_mul_left m' (Nat.pow_le_pow_right (by decide) (by omega))
    _ = n' * 2 ^ ((-q).toNat + (-q').toNat) := by
      rw [Nat.add_comm (-q).toNat, Nat.pow_add, Nat.pow_add, ← Nat.mul_assoc, c'.value,
        Nat.mul_assoc]
  exact Nat.lt_of_mul_lt_mul_right scaled

theorem lt_of_mantissa_lt (c : Canonical m q n) (c' : Canonical m' q n') (less : m < m') :
    n < n' := by
  have scaled : n * 2 ^ (-q).toNat < n' * 2 ^ (-q).toNat := by
    rw [← c.value, ← c'.value]
    exact Nat.mul_lt_mul_of_pos_right less (Nat.two_pow_pos _)
  exact Nat.lt_of_mul_lt_mul_right scaled

/-- Numbers are compared by their exponents first. -/
theorem compare_eq (c : Canonical m q n) (c' : Canonical m' q' n') :
    (compare q q').then (compare m m') = compare n n' := by
  rcases Int.lt_trichotomy q q' with less | rfl | greater
  · rw [Int.compare_eq_lt.mpr less, Nat.compare_eq_lt.mpr (c.lt_of_exponent_lt c' less)]
    rfl
  · rw [Int.compare_eq_eq.mpr rfl]
    show compare m m' = _
    rcases Nat.lt_trichotomy m m' with less | rfl | greater
    · rw [Nat.compare_eq_lt.mpr less, Nat.compare_eq_lt.mpr (c.lt_of_mantissa_lt c' less)]
    · have same : n = n' :=
        Nat.eq_of_mul_eq_mul_right (Nat.two_pow_pos _) (c.value.symm.trans c'.value)
      rw [Nat.compare_eq_eq.mpr rfl, Nat.compare_eq_eq.mpr same]
    · rw [Nat.compare_eq_gt.mpr greater, Nat.compare_eq_gt.mpr (c'.lt_of_mantissa_lt c greater)]
  · rw [Int.compare_eq_gt.mpr greater, Nat.compare_eq_gt.mpr (c'.lt_of_exponent_lt c greater)]
    rfl

end Canonical

/-- The parts of a finite double. -/
theorem shape_of_unpack (x : Float) {s : Sign} {m : Nat} {q : Int} {pos : 0 < m}
    (parts : x.toModel.unpack = .finite s m q pos) :
    FullMantissa m ∧ -1074 ≤ q ∧ q ≤ 971 ∨ m < 2 ^ 52 ∧ q = -1074 := by
  generalize bits : x.toModel.toBits.toBitVec = b
  have parts : UnpackedFloat.unpack Format.binary64 b = .finite s m q pos := by
    rw [← bits]
    exact parts
  have mantissa : (@unpackMantissa Format.binary64 b).toNat < 2 ^ 52 := BitVec.isLt _
  have exponent : (@unpackExponent Format.binary64 b).toNat < 2048 := BitVec.isLt _
  have shift : (Format.binary64.exponentBias : Int) + (52 : Nat) = 1075 := rfl
  unfold UnpackedFloat.unpack at parts
  simp only [shift] at parts
  split at parts
  · split at parts <;> cases parts
  rename_i ordinary
  split at parts
  · rename_i zero
    split at parts
    · cases parts
    obtain ⟨-, rfl, rfl⟩ := finite.inj parts
    rw [zero]
    exact .inr ⟨mantissa, rfl⟩
  · rename_i normal
    obtain ⟨-, rfl, rfl⟩ := finite.inj parts
    have joined (fraction : BitVec 52) : (1#1 ++ fraction).toNat = 2 ^ 52 + fraction.toNat := by
      rw [BitVec.toNat_append, ← Nat.shiftLeft_add_eq_or_of_lt fraction.isLt]
      rfl
    have finite : (@unpackExponent Format.binary64 b).toNat ≠ 2047 :=
      fun same => ordinary (BitVec.eq_of_toNat_eq same)
    have normal : (@unpackExponent Format.binary64 b).toNat ≠ 0 :=
      fun same => normal (BitVec.eq_of_toNat_eq same)
    have mantissa : FullMantissa (1#1 ++ @unpackMantissa Format.binary64 b).toNat := by
      rw [joined]
      exact ⟨by omega, by omega⟩
    exact .inl ⟨mantissa, by omega, by omega⟩

/-- The number has this sign and is, but for the sign, this natural number. -/
def HasMagnitude (x : Float) (s : Sign) (n : Nat) : Prop :=
  ∃ m q pos, x.toModel.unpack = .finite s m q pos ∧ Canonical m q n

namespace HasMagnitude

variable {x y : Float} {s : Sign} {n n' m : Nat} {q : Int}

theorem pack (s : Sign) (c : Canonical m q n) :
    HasMagnitude (.ofModel (.pack (.finite s m q c.full.pos))) s n :=
  ⟨m, q, c.full.pos, unpack_pack_full c.full c.low c.high s, c⟩

theorem pos (h : HasMagnitude x s n) : 0 < n :=
  have ⟨_, _, _, _, c⟩ := h
  c.pos

theorem neg (h : HasMagnitude x s n) : HasMagnitude (-x) (-s) n := by
  obtain ⟨m, q, pos, parts, c⟩ := h
  have negated : -x = .ofModel (.pack (.finite (-s) m q c.full.pos)) := by
    show Float.ofModel (.pack x.toModel.unpack.neg) = _
    rw [parts]
    rfl
  rw [negated]
  exact pack (-s) c

theorem abs (h : HasMagnitude x s n) : HasMagnitude x.abs .positive n := by
  obtain ⟨m, q, pos, parts, c⟩ := h
  have without : x.abs = .ofModel (.pack (.finite .positive m q c.full.pos)) := by
    show Float.ofModel (.pack x.toModel.unpack.abs) = _
    rw [parts]
    rfl
  rw [without]
  exact pack .positive c

/-- Numbers of the same sign are equal if their magnitudes are. -/
theorem beq_iff (h : HasMagnitude x s n) (h' : HasMagnitude y s n') :
    (x == y) = true ↔ n = n' := by
  obtain ⟨m, q, pos, parts, c⟩ := h
  obtain ⟨m', q', pos', parts', c'⟩ := h'
  show (x.toModel.unpack.compare y.toModel.unpack == some .eq) = true ↔ _
  rw [parts, parts']
  cases s with
  | positive =>
    show (some ((compare q q').then (compare m m')) == some .eq) = true ↔ _
    rw [c.compare_eq c']
    simp
  | negative =>
    show (some ((compare q q').then (compare m m')).swap == some .eq) = true ↔ _
    rw [c.compare_eq c']
    simp

theorem lt_iff (h : HasMagnitude x .positive n) (h' : HasMagnitude y .positive n') :
    x < y ↔ n < n' := by
  obtain ⟨m, q, pos, parts, c⟩ := h
  obtain ⟨m', q', pos', parts', c'⟩ := h'
  refine (decide_eq_true_iff (p := x.toModel < y.toModel)).trans ?_
  show (x.toModel.unpack.compare y.toModel.unpack == some .lt) = true ↔ _
  rw [parts, parts']
  show (some ((compare q q').then (compare m m')) == some .lt) = true ↔ _
  rw [c.compare_eq c']
  simp [Nat.compare_eq_lt]

end HasMagnitude

/-- A number that is a double is converted without rounding. -/
theorem Canonical.ofNat {m n : Nat} {q : Int} (c : Canonical m q n) :
    HasMagnitude (Float.ofNat n) .positive n := by
  by_cases small : n < 2 ^ 53
  · obtain ⟨k, full, parts⟩ := unpack_ofNat c.pos small
    have bound : k < 53 := by
      refine (Nat.pow_lt_pow_iff_right (show 1 < 2 by decide)).mp ?_
      exact Nat.lt_of_le_of_lt (Nat.le_mul_of_pos_left _ c.pos) full.2
    refine ⟨n * 2 ^ k, -k, full.pos, parts, full, by omega, by omega, ?_⟩
    rw [show (-(k : Int)).toNat = 0 by omega, show (- -(k : Int)).toNat = k by omega, Nat.pow_zero,
      Nat.mul_one]
  · have grows : 0 ≤ q := by
      by_contra less
      have value := c.value
      rw [show q.toNat = 0 by omega, Nat.pow_zero, Nat.mul_one] at value
      have le : n ≤ m := value ▸ Nat.le_mul_of_pos_right n (Nat.two_pow_pos _)
      have := c.full.2
      omega
    obtain ⟨k, rfl⟩ := Int.eq_ofNat_of_zero_le grows
    have value : m * 2 ^ k = n := by
      have value := c.value
      rwa [Int.toNat_natCast, show (-(k : Int)).toNat = 0 by omega, Nat.pow_zero, Nat.mul_one]
        at value
    have converted : Float.ofNat n = .ofModel (.pack (roundWithAccuracy Format.binary64 .positive
        (m * 2 ^ (k + 53)) (k - (k + 53 : Nat)) .exact)) := by
      have slow : Float.ofNat n = .ofModel (.ofScientific n 0) :=
        dif_neg fun fast => small fast.1
      have large : UnpackedFloat.ofScientific Format.binary64 n 0 =
          UnpackedFloat.mul Format.binary64
            (.finite .positive (n <<< 53) (-53) (by simpa [Nat.shiftLeft_eq] using c.pos))
            (.finite .positive 1 0 Nat.one_pos) := by
        have room : (0 : Int) ≤ 2 ^ Format.binary64.exponentBits := by decide
        unfold UnpackedFloat.ofScientific
        rw [dif_neg (Nat.ne_of_gt c.pos), if_neg (by decide), if_neg (by omega), if_pos (by decide)]
        rfl
      rw [slow, Float.Model.ofScientific, large, UnpackedFloat.mul, ← value, Nat.shiftLeft_eq,
        Nat.mul_one, Nat.mul_assoc, ← Nat.pow_add]
      have exponent : (k : Int) - (k + 53 : Nat) = -53 + 0 := by omega
      rw [exponent]
      rfl
    rw [converted, roundWithAccuracy_full c.full c.low .positive (k + 53)]
    exact .pack .positive c

/-- The greatest signed word is no double; it is rounded up. -/
theorem hasMagnitude_greatestSignedWord :
    HasMagnitude (Float.ofNat (2 ^ 63 - 1)) .positive (2 ^ 63) :=
  ⟨2 ^ 52, 11, by decide, rfl, ⟨by decide, by decide⟩, by decide, by decide, by decide⟩

theorem HasMagnitude.ofInt {n k : Nat} (pos : 0 < n)
    (h : HasMagnitude (Float.ofNat n) .positive k) (s : Sign) :
    HasMagnitude (Float.ofInt (s.apply n)) s k := by
  cases s with
  | positive => exact h
  | negative =>
    obtain ⟨n, rfl⟩ := Nat.exists_eq_succ_of_ne_zero (Nat.ne_of_gt pos)
    exact h.neg

/-! ## Integers -/

/-- The number is this integer, exactly. Both zeros are the integer zero. -/
def IsInteger (x : Float) (n : Int) : Prop :=
  match x.toModel.unpack with
  | .finite sign m q _ => sign.apply (m * 2 ^ q.toNat : Nat) = n * (2 ^ (-q).toNat : Nat)
  | .zero _ => n = 0
  | .infinity _ | .notANumber => False

theorem natAbs_apply (s : Sign) (n : Nat) : (s.apply n).natAbs = n := by
  cases s
  · exact Int.natAbs_neg n
  · rfl

theorem exists_apply {s : Sign} {a b : Nat} {n : Int} (pos : 0 < b)
    (same : s.apply a = n * b) : ∃ k : Nat, n = s.apply k ∧ a = k * b := by
  have some : (0 : Int) < b := Int.natCast_pos.mpr pos
  cases s with
  | positive =>
    have same : (a : Int) = n * b := same
    have nonneg : 0 ≤ n := by
      by_contra less
      have := Int.mul_neg_of_neg_of_pos (Int.not_le.mp less) some
      omega
    obtain ⟨k, rfl⟩ := Int.eq_ofNat_of_zero_le nonneg
    exact ⟨k, rfl, by exact_mod_cast same⟩
  | negative =>
    have same : -(a : Int) = n * b := same
    have nonpos : 0 ≤ -n := by
      by_contra greater
      have := Int.mul_pos (show 0 < n by omega) some
      omega
    obtain ⟨k, negated⟩ := Int.eq_ofNat_of_zero_le nonpos
    obtain rfl : n = -(k : Int) := by omega
    rw [Int.neg_mul] at same
    exact ⟨k, rfl, by exact_mod_cast Int.neg_inj.mp same⟩

/-- A number that is an integer has no fractional part. -/
theorem isIntegral_iff {x : Float} : isIntegral x = true ↔ ∃ n, IsInteger x n := by
  unfold isIntegral IsInteger
  cases x.toModel.unpack with
  | notANumber | infinity => simp
  | zero => simp
  | finite s m q pos =>
    simp only [Bool.or_eq_true, decide_eq_true_eq, beq_iff_eq]
    constructor
    · rintro (whole | divides)
      · refine ⟨s.apply (m * 2 ^ q.toNat : Nat), ?_⟩
        rw [show (-q).toNat = 0 by omega]
        exact (Int.mul_one _).symm
      · refine ⟨s.apply (m * 2 ^ q.toNat / 2 ^ (-q).toNat : Nat), ?_⟩
        have divides : 2 ^ (-q).toNat ∣ m * 2 ^ q.toNat :=
          Nat.dvd_mul_right_of_dvd (Nat.dvd_of_mod_eq_zero divides) _
        have value : ((m * 2 ^ q.toNat / 2 ^ (-q).toNat : Nat) : Int) * (2 ^ (-q).toNat : Nat) =
            (m * 2 ^ q.toNat : Nat) := by
          exact_mod_cast Nat.div_mul_cancel divides
        cases s with
        | positive => exact value.symm
        | negative => exact (congrArg Neg.neg value.symm).trans (Int.neg_mul ..).symm
    · rintro ⟨n, same⟩
      obtain ⟨k, -, value⟩ := exists_apply (Nat.two_pow_pos _) same
      rcases lt_or_ge q 0 |>.symm with whole | fraction
      · exact .inl whole
      · rw [show q.toNat = 0 by omega, Nat.pow_zero, Nat.mul_one] at value
        exact .inr (value ▸ Nat.mul_mod_left k _)

/-- An integral number is zero, or has a sign and a magnitude. -/
theorem IsInteger.cases {x : Float} {n : Int} (whole : IsInteger x n) :
    (∃ s, x.toModel.unpack = .zero s) ∧ n = 0 ∨ ∃ s k, n = s.apply k ∧ HasMagnitude x s k := by
  unfold IsInteger at whole
  cases parts : x.toModel.unpack with
  | notANumber | infinity =>
    rw [parts] at whole
    exact whole.elim
  | zero s =>
    rw [parts] at whole
    exact .inl ⟨⟨s, rfl⟩, whole⟩
  | finite s m q pos =>
    simp only [parts] at whole
    obtain ⟨k, rfl, value⟩ := exists_apply (Nat.two_pow_pos _) whole
    refine .inr ⟨s, k, rfl, m, q, pos, parts, ?_⟩
    rcases shape_of_unpack x parts with ⟨full, low, high⟩ | ⟨small, rfl⟩
    · exact ⟨full, low, high, value⟩
    · -- a subnormal number lies between zero and one
      rw [show (-1074 : Int).toNat = 0 from rfl, Nat.pow_zero, Nat.mul_one] at value
      rcases Nat.eq_zero_or_pos k with rfl | some
      · rw [Nat.zero_mul] at value
        exact absurd value (Nat.ne_of_gt pos)
      · have large : 2 ^ 52 ≤ 2 ^ (- (-1074 : Int)).toNat :=
          Nat.pow_le_pow_right (by decide) (by decide)
        exact absurd (value ▸ large.trans (Nat.le_mul_of_pos_left _ some)) (Nat.not_le.mpr small)

theorem HasMagnitude.isInteger {x : Float} {s : Sign} {k : Nat} (h : HasMagnitude x s k) :
    IsInteger x (s.apply k) := by
  obtain ⟨m, q, pos, parts, c⟩ := h
  unfold IsInteger
  rw [parts]
  show s.apply ((m * 2 ^ q.toNat : Nat) : Int) = s.apply k * (2 ^ (-q).toNat : Nat)
  rw [c.value, Int.natCast_mul]
  cases s with
  | positive => rfl
  | negative => exact (Int.neg_mul ..).symm

theorem wholeWithin_of_hasMagnitude {x : Float} {s : Sign} {k : Nat} (h : HasMagnitude x s k)
    (low high : Int) : wholeWithin low high x = max low (min high (s.apply k)) := by
  obtain ⟨m, q, pos, parts, c⟩ := h
  have whole : (m : Int) * Nat.pow 2 q.toNat / Nat.pow 2 (-q).toNat = k := by
    rw [← Int.natCast_mul, ← Int.natCast_ediv]
    show ((m * 2 ^ q.toNat / 2 ^ (-q).toNat : Nat) : Int) = k
    rw [c.value, Nat.mul_div_cancel _ (Nat.two_pow_pos _)]
  rw [wholeWithin, parts]
  simp only [whole]

end EventLoop.Number
