import EventLoop.Proofs.Language.Relexing
import EventLoop.Proofs.Number.Magnitude
import EventLoop.Semantics.Value

/-!
# Integers that scripts print

An integral number below `10 ^ 21` is printed as an integer, but only the signed words are printed
as they are: a number outside their range is printed as the closest of them. That is read back
as the number that was printed up to `2 ^ 63` on both sides, and as another one from there on.
-/

namespace EventLoop

namespace Number

open Float.Model UnpackedFloat

/-! ## Numerals of integers -/

theorem magnitude?_digits {digits : List Char} (all : ∀ c ∈ digits, c.isDigit = true)
    (nonempty : digits ≠ []) : magnitude? digits = some (ofDecimal digits [] 0) := by
  have taken : digits.takeWhile Char.isDigit = digits := List.takeWhile_eq_self_iff.mpr all
  have dropped : digits.dropWhile Char.isDigit = [] := List.dropWhile_eq_nil_iff.mpr all
  cases digits with
  | nil => exact absurd rfl nonempty
  | cons c rest =>
    have digit := all c List.mem_cons_self
    have lower : c.toLower = c := by
      simp only [Char.toLower, Char.isDigit] at *
      grind
    have noWord (word : String) (letter : word.toList.head?.all Char.isDigit = false) :
        (c :: rest).map Char.toLower ≠ word.toList := by
      intro same
      rw [← same, List.map_cons, lower] at letter
      exact Bool.false_ne_true (letter.symm.trans digit)
    unfold magnitude?
    simp only [taken, dropped, decide_eq_false (noWord "inf" (by decide)),
      decide_eq_false (noWord "infinity" (by decide)), if_neg (noWord "nan" (by decide))]
    rfl

theorem isBlank_of_isDigit {c : Char} (digit : c.isDigit = true) : isBlank c = false :=
  Lexing.inRanges_disjoint (by decide) ((Lexing.isDigit_iff c).symm.trans digit)

theorem ofText_of_notBlank {text : String} {c d : Char} {cs : List Char}
    (same : text.toList = c :: cs) (first : isBlank c = false)
    (ends : (c :: cs).getLast? = some d) (last : isBlank d = false) :
    ofText text = (ofNumeral? (c :: cs)).getD notANumber := by
  have kept : trimBlanks (c :: cs) = c :: cs :=
    trimBlanks_eq_self (by simpa using first) (by simpa [ends] using last)
  unfold ofText
  rw [same, kept]

/-- The numeral of an integer stands for the double nearest to it. -/
theorem ofText_toString {n : Int} (small : n.natAbs < 10 ^ significantDigits) :
    ofText (toString n) = Float.ofInt n := by
  have all (n : Nat) : ∀ c ∈ Nat.toDigits 10 n, c.isDigit = true := fun c member =>
    Nat.isDigit_of_mem_toDigits (by decide) (by decide) member
  have read (n : Nat) (small : n < 10 ^ significantDigits) :
      magnitude? (Nat.toDigits 10 n) = some (Float.ofNat n) := by
    rw [magnitude?_digits (all n) Nat.toDigits_ne_nil, ofDecimal_toDigits small]
  have last (n : Nat) : ∃ d, (Nat.toDigits 10 n).getLast? = some d ∧ isBlank d = false :=
    ⟨_, List.getLast?_eq_some_getLast Nat.toDigits_ne_nil,
      isBlank_of_isDigit (all n _ (List.getLast_mem _))⟩
  cases n with
  | ofNat n =>
    have written : (toString (Int.ofNat n)).toList = Nat.toDigits 10 n := Nat.toList_repr
    obtain ⟨d, ends, blank⟩ := last n
    have all := all n
    have read := read n small
    cases digits : Nat.toDigits 10 n with
    | nil => exact absurd digits Nat.toDigits_ne_nil
    | cons c cs =>
      rw [digits] at written ends all read
      have digit := all c List.mem_cons_self
      rw [ofText_of_notBlank written (isBlank_of_isDigit digit) ends blank]
      unfold ofNumeral?
      split
      · rename_i same
        cases same
        exact absurd digit (by decide)
      · rename_i same
        cases same
        exact absurd digit (by decide)
      · rw [read]
        rfl
  | negSucc n =>
    have written : (toString (Int.negSucc n)).toList = '-' :: Nat.toDigits 10 (n + 1) := by
      show ("-" ++ Nat.repr (n + 1)).toList = _
      rw [String.toList_append, Nat.toList_repr]
      rfl
    obtain ⟨d, ends, blank⟩ := last (n + 1)
    rw [ofText_of_notBlank written (by decide) (by rw [List.getLast?_cons, ends]; rfl) blank,
      ofNumeral?, read (n + 1) small]
    rfl

/-! ## Printing -/

/-- The integer, or the signed word closest to it. -/
def saturate (n : Int) : Int :=
  max leastSignedWord (min greatestSignedWord n)

theorem hasMagnitude_saturate {x : Float} {s : Sign} {k : Nat} (h : HasMagnitude x s k) :
    HasMagnitude (Float.ofInt (saturate (s.apply k))) s (min k (2 ^ 63)) := by
  have least : leastSignedWord = -(2 ^ 63 : Nat) := by decide
  have greatest : greatestSignedWord = (2 ^ 63 - 1 : Nat) := by decide
  have exact : HasMagnitude (Float.ofNat k) .positive k := by
    obtain ⟨m, q, _, _, c⟩ := h
    exact c.ofNat
  have limit : HasMagnitude (Float.ofNat (2 ^ 63)) .positive (2 ^ 63) :=
    Canonical.ofNat (m := 2 ^ 52) (q := 11)
      ⟨⟨by decide, by decide⟩, by decide, by decide, by decide⟩
  unfold saturate
  rw [least, greatest]
  cases s with
  | positive =>
    rcases Nat.lt_or_ge k (2 ^ 63) with inside | outside
    · have same : max (-(2 ^ 63 : Nat) : Int) (min (2 ^ 63 - 1 : Nat) (k : Int)) = k := by omega
      show HasMagnitude (Float.ofInt (max _ (min _ (k : Int)))) _ _
      rw [same, Nat.min_eq_left inside.le]
      exact exact
    · have same : max (-(2 ^ 63 : Nat) : Int) (min (2 ^ 63 - 1 : Nat) (k : Int)) =
        (2 ^ 63 - 1 : Nat) := by omega
      show HasMagnitude (Float.ofInt (max _ (min _ (k : Int)))) _ _
      rw [same, Nat.min_eq_right outside]
      exact hasMagnitude_greatestSignedWord
  | negative =>
    have same : max (-(2 ^ 63 : Nat) : Int) (min (2 ^ 63 - 1 : Nat) (-(k : Int))) =
        -((min k (2 ^ 63) : Nat) : Int) := by omega
    show HasMagnitude (Float.ofInt (max _ (min _ (-(k : Int))))) _ _
    have within : HasMagnitude (Float.ofNat (min k (2 ^ 63))) .positive (min k (2 ^ 63)) := by
      rcases Nat.le_total k (2 ^ 63) with inside | outside
      · rw [Nat.min_eq_left inside]
        exact exact
      · rw [Nat.min_eq_right outside]
        exact limit
    rw [same]
    exact within.ofInt within.pos .negative

theorem hasMagnitude_limit : HasMagnitude 1e21 .positive (10 ^ 21) :=
  ⟨7629394531250000, 17, by decide, rfl, ⟨by decide, by decide⟩, by decide, by decide, by decide⟩

theorem abs_lt_limit_iff {x : Float} {s : Sign} {k : Nat} (h : HasMagnitude x s k) :
    x.abs < 1e21 ↔ k < 10 ^ 21 :=
  h.abs.lt_iff hasMagnitude_limit

theorem display_of_guard {x : Float} (integral : isIntegral x = true) (small : x.abs < 1e21) :
    display x = toString (wholeWithin leastSignedWord greatestSignedWord x) := by
  have finite : x.isNaN = false ∧ x.isInf = false := by
    show x.toModel.unpack.isNaN = false ∧ x.toModel.unpack.isInf = false
    unfold isIntegral at integral
    cases parts : x.toModel.unpack with
    | notANumber | infinity => simp [parts] at integral
    | zero | finite => exact ⟨rfl, rfl⟩
  unfold display
  simp only [finite, integral, small]
  rfl

/-- An integral number is printed as an integer: itself, or the signed word closest to it. -/
theorem display_isInteger {x : Float} {n : Int} (whole : IsInteger x n)
    (small : n.natAbs < 10 ^ 21) : display x = toString (saturate n) := by
  have integral := isIntegral_iff.mpr ⟨n, whole⟩
  rcases whole.cases with ⟨⟨s, parts⟩, rfl⟩ | ⟨s, k, rfl, h⟩
  · have less : x.abs < 1e21 := by
      have without : x.abs = .ofModel (.pack (.zero .positive)) := by
        show Float.ofModel (.pack x.toModel.unpack.abs) = _
        rw [parts]
        rfl
      rw [without]
      decide
    rw [display_of_guard integral less, wholeWithin, parts]
    rfl
  · rw [natAbs_apply] at small
    rw [display_of_guard integral ((abs_lt_limit_iff h).mpr small), wholeWithin_of_hasMagnitude h]
    rfl

/-- Which integers are printed so that they are read back. -/
theorem ofInt_saturate_beq_iff {x : Float} {n : Int} (whole : IsInteger x n) :
    (Float.ofInt (saturate n) == x) = true ↔ n.natAbs ≤ 2 ^ 63 := by
  rcases whole.cases with ⟨⟨s, parts⟩, rfl⟩ | ⟨s, k, rfl, h⟩
  · have same : (Float.ofInt (saturate 0)).toModel.unpack = .zero .positive := rfl
    have equal : (Float.ofInt (saturate 0) == x) = true := by
      show ((Float.ofInt (saturate 0)).toModel.unpack.compare x.toModel.unpack == some .eq) = true
      rw [same, parts]
      rfl
    exact ⟨fun _ => Nat.zero_le _, fun _ => equal⟩
  · rw [natAbs_apply, (hasMagnitude_saturate h).beq_iff h]
    exact min_eq_left_iff

theorem natAbs_saturate_le (n : Int) : (saturate n).natAbs ≤ 2 ^ 63 := by
  have least : leastSignedWord = -(2 ^ 63 : Nat) := by decide
  have greatest : greatestSignedWord = (2 ^ 63 - 1 : Nat) := by decide
  unfold saturate
  rw [least, greatest]
  omega

end Number

/-- An integral number below `10 ^ 21` is printed as the signed word closest to it. The double
nearest to the printed integer is the number, and the printed text is converted back to the number,
exactly if its magnitude is at most `2 ^ 63`. -/
theorem Value.display_number {x : Float} {n : Int} (whole : Number.IsInteger x n)
    (small : n.natAbs < 10 ^ 21) :
    (Value.number x).display = toString (Number.saturate n) ∧
      ((Float.ofInt (Number.saturate n) == x) = true ↔ n.natAbs ≤ 2 ^ 63) ∧
      (((Value.text (Value.number x).display).toNumber == x) = true ↔ n.natAbs ≤ 2 ^ 63) := by
  have printed : (Value.number x).display = toString (Number.saturate n) :=
    Number.display_isInteger whole small
  have nearest := Number.ofInt_saturate_beq_iff whole
  have read : (Value.text (Value.number x).display).toNumber = Float.ofInt (Number.saturate n) := by
    rw [printed]
    refine Number.ofText_toString ?_
    exact (Number.natAbs_saturate_le n).trans_lt (by decide +kernel)
  refine ⟨printed, nearest, ?_⟩
  rw [read]
  exact nearest

/-- The least magnitude that is not printed as it is, `2 ^ 63`, is still read back. -/
theorem Value.display_number_wordLimit :
    let x := Float.ofBits 0x43e0000000000000
    Number.IsInteger x (2 ^ 63) ∧ (2 ^ 63 : Int).natAbs < 10 ^ 21 ∧
      (Value.number x).display = "9223372036854775807" ∧
      ((Value.text (Value.number x).display).toNumber == x) = true := by
  intro x
  have magnitude : Number.HasMagnitude (Float.ofBits 0x43e0000000000000) .positive (2 ^ 63) :=
    ⟨2 ^ 52, 11, by decide, rfl, ⟨by decide, by decide⟩, by decide, by decide, by decide⟩
  have whole : Number.IsInteger x (2 ^ 63) := magnitude.isInteger
  obtain ⟨printed, -, read⟩ := Value.display_number whole (by decide)
  exact ⟨whole, by decide, printed, read.mpr (by decide)⟩

/-- The number `10 ^ 20` is neither printed as it is nor read back. -/
theorem Value.display_number_lost :
    let x := Float.ofBits 0x4415af1d78b58c40
    Number.IsInteger x (10 ^ 20) ∧ (10 ^ 20 : Int).natAbs < 10 ^ 21 ∧
      (Value.number x).display = "9223372036854775807" ∧
      ((Value.text (Value.number x).display).toNumber == x) = false := by
  intro x
  have magnitude : Number.HasMagnitude (Float.ofBits 0x4415af1d78b58c40) .positive (10 ^ 20) :=
    ⟨6103515625000000, 14, by decide, rfl, ⟨by decide, by decide⟩, by decide, by decide,
      by decide⟩
  exact ⟨magnitude.isInteger, by decide, by decide +kernel, by decide +kernel⟩

end EventLoop
