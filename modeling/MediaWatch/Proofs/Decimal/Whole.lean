import Mathlib
import MediaWatch.Decimal.Read

/-! # Whole numbers are read exactly

The digits of a whole number below 2⁵³ denote the binary64 number of that value. The reader multiplies the number
that the digits come to by a power of ten, here by one, which rounds nothing: a mantissa of 53 bits is unpacked as it
was packed, and the 52 bits that the factor adds are the ones that rounding takes off again.
-/

namespace MediaWatch.Decimal

open Float.Model (Format UnpackedFloat)
open Float.Model.UnpackedFloat

variable {n m k : Nat} {e : Int} {s : Sign}

/-! ## Packing -/

/-- The bit in front of a full mantissa, which is not stored, is put back. -/
theorem toNat_append_ofNat (bits : m.log2 = 52) : (1#1 ++ BitVec.ofNat 52 m).toNat = m := by
  have full : m ≠ 0 := by
    rintro rfl
    exact absurd bits (by decide)
  have least : 2 ^ 52 ≤ m := (Nat.le_log2 full).mp (Nat.le_of_eq bits.symm)
  have most : m < 2 ^ 53 := (Nat.log2_lt full).mp (Nat.lt_succ_of_le (Nat.le_of_eq bits))
  rw [BitVec.toNat_append, ← Nat.shiftLeft_add_eq_or_of_lt (BitVec.isLt _), BitVec.toNat_ofNat, BitVec.toNat_ofNat]
  omega

/-- A number with a full mantissa, and with an exponent that the format can hold, is unpacked as it was packed. -/
theorem unpack_pack (positive : 0 < m) (bits : m.log2 = 52) (low : -1074 ≤ e) (high : e ≤ 971) :
    (Float.Model.pack (.finite .positive m e positive)).unpack = .finite .positive m e positive := by
  obtain ⟨biased, isBiased⟩ : ∃ biased : Nat, (biased : Int) = e + 1075 := ⟨(e + 1075).toNat, by omega⟩
  have stored : (e + Format.binary64.exponentBias + Format.binary64.mantissaBitsWithoutImplicit).toNat = biased := by
    show (e + 1023 + 52).toNat = biased
    omega
  have packed : UnpackedFloat.pack Format.binary64 (.finite .positive m e positive) =
      packComponents Format.binary64 .positive (BitVec.ofNat 11 biased) (BitVec.ofNat 52 m) := by
    rw [UnpackedFloat.pack]
    simp only [stored]
    rw [if_neg, if_pos]
    · rw [bits]; rfl
    · show ¬ 2 ^ 11 ≤ biased + 1
      omega
  have exponent : (BitVec.ofNat 11 biased).toNat = biased := by
    rw [BitVec.toNat_ofNat, Nat.mod_eq_of_lt (by omega)]
  -- The greatest and the least exponent are those of infinity and of the numbers without a full mantissa.
  have common : BitVec.ofNat 11 biased ≠ -1#11 ∧ BitVec.ofNat 11 biased ≠ 0#11 := by
    constructor <;> intro same <;> have number := congrArg BitVec.toNat same <;> rw [exponent] at number <;>
      simp at number <;> omega
  have restored : ((BitVec.ofNat 11 biased).toNat : Int) -
      (Format.binary64.exponentBias + Format.binary64.mantissaBitsWithoutImplicit) = e := by
    rw [exponent]
    show (biased : Int) - (1023 + 52) = e
    omega
  show UnpackedFloat.unpack Format.binary64 (UnpackedFloat.pack Format.binary64 (.finite .positive m e positive)) = _
  rw [packed]
  simp only [UnpackedFloat.unpack, unpackExponent_packComponents, unpackMantissa_packComponents,
    unpackSign_packComponents, Sign.ofBitVec_toBitVec]
  rw [if_neg common.1, if_neg common.2]
  simp only [UnpackedFloat.finite.injEq]
  exact ⟨trivial, toNat_append_ofNat bits, restored⟩

/-! ## Rounding -/

private theorem log2_mul_two_pow (full : m ≠ 0) : (m * 2 ^ k).log2 = m.log2 + k := by
  induction k with
  | zero => simp
  | succ k ih =>
    have wide : m * 2 ^ k ≠ 0 := Nat.mul_ne_zero full (Nat.pos_iff_ne_zero.mp (Nat.two_pow_pos k))
    rw [Nat.pow_succ, ← Nat.mul_assoc, Nat.mul_comm, Nat.log2_two_mul wide, ih, Nat.add_assoc]

/-- Bits that are zero are shifted out without a trace. -/
theorem shiftRight_exact (m k : Nat) :
    (⟨m * 2 ^ k, false, false⟩ : ExtendedMantissa) >>> k = ⟨m, false, false⟩ := by
  have step (n : Nat) : ExtendedMantissa.shiftRightOne ⟨n * 2, false, false⟩ = ⟨n, false, false⟩ := by
    simp [ExtendedMantissa.shiftRightOne]
  show k.repeat ExtendedMantissa.shiftRightOne ⟨m * 2 ^ k, false, false⟩ = _
  induction k generalizing m with
  | zero => simp [Nat.repeat]
  | succ k ih => rw [Nat.repeat, Nat.pow_succ', ← Nat.mul_assoc, ih, step]

private theorem shiftToTargetExponent_exact (positive : 0 < m) (bits : m.log2 = 52) (low : -1074 ≤ e) :
    shiftToTargetExponent Format.binary64 (m * 2 ^ k) (e - k) .exact = (⟨m, false, false⟩, e) := by
  have target : Format.binary64.targetExponent (Float.Model.totalExponent (m * 2 ^ k) (e - k)) = e := by
    rw [Float.Model.totalExponent, log2_mul_two_pow (Nat.pos_iff_ne_zero.mp positive), bits]
    show max ((52 + k : Nat) + 1 + (e - k) - 53 : Int) (-1074) = e
    omega
  have amount : (e - (e - k)).toNat = k := by omega
  rw [shiftToTargetExponent, target, shiftToExponent]
  simp only [amount, ExtendedMantissa.ofMantissaAndAccuracy, shiftRight_exact]
  rw [Int.sub_add_cancel]

/-- Rounding takes surplus bits that are zero off a full mantissa. -/
theorem roundWithAccuracy_exact (positive : 0 < m) (bits : m.log2 = 52) (low : -1074 ≤ e) :
    roundWithAccuracy Format.binary64 s (m * 2 ^ k) (e - k) .exact = .finite s m e positive := by
  have again := shiftToTargetExponent_exact (k := 0) positive bits low
  simp only [Nat.pow_zero, Nat.mul_one, Int.natCast_zero, Int.sub_zero] at again
  rw [roundWithAccuracy, shiftToTargetExponent_exact positive bits low]
  simp only [ExtendedMantissa.roundedMantissa, ExtendedMantissa.accuracy, Accuracy.roundToNearestEven, again]
  rw [dif_neg (Nat.pos_iff_ne_zero.mp positive)]

/-! ## Whole numbers -/

/-- The number of a whole number has a full mantissa, filled up with zeros on the right. -/
theorem ofNat_eq_finite (positive : 0 < n) (small : n < 2 ^ 53) :
    ∃ (m : Nat) (e : Int) (h : 0 < m), UnpackedFloat.ofNat Format.binary64 n = .finite .positive m e h ∧
      m.log2 = 52 ∧ -52 ≤ e ∧ e ≤ 0 := by
  have full := Nat.pos_iff_ne_zero.mp positive
  have most : n.log2 < 53 := (Nat.log2_lt full).mpr small
  obtain ⟨k, filled⟩ : ∃ k, n.log2 + k = 52 := ⟨52 - n.log2, by omega⟩
  have bits : (n * 2 ^ k).log2 = 52 := by rw [log2_mul_two_pow full, filled]
  have shifted : 0 < n * 2 ^ k := Nat.mul_pos positive (Nat.two_pow_pos k)
  refine ⟨n * 2 ^ k, -k, shifted, ?_, bits, by omega, by omega⟩
  have target : Format.binary64.targetExponent (Float.Model.totalExponent n 0) = -k := by
    show max ((n.log2 : Int) + 1 + 0 - 53) (-1074) = -k
    omega
  have amount : ((0 : Int) - -k).toNat = k := by omega
  have rounded := roundWithAccuracy_exact (s := .positive) (k := 0) shifted bits (by omega : -1074 ≤ -(k : Int))
  have sign : compare (n : Int) 0 = .gt := by
    rw [Int.compare_eq_gt]
    omega
  rw [UnpackedFloat.ofNat, UnpackedFloat.ofInt, UnpackedFloat.normalize, sign]
  simp only [UnpackedFloat.round, Int.toNat_natCast, target, decreaseExponent, amount, Nat.shiftLeft_eq]
  simpa using rounded

theorem isFinite_ofNat (small : n < 2 ^ 53) : (Float.ofModel (.ofNat n)).isFinite := by
  obtain rfl | positive := Nat.eq_zero_or_pos n
  · decide +kernel
  · obtain ⟨m, e, full, number, bits, low, high⟩ := ofNat_eq_finite positive small
    show (Float.Model.pack (UnpackedFloat.ofNat Format.binary64 n)).unpack.isFinite
    rw [number, unpack_pack full bits (by omega) (by omega)]
    rfl

/-- A whole number times one is the number itself. -/
theorem ofScientific_whole (small : n < 2 ^ 53) : Float.ofScientific n false 0 = .ofModel (.ofNat n) := by
  have fits : n.toUInt64.toNat = n := by
    rw [Nat.toUInt64, UInt64.toNat_ofNat', Nat.mod_eq_of_lt (by omega)]
  have number : n.toUInt64.toFloat = .ofModel (.ofNat n) := by
    show Float.ofModel (.pack (UnpackedFloat.ofNat Format.binary64 n.toUInt64.toNat)) = _
    rw [fits]
    rfl
  have one : (Float.exactlyRepresentablePowersOfTen[0]).toModel.unpack =
      .finite .positive (2 ^ 52) (-52) (by decide) := by
    rfl
  rw [Float.ofScientific, dif_pos ⟨small, by omega⟩]
  simp only [Bool.false_eq_true, if_false]
  rw [number]
  show Float.ofModel (.pack (UnpackedFloat.mul Format.binary64 (Float.Model.ofNat n).unpack
    (Float.exactlyRepresentablePowersOfTen[0]).toModel.unpack)) = .ofModel (.pack (.ofNat Format.binary64 n))
  rw [one, Float.Model.ofNat]
  congr 2
  obtain rfl | positive := Nat.eq_zero_or_pos n
  · rfl
  · obtain ⟨m, e, full, number, bits, low, high⟩ := ofNat_eq_finite positive small
    rw [number, unpack_pack full bits (by omega) (by omega)]
    exact roundWithAccuracy_exact full bits (by omega : -1074 ≤ e)

/-! ## Their digits -/

theorem all_isDigit_ofNat (n : Nat) : (Text.ofNat n).all Char.isDigit := by
  rw [List.all_eq_true]
  exact fun c member => Nat.isDigit_of_mem_toDigits (by decide) (by decide) member

/-- Zeros in front add nothing. -/
theorem digitsValue_dropWhile (digits : Text) :
    digitsValue (digits.dropWhile (· == '0')) = digitsValue digits := by
  induction digits with
  | nil => rfl
  | cons c rest ih =>
    by_cases zero : c = '0'
    · subst zero
      exact ih
    · rw [List.dropWhile_cons_of_neg (by simpa using zero)]

private theorem digitsValue_ofNat (n : Nat) : digitsValue (Text.ofNat n) = n := Nat.ofDigitChars_ten_toDigits

private theorem nearest_ofNat (small : n < 2 ^ 53) : nearest (Text.ofNat n) 0 = .ofModel (.ofNat n) := by
  have value : digitsValue ((Text.ofNat n).dropWhile (· == '0')) = n := by
    rw [digitsValue_dropWhile, digitsValue_ofNat]
  have short : ((Text.ofNat n).dropWhile (· == '0')).length ≤ 16 := by
    refine (List.length_dropWhile_le _ _).trans ?_
    exact (Nat.length_toDigits_le_iff (by decide) (by decide)).mpr (by omega)
  rw [nearest]
  generalize (Text.ofNat n).dropWhile (· == '0') = significant at value short
  cases significant with
  | nil =>
    obtain rfl : 0 = n := value
    rfl
  | cons c rest =>
    rw [if_neg, if_neg]
    · rw [value]
      exact ofScientific_whole small
    · simp only [List.length_cons] at short ⊢
      omega
    · simp
      omega

private theorem readMagnitude?_ofNat (small : n < 2 ^ 53) :
    readMagnitude? (Text.ofNat n) = some (.ofModel (.ofNat n)) := by
  have digits := List.all_eq_true.mp (all_isDigit_ofNat n)
  have run : digitRun (Text.ofNat n) = (Text.ofNat n, []) := by
    rw [digitRun, List.takeWhile_eq_self_iff.mpr digits, List.dropWhile_eq_nil_iff.mpr digits]
  have written : (Text.ofNat n).isEmpty = false := by
    rw [List.isEmpty_eq_false_iff]
    exact Nat.toDigits_ne_nil
  rw [readMagnitude?, run]
  simp [written, readExponent?, nearest_ofNat small]

private theorem unsigned_of_isDigit {digits : Text} (all : digits.all Char.isDigit) :
    unsigned digits = (false, digits) := by
  unfold unsigned
  split
  · simp [Char.isDigit] at all
  · simp [Char.isDigit] at all
  · rfl

theorem lowerAscii_of_isDigit {digits : Text} (all : digits.all Char.isDigit) : Text.lowerAscii digits = digits := by
  refine (List.map_congr_left fun c member => ?_).trans (List.map_id digits)
  have digit := List.all_eq_true.mp all c member
  simp only [Char.isDigit, Bool.and_eq_true, decide_eq_true_eq] at digit
  have low : c.toNat ≤ 57 := digit.2
  refine dif_neg fun upper => ?_
  have high : 65 ≤ c.toNat := upper.1
  omega

/-- The digits of a whole number below 2⁵³ are read as the number itself. -/
theorem read?_ofNat (small : n < 2 ^ 53) : read? (Text.ofNat n) = some (.ofModel (.ofNat n)) := by
  have digits := all_isDigit_ofNat n
  have word (letters : Text) (letter : ¬letters.all Char.isDigit) : Text.ofNat n ≠ letters := by
    rintro rfl
    exact letter digits
  rw [read?, unsigned_of_isDigit digits]
  simp only [lowerAscii_of_isDigit digits, Bool.false_eq_true, if_false]
  rw [if_neg, if_neg, readMagnitude?_ofNat small]
  · exact word _ (by decide)
  · exact not_or.mpr ⟨word _ (by decide), word _ (by decide)⟩

end MediaWatch.Decimal
