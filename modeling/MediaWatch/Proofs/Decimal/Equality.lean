import MediaWatch.Proofs.Decimal.Whole

/-! # Numbers that are equal

Comparison of binary64 numbers takes the two zeros for one number and what is not a number for none. Apart from that,
numbers are equal only if they are the same: no two bit patterns denote one number. Whole numbers, of whatever size,
round to numbers.
-/

namespace MediaWatch.Decimal

open Float.Model (Format UnpackedFloat)
open Float.Model.UnpackedFloat

/-! ## Bits -/

section Bits

variable {b c : BitVec Format.binary64.numBits}

/-- A bit pattern is its sign, its exponent and its mantissa. -/
theorem eq_of_components (sign : unpackSign b = unpackSign c) (exponent : unpackExponent b = unpackExponent c)
    (mantissa : unpackMantissa b = unpackMantissa c) : b = c := by
  simp only [unpackSign, unpackExponent, unpackMantissa, Format.numBits, Format.binary64] at *
  have signs := congrArg BitVec.toNat sign
  have exponents := congrArg BitVec.toNat exponent
  have mantissas := congrArg BitVec.toNat mantissa
  simp [Nat.shiftRight_eq_div_pow] at signs exponents mantissas
  exact BitVec.eq_of_toNat_eq (by omega)

private theorem ofBitVec_inj {s t : BitVec 1} (same : Sign.ofBitVec s = Sign.ofBitVec t) : s = t := by
  rw [← Sign.toBitVec_ofBitVec s, same, Sign.toBitVec_ofBitVec]

/-- What the number that a bit pattern denotes tells about the pattern. -/
def Shows (b : BitVec Format.binary64.numBits) : UnpackedFloat → Prop
  | .infinity s => Sign.ofBitVec (unpackSign b) = s ∧ unpackExponent b = -1#_ ∧ unpackMantissa b = 0#_
  | .notANumber => unpackExponent b = -1#_ ∧ unpackMantissa b ≠ 0#_
  | .zero s => Sign.ofBitVec (unpackSign b) = s ∧ unpackExponent b = 0#_ ∧ unpackMantissa b = 0#_
  | .finite s m e _ =>
    Sign.ofBitVec (unpackSign b) = s ∧ (unpackExponent b).toNat = (if m < 2 ^ 52 then 0 else (e + 1075).toNat) ∧
      (unpackMantissa b).toNat = m % 2 ^ 52

private theorem shows_unpack (b : BitVec Format.binary64.numBits) : Shows b (unpack Format.binary64 b) := by
  have small : (unpackMantissa b).toNat < 2 ^ 52 := (unpackMantissa b).isLt
  rw [unpack]
  split
  · next greatest =>
    split
    · next none => exact ⟨rfl, greatest, none⟩
    · next some => exact ⟨greatest, some⟩
  · split
    · next least =>
      split
      · next none => exact ⟨rfl, least, none⟩
      · refine ⟨rfl, ?_, (Nat.mod_eq_of_lt small).symm⟩
        rw [if_pos small, least]
        rfl
    · have whole : (1#1 ++ unpackMantissa b).toNat = 2 ^ 52 + (unpackMantissa b).toNat := by
        rw [BitVec.toNat_append, ← Nat.shiftLeft_add_eq_or_of_lt (unpackMantissa b).isLt]
        rfl
      refine ⟨rfl, ?_, ?_⟩
      · rw [if_neg (by omega)]
        show _ = ((unpackExponent b).toNat - (1023 + 52) + 1075 : Int).toNat
        omega
      · rw [whole]
        omega

end Bits

variable {x y : Float}

/-- No two bit patterns denote one number. -/
theorem unpack_inj {x y : Float.Model} (same : x.unpack = y.unpack) : x = y := by
  suffices x.toBits.toBitVec = y.toBits.toBitVec by
    rw [Float.Model.mk.injEq]
    exact UInt64.toBitVec_inj.mp this
  have left : Shows x.toBits.toBitVec x.unpack := shows_unpack _
  have right : Shows y.toBits.toBitVec x.unpack := same ▸ shows_unpack y.toBits.toBitVec
  generalize x.unpack = number at left right
  cases number with
  | notANumber => exact (x.valid.eq_packedNaN left.1 left.2).trans (y.valid.eq_packedNaN right.1 right.2).symm
  | infinity | zero =>
    exact eq_of_components (ofBitVec_inj (left.1.trans right.1.symm)) (left.2.1.trans right.2.1.symm)
      (left.2.2.trans right.2.2.symm)
  | finite =>
    exact eq_of_components (ofBitVec_inj (left.1.trans right.1.symm))
      (BitVec.eq_of_toNat_eq (left.2.1.trans right.2.1.symm))
      (BitVec.eq_of_toNat_eq (left.2.2.trans right.2.2.symm))

/-! ## Comparison -/

/-- The number with the sign of a zero taken off. -/
def numeral (x : Float) : Float := if x == 0 then 0 else x

private theorem compare_sign (s t : Sign) : compare s t = .eq ↔ s = t := by
  cases s <;> cases t <;> simp [compare]

private theorem beq_unpacked (a b : UnpackedFloat) :
    a.beq b ↔ (a = b ∧ a ≠ .notANumber) ∨ ∃ s t, a = .zero s ∧ b = .zero t := by
  rw [UnpackedFloat.beq, beq_iff_eq]
  cases a with
  | notANumber => simp [UnpackedFloat.compare]
  | infinity s =>
    cases b with
    | infinity t => simp [UnpackedFloat.compare, compare_sign]
    | _ => cases s <;> simp [UnpackedFloat.compare]
  | zero s =>
    cases b with
    | zero t => simp [UnpackedFloat.compare]
    | infinity t => cases t <;> simp [UnpackedFloat.compare]
    | finite t => cases t <;> simp [UnpackedFloat.compare]
    | notANumber => simp [UnpackedFloat.compare]
  | finite s m e full =>
    cases b with
    | finite t n f =>
      cases s <;> cases t <;> simp [UnpackedFloat.compare, Ordering.then_eq_eq, Ordering.swap_eq_eq, and_comm]
    | infinity t => cases t <;> simp [UnpackedFloat.compare]
    | zero t => cases s <;> simp [UnpackedFloat.compare]
    | notANumber => simp [UnpackedFloat.compare]

private theorem isNaN_iff : x.isNaN ↔ x.toModel.unpack = .notANumber := by
  rw [Float.isNaN, Float.Model.isNaN]
  cases x.toModel.unpack <;> simp [UnpackedFloat.isNaN]

private theorem beq_zero_iff : (x == 0) ↔ ∃ s, x.toModel.unpack = .zero s := by
  have zero : (0 : Float).toModel.unpack = .zero .positive := by
    rw [show (0 : Float) = .ofModel (.ofNat 0) from ofScientific_whole (n := 0) (by decide)]
    rfl
  refine (beq_unpacked ..).trans ?_
  rw [zero]
  constructor
  · rintro (⟨same, -⟩ | ⟨s, t, left, -⟩)
    · exact ⟨_, same⟩
    · exact ⟨s, left⟩
  · rintro ⟨s, same⟩
    exact .inr ⟨s, .positive, same, rfl⟩

/-- Numbers are equal if they are the same or both zero. -/
theorem beq_iff : (x == y) ↔ (x = y ∧ ¬ x.isNaN) ∨ (x == 0) ∧ (y == 0) := by
  refine (beq_unpacked ..).trans (or_congr (and_congr ⟨fun same => ?_, ?_⟩ (not_congr isNaN_iff.symm)) ?_)
  · exact congrArg Float.ofModel (unpack_inj same)
  · rintro rfl
    rfl
  · rw [beq_zero_iff, beq_zero_iff]
    exact ⟨fun ⟨s, t, left, right⟩ => ⟨⟨s, left⟩, t, right⟩, fun ⟨⟨s, left⟩, t, right⟩ => ⟨s, t, left, right⟩⟩

/-- Numbers are equal if they have one numeral. -/
theorem beq_iff_numeral (number : ¬ x.isNaN) : (x == y) ↔ numeral x = numeral y := by
  have zero : (0 : Float) == 0 := by decide +kernel
  rw [beq_iff, numeral, numeral]
  by_cases left : x == 0 <;> by_cases right : y == 0
  · simp only [left, right, if_true, and_self, or_true]
  · rw [if_pos left, if_neg right]
    refine iff_of_false ?_ fun same => right (same ▸ zero)
    rintro (⟨rfl, -⟩ | both)
    · exact right left
    · exact right both.2
  · rw [if_neg left, if_pos right]
    refine iff_of_false ?_ fun same => left (same ▸ zero)
    rintro (⟨rfl, -⟩ | both)
    · exact left right
    · exact left both.1
  · rw [if_neg left, if_neg right]
    refine ⟨fun equal => ?_, fun same => .inl ⟨same, number⟩⟩
    exact equal.elim And.left fun both => absurd both.1 left

/-! ## Whole numbers -/

private theorem isNaN_roundWithAccuracy (s : Sign) (m : Nat) (e : Int) (accuracy : Accuracy) :
    (roundWithAccuracy Format.binary64 s m e accuracy).isNaN = false := by
  dsimp only [roundWithAccuracy]
  split <;> rfl

private theorem isNaN_packComponents {s : Sign} {exponent : BitVec 11} {mantissa : BitVec 52}
    (number : exponent ≠ -1#11 ∨ mantissa = 0#52) :
    (unpack Format.binary64 (packComponents Format.binary64 s exponent mantissa)).isNaN = false := by
  have shown := shows_unpack (packComponents Format.binary64 s exponent mantissa)
  generalize unpack Format.binary64 (packComponents Format.binary64 s exponent mantissa) = a at shown
  cases a with
  | notANumber =>
    obtain ⟨greatest, some⟩ := shown
    rw [unpackExponent_packComponents] at greatest
    rw [unpackMantissa_packComponents] at some
    rcases number with common | none
    · exact absurd greatest common
    · exact absurd none some
  | _ => rfl

/-- What is a number is one when it is packed. -/
theorem isNaN_pack {a : UnpackedFloat} (number : a.isNaN = false) : (Float.Model.pack a).isNaN = false := by
  change (unpack Format.binary64 (UnpackedFloat.pack Format.binary64 a)).isNaN = false
  cases a with
  | notANumber => contradiction
  | infinity s => exact isNaN_packComponents (.inr rfl)
  | zero s => exact isNaN_packComponents (.inr rfl)
  | finite s m e full =>
    rw [UnpackedFloat.pack]
    split
    · exact isNaN_packComponents (.inr rfl)
    · next fits =>
      split
      · refine isNaN_packComponents (.inl fun greatest => fits ?_)
        have number := congrArg BitVec.toNat greatest
        rw [BitVec.toNat_ofNat] at number
        change _ % 2 ^ 11 = 2 ^ 11 - 1 at number
        change 2 ^ 11 ≤ _ + 1
        omega
      · exact isNaN_packComponents (.inl (by decide))

private theorem isNaN_ofNat (n : Nat) : (UnpackedFloat.ofNat Format.binary64 n).isNaN = false := by
  rw [UnpackedFloat.ofNat, UnpackedFloat.ofInt, UnpackedFloat.normalize]
  split
  · exact isNaN_roundWithAccuracy ..
  · rfl
  · exact isNaN_roundWithAccuracy ..

/-- A decimal, a product of two finite numbers or a quotient of two, rounds to a number. -/
theorem isNaN_ofScientific (m : Nat) (e : Int) : (UnpackedFloat.ofScientific Format.binary64 m e).isNaN = false := by
  rw [UnpackedFloat.ofScientific]
  split
  · rfl
  split
  · rfl
  split
  · rfl
  split
  · exact isNaN_roundWithAccuracy ..
  · exact isNaN_roundWithAccuracy ..

private theorem isNaN_natural (n : Nat) : (Float.ofScientific n false 0).isNaN = false := by
  by_cases small : n < 2 ^ 53
  · rw [ofScientific_whole small]
    exact isNaN_pack (isNaN_ofNat n)
  · rw [Float.ofScientific, dif_neg fun fits => small fits.1]
    exact isNaN_pack (isNaN_ofScientific n _)

private theorem isNaN_neg (a : UnpackedFloat) : a.neg.isNaN = a.isNaN := by cases a <;> rfl

/-- A whole number rounds to a number. -/
theorem isNaN_ofInt (n : Int) : (Float.ofInt n).isNaN = false := by
  cases n with
  | ofNat n => exact isNaN_natural n
  | negSucc n => exact isNaN_pack ((isNaN_neg _).trans (isNaN_natural (n + 1)))

end MediaWatch.Decimal
