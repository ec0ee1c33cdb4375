import Mathlib
import EvoSched.Proofs.Scalar.Rounding
import EvoSched.Scalar.Double

set_option autoImplicit false

open Float.Model (Format UnpackedFloat totalExponent)
open Float.Model.UnpackedFloat

namespace EvoSched.Binary64

def parts (x : Float) : UnpackedFloat := x.toModel.unpack

/-- What is left of a result once it is stored in a word. -/
def stored (f : UnpackedFloat) : UnpackedFloat := unpack .binary64 (pack .binary64 f)

def signOf (word : Nat) : Sign := if word / 2 ^ 63 = 1 then .negative else .positive

theorem toNat_unpackMantissa (b : BitVec 64) :
    (@unpackMantissa .binary64 b).toNat = b.toNat % 2 ^ 52 := by
  simp [unpackMantissa_def, BitVec.extractLsb'_toNat]

theorem toNat_unpackExponent (b : BitVec 64) :
    (@unpackExponent .binary64 b).toNat = b.toNat / 2 ^ 52 % 2 ^ 11 := by
  simp [unpackExponent_def, BitVec.extractLsb'_toNat, Nat.shiftRight_eq_div_pow]

theorem ofBitVec_unpackSign (b : BitVec 64) :
    Sign.ofBitVec (@unpackSign .binary64 b) = signOf b.toNat := by
  have bound := b.isLt
  have bit : (@unpackSign .binary64 b).toNat = b.toNat / 2 ^ 63 := by
    simp only [unpackSign_def, BitVec.extractLsb'_toNat, Nat.shiftRight_eq_div_pow]
    omega
  simp only [Sign.ofBitVec, signOf, ← BitVec.toNat_inj, bit]
  change (if b.toNat / 2 ^ 63 = 0 then _ else _) = _
  split <;> split <;> first | rfl | omega

theorem toNat_implicit (fraction : BitVec 52) :
    (1#1 ++ fraction).toNat = 2 ^ 52 + fraction.toNat := by
  rw [BitVec.toNat_append, ← Nat.shiftLeft_add_eq_or_of_lt fraction.isLt]
  rfl

theorem unpack_eq (b : BitVec 64) :
    unpack .binary64 b =
      if b.toNat / 2 ^ 52 % 2 ^ 11 = 2047 then
        if b.toNat % 2 ^ 52 = 0 then .infinity (signOf b.toNat) else .notANumber
      else if b.toNat / 2 ^ 52 % 2 ^ 11 = 0 then
        if none : b.toNat % 2 ^ 52 = 0 then .zero (signOf b.toNat)
        else .finite (signOf b.toNat) (b.toNat % 2 ^ 52) (-1074) (Nat.pos_of_ne_zero none)
      else .finite (signOf b.toNat) (2 ^ 52 + b.toNat % 2 ^ 52)
        ((b.toNat / 2 ^ 52 % 2 ^ 11 : Nat) - 1075) (by omega) := by
  have full : @unpackExponent .binary64 b = -1#_ ↔ b.toNat / 2 ^ 52 % 2 ^ 11 = 2047 := by
    rw [← toNat_unpackExponent, ← BitVec.toNat_inj]
    rfl
  have empty : @unpackExponent .binary64 b = 0#_ ↔ b.toNat / 2 ^ 52 % 2 ^ 11 = 0 := by
    rw [← toNat_unpackExponent, ← BitVec.toNat_inj]
    rfl
  have blank : @unpackMantissa .binary64 b = 0#_ ↔ b.toNat % 2 ^ 52 = 0 := by
    rw [← toNat_unpackMantissa, ← BitVec.toNat_inj]
    rfl
  unfold unpack
  simp only [ofBitVec_unpackSign, full, empty, blank, toNat_implicit, toNat_unpackMantissa,
    toNat_unpackExponent]
  split
  · rfl
  · split
    · rename_i subnormal
      rw [subnormal]
      rfl
    · rfl

theorem fits_parts {x : Float} {sign : Sign} {m : Nat} {e : Int} {positive : 0 < m}
    (found : parts x = .finite sign m e positive) : Fits m e := by
  change unpack .binary64 x.toBits.toBitVec = _ at found
  rw [unpack_eq] at found
  have narrow := Nat.mod_lt x.toBits.toBitVec.toNat (y := 2 ^ 52) (by decide)
  split at found
  · split at found <;> cases found
  · split at found
    · split at found
      · cases found
      · cases found
        exact ⟨by omega, le_refl _⟩
    · cases found
      exact ⟨by omega, by omega⟩

theorem signOf_eq_negative (word : Nat) :
    (signOf word == .negative) = (word / 2 ^ 63 == 1) := by
  by_cases set : word / 2 ^ 63 = 1
  · rw [signOf, if_pos set, set]
    rfl
  · rw [signOf, if_neg set, beq_false_of_ne set]
    rfl

/-- The steps of a mantissa at an exponent. -/
def readingOf : UnpackedFloat → Reading
  | .notANumber => .nan
  | .infinity sign => .infinite (sign == .negative)
  | .zero sign => .finite (sign == .negative) 0
  | .finite sign m e _ => .finite (sign == .negative) (m * 2 ^ (e + 1074).toNat)

theorem read_eq (x : Float) : read x = readingOf (parts x) := by
  change _ = readingOf (unpack .binary64 x.toBits.toBitVec)
  rw [unpack_eq]
  change (if x.toBits.toBitVec.toNat / 2 ^ 52 % 2 ^ 11 = 2047 then _ else _) = _
  split
  · change (if x.toBits.toBitVec.toNat % 2 ^ 52 = 0 then _ else _) = _
    split
    · rw [readingOf, signOf_eq_negative]
      rfl
    · rfl
  · change Reading.finite _ (stepsOfFields (x.toBits.toBitVec.toNat / 2 ^ 52 % 2 ^ 11)
      (x.toBits.toBitVec.toNat % 2 ^ 52)) = _
    split
    · rename_i empty
      rw [stepsOfFields, if_pos empty]
      split
      · rename_i blank
        rw [readingOf, signOf_eq_negative, blank]
        rfl
      · rw [readingOf, signOf_eq_negative]
        exact congrArg _ (Nat.mul_one _).symm
    · rename_i normal
      rw [stepsOfFields, if_neg normal, readingOf, signOf_eq_negative]
      have same : ((x.toBits.toBitVec.toNat / 2 ^ 52 % 2 ^ 11 : Nat) - 1075 + 1074 : Int).toNat =
          x.toBits.toBitVec.toNat / 2 ^ 52 % 2 ^ 11 - 1 := by omega
      rw [same]
      rfl

@[simp] theorem stored_zero (sign : Sign) : stored (.zero sign) = .zero sign := unpack_packedZero

@[simp] theorem stored_infinity (sign : Sign) : stored (.infinity sign) = .infinity sign := by
  simp [stored, pack, unpack, packedInfinity]

/-- The exponent field of a finite result. -/
theorem biased_eq {e : Int} (above : -1074 ≤ e) :
    ((e + (Format.exponentBias .binary64 : Nat) + (52 : Nat)).toNat : Int) = e + 1075 := by
  change ((e + (1023 : Nat) + (52 : Nat)).toNat : Int) = e + 1075
  omega

theorem stored_of_large {sign : Sign} {m : Nat} {e : Int} (positive : 0 < m) (large : 971 < e) :
    stored (.finite sign m e positive) = .infinity sign := by
  have biased := biased_eq (e := e) (by omega)
  have full : 2 ^ 11 ≤ (e + (Format.exponentBias .binary64 : Nat) + (52 : Nat)).toNat + 1 := by
    omega
  rw [stored, pack]
  simp only [full, if_true]
  exact stored_infinity sign

/-- A mantissa of 53 bits is stored as it is. -/
theorem stored_normal {sign : Sign} {m : Nat} {e : Int} (positive : 0 < m) (fits : Fits m e)
    (wide : 2 ^ 52 ≤ m) (small : e ≤ 971) :
    stored (.finite sign m e positive) = .finite sign m e positive := by
  obtain ⟨narrow, above⟩ := fits
  have biased := biased_eq above
  have bits : m.log2 + 1 = Format.mantissaBits .binary64 := by
    rw [(Nat.log2_eq_iff positive.ne').2 ⟨wide, narrow⟩]
    rfl
  rw [stored, pack]
  generalize (e + (Format.exponentBias .binary64 : Nat) + (52 : Nat)).toNat = field at biased ⊢
  have room : ¬ 2 ^ 11 ≤ field + 1 := by omega
  have exponent : (BitVec.ofNat 11 field).toNat = field := by
    rw [BitVec.toNat_ofNat, Nat.mod_eq_of_lt (by omega)]
  have full : BitVec.ofNat 11 field ≠ -1#11 := by
    rw [Ne, ← BitVec.toNat_inj, exponent]
    change ¬ field = 2047
    omega
  have empty : BitVec.ofNat 11 field ≠ 0#11 := by
    rw [Ne, ← BitVec.toNat_inj, exponent]
    change ¬ field = 0
    omega
  have whole : 2 ^ 52 + m % 2 ^ 52 = m := by omega
  have back : (field : Int) - ((Format.exponentBias .binary64 : Nat) + (52 : Nat)) = e := by
    change (field : Int) - ((1023 : Nat) + (52 : Nat)) = e
    omega
  simp only [room, if_false, bits, if_true]
  unfold unpack
  simp only [unpackExponent_packComponents, unpackMantissa_packComponents,
    unpackSign_packComponents, Sign.ofBitVec_toBitVec, full, empty, if_false, toNat_implicit,
    BitVec.toNat_ofNat, whole, exponent, back]

/-- A shorter mantissa is stored at the least exponent, whatever its exponent was. -/
theorem stored_subnormal {sign : Sign} {m : Nat} {e : Int} (positive : 0 < m) (fits : Fits m e)
    (narrow : m < 2 ^ 52) (small : e ≤ 971) :
    stored (.finite sign m e positive) = .finite sign m (-1074) positive := by
  have biased := biased_eq fits.above
  have bits : ¬ m.log2 + 1 = Format.mantissaBits .binary64 := by
    have few : m.log2 < 52 := (Nat.log2_lt positive.ne').2 narrow
    change ¬ m.log2 + 1 = 53
    omega
  rw [stored, pack]
  generalize (e + (Format.exponentBias .binary64 : Nat) + (52 : Nat)).toNat = field at biased ⊢
  have room : ¬ 2 ^ 11 ≤ field + 1 := by omega
  have fraction : (BitVec.ofNat 52 m).toNat = m := by
    rw [BitVec.toNat_ofNat, Nat.mod_eq_of_lt narrow]
  have some_bit : BitVec.ofNat 52 m ≠ 0#52 := by
    rw [Ne, ← BitVec.toNat_inj, fraction]
    exact positive.ne'
  simp only [room, if_false, bits]
  unfold unpack
  simp only [unpackExponent_packComponents, unpackMantissa_packComponents,
    unpackSign_packComponents, Sign.ofBitVec_toBitVec, some_bit, fraction]
  rfl

theorem log2_mul_two_pow {n : Nat} (positive : 0 < n) (count : Nat) :
    (n * 2 ^ count).log2 = n.log2 + count := by
  have some_bit : n * 2 ^ count ≠ 0 := by positivity
  have low : 2 ^ n.log2 ≤ n := Nat.log2_self_le positive.ne'
  have high : n < 2 ^ (n.log2 + 1) := Nat.lt_log2_self
  rw [Nat.log2_eq_iff some_bit]
  constructor
  · rw [Nat.pow_add]
    exact Nat.mul_le_mul_right _ low
  · rw [Nat.add_right_comm, Nat.pow_add]
    exact Nat.mul_lt_mul_of_pos_right high (by positivity)

theorem roundHalfEven_mul (quotient : Nat) {denominator : Nat} (positive : 0 < denominator) :
    roundHalfEven (quotient * denominator) denominator = quotient := by
  unfold roundHalfEven
  rw [Nat.mul_div_cancel _ positive, Nat.mul_mod_left]
  exact if_pos positive

/-- The significand of a whole number that needs no rounding. -/
def significand (n : Nat) : Nat := n * 2 ^ (52 - n.log2)

theorem significand_bounds {n : Nat} (positive : 0 < n) (narrow : n < 2 ^ 53) :
    2 ^ 52 ≤ significand n ∧ significand n < 2 ^ 53 := by
  have bits : n.log2 < 53 := (Nat.log2_lt positive.ne').2 narrow
  have width : (significand n).log2 = 52 := by
    rw [significand, log2_mul_two_pow positive]
    omega
  exact (Nat.log2_eq_iff (by unfold significand; positivity)).1 width

theorem significand_mul {n : Nat} (positive : 0 < n) (narrow : n < 2 ^ 53) :
    significand n * 2 ^ (n.log2 + 1022) = n * 2 ^ stepBits := by
  have bits : n.log2 < 53 := (Nat.log2_lt positive.ne').2 narrow
  have together : 52 - n.log2 + (n.log2 + 1022) = stepBits := by
    unfold stepBits
    omega
  rw [significand, Nat.mul_assoc, ← Nat.pow_add, together]

theorem spacing_whole {n : Nat} (positive : 0 < n) :
    spacing (n * 2 ^ stepBits) = n.log2 + 1022 := by
  rw [spacing, log2_mul_two_pow positive]
  unfold stepBits
  omega

theorem nearestSteps_whole {n : Nat} (positive : 0 < n) (narrow : n < 2 ^ 53) :
    nearestSteps n 1 = n * 2 ^ stepBits := by
  unfold nearestSteps
  simp only [Nat.pow_eq, Nat.div_one, Nat.one_mul, spacing_whole positive]
  rw [← significand_mul positive narrow, roundHalfEven_mul _ (Nat.two_pow_pos _)]

theorem wordOfSteps_whole {n : Nat} (positive : 0 < n) (narrow : n < 2 ^ 53) :
    wordOfSteps (n * 2 ^ stepBits) = (n.log2 + 1022) * 2 ^ 52 + significand n := by
  have bits : n.log2 < 53 := (Nat.log2_lt positive.ne').2 narrow
  have bound := (significand_bounds positive narrow).2
  unfold wordOfSteps
  simp only [Nat.pow_eq, spacing_whole positive]
  rw [← significand_mul positive narrow, Nat.mul_div_cancel _ (Nat.two_pow_pos _)]
  exact Nat.min_eq_left (by omega)

/-- The word of a mantissa of 53 bits: its first bit counts into the exponent field. -/
theorem unpack_normal {b : BitVec 64} {shift m : Nat} (word : b.toNat = shift * 2 ^ 52 + m)
    (wide : 2 ^ 52 ≤ m) (narrow : m < 2 ^ 53) (small : shift < 2046) :
    unpack .binary64 b = .finite .positive m (shift - 1074) (by omega) := by
  have field : b.toNat / 2 ^ 52 % 2 ^ 11 = shift + 1 := by omega
  have fraction : 2 ^ 52 + b.toNat % 2 ^ 52 = m := by omega
  have sign : signOf b.toNat = .positive := if_neg (by omega)
  have exponent : ((shift + 1 : Nat) : Int) - 1075 = shift - 1074 := by omega
  have full : ¬ shift + 1 = 2047 := by omega
  have empty : ¬ shift + 1 = 0 := by omega
  rw [unpack_eq]
  simp only [field, fraction, sign, exponent, full, empty, if_false]

/-- Whole numbers below `2 ^ 53` are held exactly. -/
theorem parts_ofInt {n : Nat} (positive : 0 < n) (narrow : n < 2 ^ 53) :
    parts (ofInt n) =
      .finite .positive (significand n) (n.log2 - 52)
        (by have := significand_bounds positive narrow; omega) := by
  obtain ⟨wide, below⟩ := significand_bounds positive narrow
  have bits : n.log2 < 53 := (Nat.log2_lt positive.ne').2 narrow
  have word : ofInt n = Float.ofBits (UInt64.ofNat ((n.log2 + 1022) * 2 ^ 52 + significand n)) := by
    have sign : decide ((n : Int) < 0) = false := decide_eq_false (by omega)
    rw [ofInt, nearest, ofSteps, sign, Int.natAbs_natCast, nearestSteps_whole positive narrow,
      wordOfSteps_whole positive narrow, if_neg Bool.false_ne_true, Nat.zero_add]
  have whole : (UInt64.ofNat ((n.log2 + 1022) * 2 ^ 52 + significand n)).toBitVec.toNat =
      (n.log2 + 1022) * 2 ^ 52 + significand n :=
    UInt64.toNat_ofNat_of_lt' (by unfold UInt64.size; omega)
  have exponent : ((n.log2 + 1022 : Nat) : Int) - 1074 = n.log2 - 52 := by omega
  rw [word]
  change stored (unpack .binary64 (UInt64.ofNat _).toBitVec) = _
  rw [unpack_normal whole wide below (by omega)]
  simp only [exponent]
  exact stored_normal _ ⟨below, by omega⟩ wide (by omega)

end EvoSched.Binary64
