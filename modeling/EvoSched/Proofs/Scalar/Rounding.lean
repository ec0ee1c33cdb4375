import Mathlib.Tactic.NormNum
import Mathlib.Tactic.Positivity

set_option autoImplicit false

open Float.Model (Format UnpackedFloat totalExponent)
open Float.Model.UnpackedFloat

namespace EvoSched.Binary64

/-- A mantissa and an exponent that a finite double can have, large exponents aside. -/
structure Fits (mantissa : Nat) (exponent : Int) : Prop where
  narrow : mantissa < 2 ^ 53
  above : -1074 ≤ exponent

theorem targetExponent_eq (total : Int) :
    Format.binary64.targetExponent total = max (total - 53) (-1074) := rfl

theorem mantissa_shiftRight (em : ExtendedMantissa) (count : Nat) :
    (em >>> count).mantissa = em.mantissa / 2 ^ count := by
  induction count with
  | zero => exact (Nat.div_one em.mantissa).symm
  | succ count ih =>
      change (em >>> count).mantissa / 2 = _
      rw [ih, Nat.div_div_eq_div_mul, Nat.pow_succ]

theorem mantissa_ofMantissaAndAccuracy (mantissa : Nat) (accuracy : Accuracy) :
    (ExtendedMantissa.ofMantissaAndAccuracy mantissa accuracy).mantissa = mantissa := by
  rcases accuracy with _ | (_ | _ | _) <;> rfl

/-- Rounding keeps a mantissa or takes the next one. -/
theorem roundedMantissa_bounds (em : ExtendedMantissa) :
    em.mantissa ≤ em.roundedMantissa ∧ em.roundedMantissa ≤ em.mantissa + 1 := by
  rcases em with ⟨mantissa, _ | _, _ | _⟩
  · exact ⟨Nat.le_refl _, Nat.le_succ _⟩
  · exact ⟨Nat.le_refl _, Nat.le_succ _⟩
  · change mantissa ≤ mantissa + mantissa % 2 ∧ mantissa + mantissa % 2 ≤ mantissa + 1
    omega
  · exact ⟨Nat.le_succ _, Nat.le_refl _⟩

theorem shiftToTargetExponent_eq (mantissa : Nat) (exponent : Int) (accuracy : Accuracy) :
    (shiftToTargetExponent .binary64 mantissa exponent accuracy).1.mantissa =
        mantissa / 2 ^ (max (totalExponent mantissa exponent - 53) (-1074) - exponent).toNat ∧
      (shiftToTargetExponent .binary64 mantissa exponent accuracy).2 =
        max (max (totalExponent mantissa exponent - 53) (-1074)) exponent := by
  unfold shiftToTargetExponent shiftToExponent
  rw [targetExponent_eq]
  constructor
  · simp only [mantissa_shiftRight, mantissa_ofMantissaAndAccuracy]
  · simp only
    omega

/-- A shift leaves 53 bits at most, and loses nothing of a mantissa that fits. -/
theorem fits_shift (mantissa : Nat) (exponent : Int) (accuracy : Accuracy) :
    Fits (shiftToTargetExponent .binary64 mantissa exponent accuracy).1.mantissa
      (shiftToTargetExponent .binary64 mantissa exponent accuracy).2 := by
  obtain ⟨shifted, moved⟩ := shiftToTargetExponent_eq mantissa exponent accuracy
  rw [shifted, moved]
  constructor
  · have wide : mantissa < 2 ^ (mantissa.log2 + 1) := Nat.lt_log2_self
    have room : mantissa.log2 + 1 ≤
        53 + (max (totalExponent mantissa exponent - 53) (-1074) - exponent).toNat := by
      unfold totalExponent
      omega
    rw [Nat.div_lt_iff_lt_mul (by positivity), ← Nat.pow_add]
    exact wide.trans_le (Nat.pow_le_pow_right (by decide) room)
  · omega

theorem shift_pos {mantissa : Nat} {exponent : Int} (accuracy : Accuracy) (positive : 0 < mantissa)
    (above : -1074 ≤ exponent) :
    0 < (shiftToTargetExponent .binary64 mantissa exponent accuracy).1.mantissa := by
  rw [(shiftToTargetExponent_eq mantissa exponent accuracy).1]
  have least : 2 ^ mantissa.log2 ≤ mantissa := Nat.log2_self_le (by omega)
  have room : (max (totalExponent mantissa exponent - 53) (-1074) - exponent).toNat ≤
      mantissa.log2 := by
    unfold totalExponent
    omega
  exact Nat.div_pos ((Nat.pow_le_pow_right (by decide) room).trans least) (by positivity)

/-- What rounding comes to: a mantissa and an exponent of a double, or zero. The exponent is one
more at most than shifting makes it. -/
theorem roundWithAccuracy_eq (sign : Sign) (mantissa : Nat) (exponent : Int)
    (accuracy : Accuracy) :
    ∃ m e, Fits m e ∧ e ≤ max (max (totalExponent mantissa exponent - 53) (-1074)) exponent + 1 ∧
      (0 < mantissa → -1074 ≤ exponent → 0 < m) ∧
      roundWithAccuracy .binary64 sign mantissa exponent accuracy =
        if h : m = 0 then .zero sign else .finite sign m e (Nat.pos_of_ne_zero h) := by
  have first := fits_shift mantissa exponent accuracy
  have moved := (shiftToTargetExponent_eq mantissa exponent accuracy).2
  unfold roundWithAccuracy
  have rounded :=
    roundedMantissa_bounds (shiftToTargetExponent .binary64 mantissa exponent accuracy).1
  have second := fits_shift
    (shiftToTargetExponent .binary64 mantissa exponent accuracy).1.roundedMantissa
    (shiftToTargetExponent .binary64 mantissa exponent accuracy).2 .exact
  refine ⟨_, _, second, ?_, ?_, rfl⟩
  · -- rounding up reaches `2 ^ 53` at most, which one more shift brings back
    have narrow := first.narrow
    have above := first.above
    have bits : (shiftToTargetExponent .binary64 mantissa exponent
        accuracy).1.roundedMantissa.log2 ≤ 53 := by
      have least : (shiftToTargetExponent .binary64 mantissa exponent
          accuracy).1.roundedMantissa < 2 ^ 54 := by omega
      by_cases none : (shiftToTargetExponent .binary64 mantissa exponent
          accuracy).1.roundedMantissa = 0
      · rw [none]
        decide
      · have := (Nat.log2_lt none).2 least
        omega
    rw [(shiftToTargetExponent_eq _ _ .exact).2]
    rw [moved] at above ⊢
    simp only [totalExponent] at bits above ⊢
    omega
  · intro positive above
    have kept := shift_pos accuracy positive above
    exact shift_pos .exact (by omega) first.above

end EvoSched.Binary64
