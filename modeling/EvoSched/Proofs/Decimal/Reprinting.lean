import EvoSched.Proofs.Decimal.Reading
import EvoSched.Proofs.Scalar.Steps

set_option autoImplicit false

namespace EvoSched.Decimal

open Binary64 (IsSteps largest largest_lt nearest nearestSteps roundHalfEven stepBits topShift
  topShift_eq)

theorem nearestSteps_zero {denominator : Nat} (positive : 0 < denominator) :
    nearestSteps 0 denominator = 0 := by
  have unit : 0 < denominator * 2 ^ Binary64.spacing (0 * 2 ^ stepBits / denominator) :=
    Nat.mul_pos positive (Nat.two_pow_pos _)
  have none : roundHalfEven (0 * 2 ^ stepBits)
      (denominator * 2 ^ Binary64.spacing (0 * 2 ^ stepBits / denominator)) ≤ 0 :=
    Binary64.roundHalfEven_le_of_le unit (by rw [Nat.zero_mul, Nat.zero_mul])
  unfold nearestSteps
  simp only [Nat.pow_eq]
  rw [Nat.le_zero.1 none, Nat.zero_mul]

/-- What was written with few places is in the range where the power of ten is formed. -/
theorem scientific_eq (negative : Bool) {units places : Nat} (few : places ≤ 400)
    (small : units < 2 ^ (1024 + 4 * places)) :
    scientific negative units (-(places : Int)) = nearest negative units (10 ^ places) := by
  have bits : units.log2 ≤ 1023 + 4 * places := by
    refine Binary64.log2_le (small.trans_eq ?_)
    rw [Nat.add_right_comm]
  have large : ¬ (400 : Int) < (3 * (units.log2 / 10) : Nat) + -(places : Int) := by omega
  have tiny : ¬ ((units.log2 / 3 + 2 : Nat) : Int) + -(places : Int) < -400 := by omega
  unfold scientific
  simp only [large, tiny, decide_false, Bool.or_false, decide_eq_true_eq, if_false]
  split
  · rename_i none
    rw [none, nearest, nearestSteps_zero (Nat.pow_pos (by decide))]
  · have whole : (-(places : Int)).toNat = 0 := by omega
    have part : (- -(places : Int)).toNat = places := by omega
    rw [whole, part]
    exact congrArg (fun numerator => nearest negative numerator (10 ^ places)) (Nat.mul_one units)

section

variable {x : Float} {negative : Bool} {steps : Nat}
  (finite : Binary64.read x = .finite negative steps)

include finite

theorem units_lt (places : Nat) :
    roundHalfEven (steps * 10 ^ places) (2 ^ stepBits) < 2 ^ (1024 + 4 * places) := by
  have top := topShift_eq
  have tens : 10 ^ places ≤ 2 ^ (4 * places) := by
    rw [Nat.pow_mul]
    exact Nat.pow_le_pow_left (by decide) places
  have scaled : roundHalfEven (steps * 10 ^ places) (2 ^ stepBits) * 2 ^ stepBits <
      2 ^ (53 + topShift) * 2 ^ (4 * places) := by
    calc roundHalfEven (steps * 10 ^ places) (2 ^ stepBits) * 2 ^ stepBits
        ≤ largest * 10 ^ places := Binary64.roundHalfEven_le_largest finite
      _ ≤ largest * 2 ^ (4 * places) := Nat.mul_le_mul_left _ tens
      _ < 2 ^ (53 + topShift) * 2 ^ (4 * places) :=
          Nat.mul_lt_mul_of_pos_right largest_lt (Nat.two_pow_pos _)
  have split_ : 53 + topShift + 4 * places = 1024 + 4 * places + stepBits := by
    unfold stepBits
    omega
  rw [← Nat.pow_add, split_, Nat.pow_add] at scaled
  exact Nat.lt_of_mul_lt_mul_right scaled

/-- A finite double is read again as the double nearest to its text. -/
theorem read_reread {places : Nat} (few : places ≤ 400) :
    Binary64.read (reread places x) = .finite negative
      (nearestSteps (roundHalfEven (steps * 10 ^ places) (2 ^ stepBits)) (10 ^ places)) := by
  have positive : 0 < 10 ^ places := Nat.pow_pos (by decide)
  unfold reread
  rw [finite]
  simp only [Nat.pow_eq]
  rw [scientific_eq negative few (units_lt finite places)]
  exact Binary64.read_ofSteps negative
    (Binary64.isSteps_nearestSteps positive (Binary64.roundHalfEven_le_largest finite))

end

/-- Doubles that are read alike have the same text. -/
theorem fixed_congr (places : Nat) {x y : Float} (same : Binary64.read x = Binary64.read y) :
    fixed places x = fixed places y := by
  unfold fixed
  rw [same]

/-- The text of a double is that of the double that is read from it. -/
theorem fixed_reread {places : Nat} (few : places ≤ 400) (x : Float) :
    fixed places (reread places x) = fixed places x := by
  cases shape : Binary64.read x with
  | nan =>
      have again : reread places x = Float.ofBits 0x7FF8000000000000 := by
        unfold reread
        rw [shape]
      refine fixed_congr places ?_
      rw [again, Binary64.read_nan, shape]
  | infinite negative =>
      have again : reread places x = Binary64.infinity negative := by
        unfold reread
        rw [shape]
      refine fixed_congr places ?_
      rw [again, Binary64.read_infinity, shape]
  | finite negative steps =>
      have positive : 0 < 10 ^ places := Nat.pow_pos (by decide)
      unfold fixed
      rw [read_reread shape few, shape]
      simp only [Nat.pow_eq]
      rw [Binary64.roundHalfEven_nearestSteps shape positive]

end EvoSched.Decimal
