import EvoSched.Proofs.Decimal.Reading
import EvoSched.Decimal.Shortest

set_option autoImplicit false

namespace EvoSched

namespace Binary64

/-- The steps of all doubles lie below `10 ^ digitLimit`. -/
@[irreducible] def digitLimit : Nat := 700

theorem digitLimit_eq : digitLimit = 700 := by
  unfold digitLimit
  rfl

theorem steps_lt {x : Float} {negative : Bool} {steps : Nat}
    (finite : read x = .finite negative steps) : steps < 10 ^ digitLimit := by
  have bits : 2 ^ (3 * digitLimit) ≤ 10 ^ digitLimit := by
    rw [Nat.pow_mul]
    exact Nat.pow_le_pow_left (by decide) digitLimit
  refine Nat.lt_of_lt_of_le ?_ bits
  unfold read at finite
  simp only at finite
  split at finite
  · split at finite
    · cases finite
    · cases finite
  · cases finite
    generalize x.toBits.toNat = word
    have fraction : word % 2 ^ 52 < 2 ^ 52 := Nat.mod_lt _ (Nat.two_pow_pos 52)
    have field : word / 2 ^ 52 % 2 ^ 11 < 2 ^ 11 := Nat.mod_lt _ (Nat.two_pow_pos 11)
    have wide := digitLimit_eq
    change stepsOfFields (word / 2 ^ 52 % 2 ^ 11) (word % 2 ^ 52) < 2 ^ (3 * digitLimit)
    generalize word % 2 ^ 52 = low at fraction ⊢
    generalize word / 2 ^ 52 % 2 ^ 11 = high at field ⊢
    unfold stepsOfFields
    split
    · exact Nat.lt_of_lt_of_le fraction (Nat.pow_le_pow_right (by decide) (by omega))
    · have significand : 2 ^ 52 + low < 2 ^ 53 := by omega
      calc (2 ^ 52 + low) * 2 ^ (high - 1)
          < 2 ^ 53 * 2 ^ (high - 1) := Nat.mul_lt_mul_of_pos_right significand (Nat.two_pow_pos _)
        _ = 2 ^ (53 + (high - 1)) := (Nat.pow_add 2 53 _).symm
        _ ≤ 2 ^ (3 * digitLimit) := Nat.pow_le_pow_right (by decide) (by omega)

theorem roundHalfEven_le (numerator denominator : Nat) :
    roundHalfEven numerator denominator ≤ numerator / denominator + 1 := by
  unfold roundHalfEven
  simp only
  split
  · omega
  · split
    · omega
    · omega

end Binary64

namespace Decimal

open Binary64 (digitLimit digitLimit_eq steps_lt roundHalfEven_le)

theorem length_toString_le {n k : Nat} (few : 0 < k) (small : n < 10 ^ k) :
    (toString n).length ≤ k := by
  rw [← String.length_toList, toList_toString]
  exact (Nat.length_toDigits_le_iff (by decide) few).2 small

theorem length_sign_le (negative : Bool) : (sign negative).length ≤ 1 := by
  cases negative with
  | false => exact Nat.zero_le 1
  | true => exact Nat.le_refl 1

theorem length_pointed_le {places units k : Nat} (few : 0 < k)
    (small : units / Nat.pow 10 places < 10 ^ k) :
    (pointed places units).length ≤ k + (places + 1) := by
  have whole := length_toString_le few small
  unfold pointed
  rw [String.length_append]
  refine Nat.add_le_add whole ?_
  split
  · exact Nat.zero_le _
  · have behind : (String.ofList (digits places units)).length = places := by
      rw [String.length_ofList, length_digits]
    rw [String.length_append, behind]
    exact Nat.le_of_eq (Nat.add_comm 1 places)

theorem length_fixed_le (places : Nat) (x : Float) :
    (fixed places x).length ≤ places + (digitLimit + 3) := by
  unfold fixed
  split
  · have short : "nan".length ≤ 3 := Nat.le_refl 3
    omega
  · rename_i negative _
    have signed := length_sign_le negative
    have short : "inf".length ≤ 3 := Nat.le_refl 3
    have wide := digitLimit_eq
    rw [String.length_append]
    omega
  · rename_i negative steps finite
    have signed := length_sign_le negative
    have scale : 0 < Nat.pow 10 places := Nat.pow_pos (by decide)
    have units : Binary64.roundHalfEven (steps * Nat.pow 10 places) (Nat.pow 2 Binary64.stepBits) ≤
        1 + steps * Nat.pow 10 places := by
      have rounded := roundHalfEven_le (steps * Nat.pow 10 places) (Nat.pow 2 Binary64.stepBits)
      have part := Nat.div_le_self (steps * Nat.pow 10 places) (Nat.pow 2 Binary64.stepBits)
      omega
    have small : Binary64.roundHalfEven (steps * Nat.pow 10 places) (Nat.pow 2 Binary64.stepBits) /
        Nat.pow 10 places < 10 ^ (digitLimit + 1) := by
      calc _ ≤ (1 + steps * Nat.pow 10 places) / Nat.pow 10 places := Nat.div_le_div_right units
        _ = 1 / Nat.pow 10 places + steps := Nat.add_mul_div_right _ _ scale
        _ ≤ 1 + steps := Nat.add_le_add_right (Nat.div_le_self 1 _) steps
        _ ≤ 10 ^ digitLimit := by
            rw [Nat.add_comm]
            exact steps_lt finite
        _ < 10 ^ (digitLimit + 1) := Nat.pow_lt_pow_succ (by decide)
    have written := length_pointed_le (Nat.succ_pos _) small
    rw [String.length_append]
    omega

theorem onGrid_le {steps found : Nat} {exponent : Int} (grid : onGrid steps exponent = some found) :
    found ≤ 2 * (steps * 10 ^ (-exponent).toNat) + 1 := by
  unfold onGrid at grid
  change found ≤ 2 * (steps * Nat.pow 10 (-exponent).toNat) + 1
  generalize steps * Nat.pow 10 (-exponent).toNat = numerator at grid ⊢
  generalize Nat.pow 2 Binary64.stepBits * Nat.pow 10 exponent.toNat = denominator at grid
  simp only at grid
  have rounded := roundHalfEven_le numerator denominator
  have part := Nat.div_le_self numerator denominator
  split at grid
  · cases grid
    omega
  · split at grid
    · cases grid
      omega
    · cases grid

/-- The grids that are searched lie around the leading digit. -/
theorem searchGrids_bounds (steps : Nat) (leading : Int) {more : Nat} (few : more ≤ 16) :
    (searchGrids steps leading more).1 ≤ 2 * (steps * 10 ^ (16 - leading).toNat) + 1 ∧
      leading - 16 ≤ (searchGrids steps leading more).2 ∧
      (searchGrids steps leading more).2 ≤ leading := by
  have on_grid {found : Nat} {exponent : Int} (low : leading - 16 ≤ exponent)
      (grid : onGrid steps exponent = some found) :
      found ≤ 2 * (steps * 10 ^ (16 - leading).toNat) + 1 := by
    have scale : 10 ^ (-exponent).toNat ≤ 10 ^ (16 - leading).toNat :=
      Nat.pow_le_pow_right (by decide) (by omega)
    have wider := Nat.mul_le_mul_left steps scale
    have bounded := onGrid_le grid
    omega
  -- No grid is finer than the last one, so a single bound does for each of them.
  induction more with
  | zero =>
      simp only [searchGrids]
      refine ⟨?_, by omega, by omega⟩
      cases grid : onGrid steps (leading - 16) with
      | none => exact Nat.zero_le _
      | some found => exact on_grid (Int.le_refl _) grid
  | succ more ih =>
      simp only [searchGrids]
      split
      · rename_i found grid
        exact ⟨on_grid (by omega) grid, by simp only; omega, by simp only; omega⟩
      · exact ih (by omega)

theorem mul_pow_lt {steps k : Nat} (small : steps < 10 ^ digitLimit) (few : k ≤ digitLimit) :
    steps * Nat.pow 10 k < 10 ^ (2 * digitLimit) := by
  rw [Nat.two_mul, Nat.pow_add]
  exact Nat.mul_lt_mul_of_lt_of_le small (Nat.pow_le_pow_right (by decide) few)
    (Nat.pow_pos (by decide))

theorem length_scaled_bounds {steps : Nat} (small : steps < 10 ^ digitLimit) (k : Nat)
    (few : k ≤ digitLimit) :
    0 < (Nat.toDigits 10 (steps * Nat.pow 10 k / Nat.pow 2 Binary64.stepBits)).length ∧
      (Nat.toDigits 10 (steps * Nat.pow 10 k / Nat.pow 2 Binary64.stepBits)).length ≤
        2 * digitLimit := by
  have wide : 0 < 2 * digitLimit := by
    have := digitLimit_eq
    omega
  have scaled := (Nat.div_le_self _ (Nat.pow 2 Binary64.stepBits)).trans_lt (mul_pow_lt small few)
  exact ⟨List.length_pos_iff.2 Nat.toDigits_ne_nil,
    (Nat.length_toDigits_le_iff (by decide) wide).2 scaled⟩

theorem leadingExponent_bounds {steps : Nat} (small : steps < 10 ^ digitLimit) :
    -400 ≤ leadingExponent steps ∧ leadingExponent steps ≤ 2 * digitLimit := by
  have wide : 400 ≤ digitLimit := by
    have := digitLimit_eq
    omega
  -- The count is any number here, since with its digits in sight the power would be evaluated.
  have place {count : Nat} (counted : 0 < count ∧ count ≤ 2 * digitLimit) :
      -400 ≤ (count : Int) - 401 ∧ (count : Int) - 401 ≤ 2 * digitLimit := by omega
  exact place (length_scaled_bounds small 400 wide)

theorem length_dropZeros_le (s : List Char) : (dropZeros s).length ≤ s.length := by
  unfold dropZeros
  rw [List.length_reverse]
  exact (List.dropWhile_sublist _).length_le.trans_eq List.length_reverse

theorem shortestDigits_bounds {steps : Nat} (small : steps < 10 ^ digitLimit) :
    (shortestDigits steps).1.length ≤ 2 * digitLimit + 1 ∧
      (shortestDigits steps).2.natAbs < 10 ^ 5 := by
  have wide := digitLimit_eq
  obtain ⟨low, high⟩ := leadingExponent_bounds small
  obtain ⟨found, below, above⟩ := searchGrids_bounds steps (leadingExponent steps) (Nat.le_refl 16)
  have bounded : (searchGrids steps (leadingExponent steps) 16).1 <
      10 ^ (2 * digitLimit + 1) := by
    have scaled : steps * 10 ^ (16 - leadingExponent steps).toNat < 10 ^ (2 * digitLimit) :=
      mul_pow_lt small (by omega)
    rw [Nat.pow_succ]
    omega
  have some_digit : 0 < (Nat.toDigits 10 (searchGrids steps (leadingExponent steps) 16).1).length :=
    List.length_pos_iff.2 Nat.toDigits_ne_nil
  have digits := (Nat.length_toDigits_le_iff (by decide) (Nat.succ_pos _)).2 bounded
  refine ⟨(length_dropZeros_le _).trans (digits.trans (by omega)), ?_⟩
  unfold shortestDigits
  simp only
  omega

theorem length_layout_le {ds : List Char} {power : Int} (near : power.natAbs < 10 ^ 5) :
    (layout ds power).length ≤ ds.length + 25 := by
  have size := length_toString_le (by decide) near
  unfold layout
  simp only
  split
  · rename_i plain
    rw [Bool.and_eq_true, decide_eq_true_eq, decide_eq_true_eq] at plain
    split
    · have zero : "0.".length = 2 := rfl
      have behind : (String.ofList (List.replicate (-power - 1).toNat '0' ++ ds)).length =
          (-power - 1).toNat + ds.length := by
        rw [String.length_ofList, List.length_append, List.length_replicate]
      rw [String.length_append, behind]
      omega
    · rw [String.length_ofList, List.length_append, List.length_append, List.length_replicate,
        List.length_cons, List.length_take]
      split
      · rw [List.length_singleton]
        omega
      · rw [List.length_drop]
        omega
  · have mantissa : (ds.take 1 ++ if ds.length ≤ 1 then [] else '.' :: ds.drop 1).length ≤
        ds.length + 1 := by
      rw [List.length_append, List.length_take]
      split
      · rw [List.length_nil]
        omega
      · rw [List.length_cons, List.length_drop]
        omega
    have letter : "e".length = 1 := rfl
    have signed : (if power < 0 then "-" else "+" : String).length = 1 := by split <;> rfl
    have padded : (if power.natAbs < 10 then "0" else "" : String).length ≤ 1 := by
      split <;> decide
    rw [String.length_append, String.length_append, String.length_append, String.length_append,
      String.length_ofList]
    omega

theorem length_shortest_le (x : Float) : (shortest x).length ≤ 2 * digitLimit + 27 := by
  unfold shortest
  split
  · have short : "nan".length ≤ 3 := Nat.le_refl 3
    omega
  · rename_i negative _
    have signed := length_sign_le negative
    have short : "inf".length ≤ 3 := Nat.le_refl 3
    rw [String.length_append]
    omega
  · rename_i negative steps finite
    have signed := length_sign_le negative
    split
    · have short : "0.0".length ≤ 3 := Nat.le_refl 3
      rw [String.length_append]
      omega
    · obtain ⟨few, near⟩ := shortestDigits_bounds (steps_lt finite)
      have laid := @length_layout_le (shortestDigits steps).1 _ near
      simp only
      rw [String.length_append]
      omega

end Decimal

end EvoSched
