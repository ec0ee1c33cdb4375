import EvoSched.Proofs.Scalar.Monotone

set_option autoImplicit false

open Float.Model (UnpackedFloat)
open Float.Model.UnpackedFloat

namespace EvoSched.Binary64

/-- No whole number is nearer to the quotient than `units`, and none as near unless `units` is
even. -/
def Rounds (numerator denominator units : Nat) : Prop :=
  2 * |(numerator : ℤ) - units * denominator| < denominator ∨
    2 * |(numerator : ℤ) - units * denominator| = denominator ∧ units % 2 = 0

theorem rounds_roundHalfEven (numerator : Nat) {denominator : Nat} (positive : 0 < denominator) :
    Rounds numerator denominator (roundHalfEven numerator denominator) := by
  have rest := Nat.mod_lt numerator positive
  have whole : (numerator : ℤ) =
      (numerator / denominator : ℕ) * denominator + (numerator % denominator : ℕ) := by
    exact_mod_cast (Nat.div_add_mod' numerator denominator).symm
  unfold roundHalfEven
  simp only
  rw [Rounds, whole]
  generalize numerator / denominator = quotient
  generalize numerator % denominator = left_over at rest
  have below : (quotient * denominator + left_over - quotient * denominator : ℤ) = left_over := by
    ring
  have above : (quotient * denominator + left_over - (quotient + 1 : ℕ) * denominator : ℤ) =
      left_over - denominator := by
    push_cast
    ring
  split
  · rw [below, abs_of_nonneg (by omega)]
    omega
  · split
    · rw [above, abs_of_nonpos (by omega)]
      omega
    · rcases Nat.mod_two_eq_zero_or_one quotient with even | odd
      · rw [even, Nat.add_zero, below, abs_of_nonneg (by omega)]
        omega
      · rw [odd, above, abs_of_nonpos (by omega)]
        omega

namespace Rounds

variable {numerator numerator' denominator units units' : Nat}

theorem le_half (rounds : Rounds numerator denominator units) :
    2 * |(numerator : ℤ) - units * denominator| ≤ denominator := by
  rcases rounds with near | ⟨half, -⟩
  · exact near.le
  · exact half.le

/-- The next whole number is not nearer. -/
theorem not_lt (positive : 0 < denominator) (rounds : Rounds numerator denominator units)
    (rounds' : Rounds numerator denominator units') : ¬ units < units' := by
  intro less
  have apart : (units : ℤ) * denominator + denominator ≤ units' * denominator := by
    have step : (units + 1 : ℤ) ≤ units' := by omega
    have scaled := mul_le_mul_of_nonneg_right step (Int.natCast_nonneg denominator)
    linarith
  have low := rounds.le_half
  have high := rounds'.le_half
  have first := neg_abs_le ((numerator : ℤ) - units * denominator)
  have second := le_abs_self ((numerator : ℤ) - units * denominator)
  have third := neg_abs_le ((numerator : ℤ) - units' * denominator)
  -- both are half a step away, so that both are even and a step between them is two
  obtain ⟨-, even⟩ := rounds.resolve_left (by linarith)
  obtain ⟨-, even'⟩ := rounds'.resolve_left (by linarith)
  have wide : (units : ℤ) * denominator + 2 * denominator ≤ units' * denominator := by
    have step : (units + 2 : ℤ) ≤ units' := by omega
    have scaled := mul_le_mul_of_nonneg_right step (Int.natCast_nonneg denominator)
    linarith
  linarith

theorem unique (positive : 0 < denominator) (rounds : Rounds numerator denominator units)
    (rounds' : Rounds numerator denominator units') : units = units' :=
  Nat.le_antisymm (Nat.not_lt.1 (not_lt positive rounds' rounds))
    (Nat.not_lt.1 (not_lt positive rounds rounds'))

theorem of_nearer (rounds : Rounds numerator denominator units)
    (nearer : |(numerator' : ℤ) - units * denominator| ≤ |(numerator : ℤ) - units * denominator|) :
    Rounds numerator' denominator units := by
  rcases rounds with near | ⟨half, even⟩
  · exact .inl (by linarith)
  · rcases nearer.lt_or_eq with less | same
    · exact .inl (by linarith)
    · exact .inr ⟨by rw [same, half], even⟩

end Rounds

/-- What is no farther from the result is rounded to it as well. -/
theorem roundHalfEven_of_nearer {numerator numerator' denominator : Nat}
    (positive : 0 < denominator)
    (nearer : |(numerator' : ℤ) - roundHalfEven numerator denominator * denominator| ≤
      |(numerator : ℤ) - roundHalfEven numerator denominator * denominator|) :
    roundHalfEven numerator' denominator = roundHalfEven numerator denominator :=
  (rounds_roundHalfEven numerator' positive).unique positive
    ((rounds_roundHalfEven numerator positive).of_nearer nearer)

theorem roundHalfEven_le_of_le {numerator denominator bound : Nat} (positive : 0 < denominator)
    (below : numerator ≤ bound * denominator) : roundHalfEven numerator denominator ≤ bound := by
  by_contra above
  have close := (rounds_roundHalfEven numerator positive).le_half
  have apart : (bound * denominator : ℤ) + denominator ≤
      roundHalfEven numerator denominator * denominator := by
    have step : (bound + 1 : ℤ) ≤ roundHalfEven numerator denominator := by omega
    have scaled := mul_le_mul_of_nonneg_right step (Int.natCast_nonneg denominator)
    linarith
  have below' : (numerator : ℤ) ≤ bound * denominator := by exact_mod_cast below
  have positive' : (0 : ℤ) < denominator := Int.natCast_pos.2 positive
  have := neg_abs_le ((numerator : ℤ) - roundHalfEven numerator denominator * denominator)
  linarith

theorem roundHalfEven_mono {numerator numerator' denominator : Nat} (positive : 0 < denominator)
    (order : numerator ≤ numerator') :
    roundHalfEven numerator denominator ≤ roundHalfEven numerator' denominator := by
  rcases order.lt_or_eq with less | rfl
  · have low := (rounds_roundHalfEven numerator positive).le_half
    have high := (rounds_roundHalfEven numerator' positive).le_half
    have first := neg_abs_le ((numerator : ℤ) - roundHalfEven numerator denominator * denominator)
    have second := le_abs_self
      ((numerator' : ℤ) - roundHalfEven numerator' denominator * denominator)
    by_contra above
    have apart : (roundHalfEven numerator' denominator * denominator : ℤ) + denominator ≤
        roundHalfEven numerator denominator * denominator := by
      have step : (roundHalfEven numerator' denominator + 1 : ℤ) ≤
          roundHalfEven numerator denominator := by omega
      have scaled := mul_le_mul_of_nonneg_right step (Int.natCast_nonneg denominator)
      linarith
    have less' : (numerator : ℤ) < numerator' := by exact_mod_cast less
    linarith
  · exact le_refl _

theorem abs_roundHalfEven_sub_le (numerator : Nat) {denominator : Nat}
    (positive : 0 < denominator) :
    |(roundHalfEven numerator denominator : ℚ) - numerator / denominator| ≤ 1 / 2 := by
  have size : (0 : ℚ) < denominator := by exact_mod_cast positive
  have close : 2 * |(numerator : ℚ) - roundHalfEven numerator denominator * denominator| ≤
      denominator := by
    exact_mod_cast (rounds_roundHalfEven numerator positive).le_half
  have scaled : (roundHalfEven numerator denominator : ℚ) - numerator / denominator =
      -(numerator - roundHalfEven numerator denominator * denominator) / denominator := by
    field_simp
    ring
  rw [scaled, abs_div, abs_neg, abs_of_pos size, div_le_iff₀ size]
  linarith

/-- The distance between the largest doubles is `2 ^ topShift` steps. -/
@[irreducible] def topShift : Nat := 2045

theorem topShift_eq : topShift = 2045 := by
  unfold topShift
  rfl

/-- The steps of the largest double. -/
def largest : Nat := (2 ^ 53 - 1) * 2 ^ topShift

theorem largest_eq {shift : Nat} (small : shift ≤ topShift) :
    largest = (2 ^ 53 - 1) * 2 ^ (topShift - shift) * 2 ^ shift := by
  rw [largest, Nat.mul_assoc, ← Nat.pow_add, Nat.sub_add_cancel small]

theorem largest_lt : largest < 2 ^ (53 + topShift) := by
  rw [Nat.pow_add]
  exact Nat.mul_lt_mul_of_pos_right (by decide) (Nat.two_pow_pos _)

/-- A count of steps that a double has: no more bits than fit, and no more steps than the largest
double has. -/
structure IsSteps (steps : Nat) : Prop where
  spaced : 2 ^ spacing steps ∣ steps
  atMost : steps ≤ largest

theorem le_largest {x : Float} {negative : Bool} {steps : Nat}
    (finite : read x = .finite negative steps) : steps ≤ largest := by
  unfold read at finite
  simp only at finite
  split at finite
  · split at finite
    · cases finite
    · cases finite
  · rename_i room
    cases finite
    generalize x.toBits.toNat = word at room
    change ¬ word / 2 ^ 52 % 2 ^ 11 = 2047 at room
    change stepsOfFields (word / 2 ^ 52 % 2 ^ 11) (word % 2 ^ 52) ≤ largest
    have fraction : word % 2 ^ 52 < 2 ^ 52 := Nat.mod_lt _ (Nat.two_pow_pos 52)
    have field : word / 2 ^ 52 % 2 ^ 11 < 2 ^ 11 := Nat.mod_lt _ (Nat.two_pow_pos 11)
    generalize word % 2 ^ 52 = low at fraction ⊢
    generalize word / 2 ^ 52 % 2 ^ 11 = high at room field ⊢
    have top := topShift_eq
    have narrow : 2 ^ 52 + low ≤ 2 ^ 53 - 1 := by omega
    unfold stepsOfFields
    split
    · exact (by omega : low ≤ 2 ^ 53 - 1).trans (Nat.le_mul_of_pos_right _ (Nat.two_pow_pos _))
    · exact Nat.mul_le_mul narrow (Nat.pow_le_pow_right (by decide) (by omega))

theorem log2_le_of_le_largest {steps : Nat} (atMost : steps ≤ largest) :
    steps.log2 ≤ 52 + topShift := by
  have below : steps < 2 ^ (52 + topShift + 1) := by
    refine atMost.trans_lt (largest_lt.trans_eq ?_)
    rw [Nat.add_right_comm]
  exact log2_le below

/-- The mantissa of a count of steps: 53 bits at its distance, or fewer at the least one. -/
theorem IsSteps.exists_mantissa {steps : Nat} (is_steps : IsSteps steps) :
    ∃ m, steps = m * 2 ^ spacing steps ∧ m < 2 ^ 53 ∧ (2 ^ 52 ≤ m ∨ spacing steps = 0) ∧
      spacing steps ≤ topShift := by
  obtain ⟨⟨m, same⟩, atMost⟩ := is_steps
  have bits := log2_le_of_le_largest atMost
  have narrow : steps < 2 ^ (steps.log2 + 1) := Nat.lt_log2_self
  refine ⟨m, by rwa [Nat.mul_comm], ?_, ?_, by unfold spacing; omega⟩
  · by_contra wide
    have scaled := Nat.mul_le_mul_left (2 ^ spacing steps) (Nat.le_of_not_lt wide)
    rw [← same, ← Nat.pow_add] at scaled
    have room := Nat.pow_lt_pow_iff_right (by decide) |>.1 (scaled.trans_lt narrow)
    unfold spacing at room
    omega
  · rcases Nat.eq_zero_or_pos (spacing steps) with none | apart
    · exact .inr none
    · left
      have some_step : steps ≠ 0 := by
        rintro rfl
        exact absurd apart (by decide)
      have least := Nat.log2_self_le some_step
      have split_ : steps.log2 = spacing steps + 52 := by
        unfold spacing at apart ⊢
        omega
      rw [split_, Nat.pow_add] at least
      exact Nat.le_of_mul_le_mul_left (least.trans_eq same) (Nat.two_pow_pos _)

/-- The word of a mantissa and a distance: where the mantissa has all its bits, the first of them
counts into the exponent field. -/
theorem readingOf_stored {b : BitVec 64} {negative : Bool} {m shift : Nat}
    (word : b.toNat = (if negative then 2 ^ 63 else 0) + (shift * 2 ^ 52 + m))
    (narrow : m < 2 ^ 53) (full : 2 ^ 52 ≤ m ∨ shift = 0) (small : shift ≤ topShift) :
    readingOf (stored (unpack .binary64 b)) = .finite negative (m * 2 ^ shift) := by
  have top := topShift_eq
  have sign : (signOf b.toNat == .negative) = negative := by
    rw [signOf_eq_negative, word]
    cases negative with
    | false =>
        rw [if_neg Bool.false_ne_true, Nat.zero_add, Nat.div_eq_of_lt (by omega)]
        rfl
    | true =>
        have one : (2 ^ 63 + (shift * 2 ^ 52 + m)) / 2 ^ 63 = 1 := by omega
        rw [if_pos rfl, one]
        rfl
  have field : b.toNat / 2 ^ 52 % 2 ^ 11 = shift + m / 2 ^ 52 := by
    rw [word]
    split
    · omega
    · omega
  have fraction : b.toNat % 2 ^ 52 = m % 2 ^ 52 := by
    rw [word]
    split
    · omega
    · omega
  have infinite : ¬ shift + m / 2 ^ 52 = 2047 := by omega
  rw [unpack_eq]
  simp only [field, fraction, infinite, if_false]
  rcases Nat.lt_or_ge m (2 ^ 52) with short | wide
  · obtain rfl := full.resolve_left (by omega)
    have none : 0 + m / 2 ^ 52 = 0 := by omega
    simp only [none, if_true, Nat.mod_eq_of_lt short]
    split
    · rename_i zero
      rw [stored_zero, readingOf, sign, zero]
      rfl
    · rename_i positive
      rw [stored_subnormal (Nat.pos_of_ne_zero positive) ⟨narrow, le_rfl⟩ short (by decide),
        readingOf, sign]
      rfl
  · have one : m / 2 ^ 52 = 1 := by omega
    have whole : 2 ^ 52 + m % 2 ^ 52 = m := by omega
    have exponent : ((shift + 1 : ℕ) : ℤ) - 1075 = shift - 1074 := by omega
    have normal : ¬ shift + 1 = 0 := by omega
    simp only [one, normal, if_false, whole, exponent]
    rw [stored_normal (by omega) ⟨narrow, by omega⟩ wide (by omega), readingOf, sign]
    have back : ((shift : ℤ) - 1074 + 1074).toNat = shift := by omega
    rw [back]

theorem wordOfSteps_mul {m shift : Nat} (distance : spacing (m * 2 ^ shift) = shift)
    (narrow : m < 2 ^ 53) (small : shift ≤ topShift) :
    wordOfSteps (m * 2 ^ shift) = shift * 2 ^ 52 + m := by
  have top := topShift_eq
  unfold wordOfSteps
  simp only [Nat.pow_eq, distance, Nat.mul_div_cancel _ (Nat.two_pow_pos shift)]
  exact Nat.min_eq_left (by omega)

/-- Steps are stored and read back. -/
theorem read_ofSteps (negative : Bool) {steps : Nat} (is_steps : IsSteps steps) :
    read (ofSteps negative steps) = .finite negative steps := by
  obtain ⟨m, same, narrow, full, small⟩ := is_steps.exists_mantissa
  generalize distance : spacing steps = shift at same full small
  subst same
  have top := topShift_eq
  have room : (if negative then Nat.pow 2 63 else 0) + (shift * 2 ^ 52 + m) < 2 ^ 64 := by
    split
    · change 2 ^ 63 + _ < _
      omega
    · omega
  unfold ofSteps
  rw [wordOfSteps_mul distance narrow small, read_eq]
  exact readingOf_stored (UInt64.toNat_ofNat_of_lt' room) narrow full small

theorem read_infinity (negative : Bool) : read (infinity negative) = .infinite negative := by
  cases negative with
  | false => decide +kernel
  | true => decide +kernel

theorem read_nan : read (Float.ofBits 0x7FF8000000000000) = .nan := by decide +kernel

/-- What has at most 53 bits at some distance, `2 ^ 53` included, has no more at its own. -/
theorem spaced_mul {q : Nat} (narrow : q ≤ 2 ^ 53) (shift : Nat) :
    2 ^ spacing (q * 2 ^ shift) ∣ q * 2 ^ shift := by
  rcases Nat.eq_zero_or_pos q with rfl | positive
  · rw [Nat.zero_mul]
    exact Nat.dvd_zero _
  · rcases Nat.lt_or_eq_of_le narrow with below | rfl
    · have bits : q.log2 ≤ 52 := log2_le below
      refine Nat.dvd_mul_left_of_dvd (Nat.pow_dvd_pow 2 ?_) q
      unfold spacing
      rw [log2_mul_two_pow positive]
      omega
    · rw [← Nat.pow_add]
      refine Nat.pow_dvd_pow 2 ?_
      unfold spacing
      rw [Nat.log2_two_pow]
      omega

section

variable {numerator denominator : Nat} (positive : 0 < denominator)

include positive

/-- The quotient, in steps, has at most 53 bits before its point at its own distance. -/
theorem scaled_le (scaled : Nat) :
    scaled ≤ 2 ^ 53 * (denominator * 2 ^ spacing (scaled / denominator)) := by
  have bits : scaled / denominator < 2 ^ (scaled / denominator).log2.succ := Nat.lt_log2_self
  have room : (scaled / denominator).log2.succ ≤ 53 + spacing (scaled / denominator) := by
    unfold spacing
    omega
  have below := bits.trans_le (Nat.pow_le_pow_right two_pos room)
  rw [Nat.div_lt_iff_lt_mul positive, Nat.pow_add] at below
  calc scaled ≤ 2 ^ 53 * 2 ^ spacing (scaled / denominator) * denominator := below.le
    _ = 2 ^ 53 * (denominator * 2 ^ spacing (scaled / denominator)) := by
        rw [Nat.mul_assoc, Nat.mul_comm denominator]

/-- It has 53 bits there, unless that distance is the least one. -/
theorem le_scaled (scaled : Nat) :
    2 ^ 52 * (denominator * 2 ^ spacing (scaled / denominator)) ≤ scaled ∨
      spacing (scaled / denominator) = 0 := by
  rcases Nat.eq_zero_or_pos (spacing (scaled / denominator)) with none | apart
  · exact .inr none
  · left
    have some_step : scaled / denominator ≠ 0 := by
      intro zero
      rw [zero] at apart
      exact absurd apart (by decide)
    have least := Nat.log2_self_le some_step
    have split_ : (scaled / denominator).log2 = 52 + spacing (scaled / denominator) := by
      unfold spacing at apart ⊢
      omega
    rw [split_, Nat.le_div_iff_mul_le positive, Nat.pow_add] at least
    rwa [Nat.mul_comm denominator, ← Nat.mul_assoc]

theorem isSteps_nearestSteps (room : numerator * 2 ^ stepBits ≤ largest * denominator) :
    IsSteps (nearestSteps numerator denominator) := by
  unfold nearestSteps
  simp only [Nat.pow_eq]
  generalize numerator * 2 ^ stepBits = scaled at room ⊢
  have narrow := scaled_le positive scaled
  have small : spacing (scaled / denominator) ≤ topShift := by
    rw [Nat.mul_comm] at room
    have bits := log2_le_of_le_largest (Nat.div_le_of_le_mul room)
    unfold spacing
    omega
  generalize spacing (scaled / denominator) = shift at narrow small ⊢
  have unit : 0 < denominator * 2 ^ shift := Nat.mul_pos positive (Nat.two_pow_pos shift)
  constructor
  · exact spaced_mul (roundHalfEven_le_of_le unit narrow) shift
  · rw [largest_eq small] at room ⊢
    refine Nat.mul_le_mul_right _ (roundHalfEven_le_of_le unit ?_)
    rwa [Nat.mul_comm denominator, ← Nat.mul_assoc]

/-- No double is nearer to a quotient than its nearest steps. -/
theorem abs_nearestSteps_sub_le {g : UnpackedFloat} (held : Held g) :
    |(nearestSteps numerator denominator : ℚ) / 2 ^ stepBits - numerator / denominator| ≤
      |value g - numerator / denominator| := by
  have size : (0 : ℚ) < denominator := by exact_mod_cast positive
  unfold nearestSteps
  simp only [Nat.pow_eq]
  have wide := le_scaled positive (numerator * 2 ^ stepBits)
  generalize spacing (numerator * 2 ^ stepBits / denominator) = shift at wide ⊢
  have unit : 0 < denominator * 2 ^ shift := Nat.mul_pos positive (Nat.two_pow_pos shift)
  have close := abs_roundHalfEven_sub_le (numerator * 2 ^ stepBits) unit
  generalize roundHalfEven (numerator * 2 ^ stepBits) (denominator * 2 ^ shift) = q at close ⊢
  -- the quotient in units of the distance, and that distance as a power of two
  have scale : (2 : ℚ) ^ ((shift : ℤ) - 1074) = 2 ^ shift / 2 ^ stepBits := by
    have least : (1074 : ℤ) = (stepBits : ℕ) := rfl
    rw [least, zpow_sub₀ (by norm_num), zpow_natCast, zpow_natCast]
  have quotient : ((numerator * 2 ^ stepBits : ℕ) : ℚ) / (denominator * 2 ^ shift : ℕ) *
      2 ^ ((shift : ℤ) - 1074) = numerator / denominator := by
    rw [scale]
    push_cast
    field_simp
  have result : (q : ℚ) * 2 ^ ((shift : ℤ) - 1074) = (q * 2 ^ shift : ℕ) / 2 ^ stepBits := by
    rw [scale, Nat.cast_mul, Nat.cast_pow, Nat.cast_ofNat, mul_div_assoc]
  have full : (2 : ℚ) ^ 52 ≤ ((numerator * 2 ^ stepBits : ℕ) : ℚ) / (denominator * 2 ^ shift : ℕ) ∨
      (shift : ℤ) - 1074 = -1074 := by
    rcases wide with wide | rfl
    · left
      rw [le_div_iff₀ (by exact_mod_cast unit)]
      exact_mod_cast wide
    · exact .inr rfl
  have nearest := none_nearer_steps close full held
  rwa [quotient, result] at nearest

end

theorem held_of_read {x : Float} {negative : Bool} {steps : Nat}
    (finite : read x = .finite negative steps) :
    Held (parts x) ∧
      value (parts x) = (if negative then -(steps : ℤ) else steps : ℤ) / 2 ^ stepBits := by
  rw [read_eq] at finite
  have held : Held (parts x) := by
    refine held_parts ?_
    cases shape : parts x with
    | notANumber =>
        rw [shape] at finite
        cases finite
    | infinity sign =>
        rw [shape] at finite
        cases finite
    | zero sign => rfl
    | finite sign m e positive => rfl
  obtain ⟨_, _, reading, size⟩ := held.reading
  cases finite.symm.trans reading
  exact ⟨held, size⟩

/-- The double that a quotient is rounded to is nearest to it. -/
theorem nearest_parts {numerator denominator : Nat} (positive : 0 < denominator)
    (room : numerator * 2 ^ stepBits ≤ largest * denominator) :
    Nearest ((numerator : ℚ) / denominator) (parts (nearest false numerator denominator)) := by
  obtain ⟨held, size⟩ := held_of_read (read_ofSteps false (isSteps_nearestSteps positive room))
  refine ⟨held, fun g other => ?_⟩
  change value (parts (nearest false numerator denominator)) =
    ((nearestSteps numerator denominator : ℤ) : ℚ) / 2 ^ stepBits at size
  rw [size, Int.cast_natCast]
  exact abs_nearestSteps_sub_le positive other

theorem exists_held {x : Float} {negative : Bool} {steps : Nat}
    (finite : read x = .finite negative steps) :
    ∃ g, Held g ∧ value g = (steps : ℚ) / 2 ^ stepBits := by
  obtain ⟨held, size⟩ := held_of_read finite
  cases negative with
  | false => exact ⟨parts x, held, size⟩
  | true =>
      refine ⟨(parts x).neg, held.neg, ?_⟩
      rw [value_neg, size, if_pos rfl, Int.cast_neg, Int.cast_natCast, neg_div, neg_neg]

/-- The nearest steps are no farther from a quotient than those of any double. -/
theorem nearestSteps_nearer {x : Float} {negative : Bool} {steps : Nat}
    (finite : read x = .finite negative steps) (numerator : Nat) {denominator : Nat}
    (positive : 0 < denominator) :
    |(nearestSteps numerator denominator * denominator : ℤ) - numerator * 2 ^ stepBits| ≤
      |(steps * denominator : ℤ) - numerator * 2 ^ stepBits| := by
  obtain ⟨g, held, size⟩ := exists_held finite
  have nearer := @abs_nearestSteps_sub_le numerator denominator positive g held
  rw [size] at nearer
  have unit : (0 : ℚ) < denominator * 2 ^ stepBits := by
    have : (0 : ℚ) < denominator := by exact_mod_cast positive
    positivity
  have scale (k : Nat) : |(k * denominator : ℚ) - numerator * 2 ^ stepBits| =
      |(k : ℚ) / 2 ^ stepBits - numerator / denominator| * (denominator * 2 ^ stepBits) := by
    rw [← abs_of_pos unit, ← abs_mul]
    congr 1
    field_simp
  have scaled := mul_le_mul_of_nonneg_right nearer unit.le
  rw [← scale, ← scale] at scaled
  exact_mod_cast scaled

section

variable {x : Float} {negative : Bool} {steps scale : Nat}

/-- Rounded to the units of a scale and back to a double, a double rounds to the same units: the
second double is no farther from them than the first. -/
theorem roundHalfEven_nearestSteps (finite : read x = .finite negative steps)
    (positive : 0 < scale) :
    roundHalfEven (nearestSteps (roundHalfEven (steps * scale) (2 ^ stepBits)) scale * scale)
        (2 ^ stepBits) =
      roundHalfEven (steps * scale) (2 ^ stepBits) := by
  refine roundHalfEven_of_nearer (Nat.two_pow_pos stepBits) ?_
  have nearer := nearestSteps_nearer finite (roundHalfEven (steps * scale) (2 ^ stepBits)) positive
  push_cast
  exact nearer

/-- No units of a scale are beyond the largest double, which is a whole number. -/
theorem roundHalfEven_le_largest (finite : read x = .finite negative steps) :
    roundHalfEven (steps * scale) (2 ^ stepBits) * 2 ^ stepBits ≤ largest * scale := by
  have top := topShift_eq
  have whole : largest = (2 ^ 53 - 1) * 2 ^ (topShift - stepBits) * 2 ^ stepBits :=
    largest_eq (by unfold stepBits; omega)
  have below := Nat.mul_le_mul_right scale (le_largest finite)
  rw [whole, Nat.mul_right_comm] at below ⊢
  exact Nat.mul_le_mul_right _ (roundHalfEven_le_of_le (Nat.two_pow_pos stepBits) below)

end

end EvoSched.Binary64
