import EvoSched.Proofs.Scalar.Place

/-!
Rounding to nearest. Parts stand for rational numbers, in the order in which doubles compare, and
what an operation rounds to is as near to the exact result as any parts are. So rounding keeps
order, up to infinity.
-/

set_option autoImplicit false

open Float.Model (Format UnpackedFloat totalExponent)
open Float.Model.UnpackedFloat

namespace EvoSched.Binary64

def signed : Sign → ℚ → ℚ
  | .negative, x => -x
  | .positive, x => x

/-- The number that parts stand for, where they stand for one. -/
def value : UnpackedFloat → ℚ
  | .finite sign m e _ => signed sign (m * 2 ^ e)
  | _ => 0

@[simp]
theorem value_zero (sign : Sign) : value (.zero sign) = 0 := rfl

/-- Parts as a word holds them, large exponents aside: zero, a mantissa of 53 bits, or a shorter one
at the least exponent. -/
inductive Held : UnpackedFloat → Prop
  | zero (sign : Sign) : Held (.zero sign)
  | finite {sign : Sign} {m : Nat} {e : Int} (positive : 0 < m) (fits : Fits m e)
      (full : 2 ^ 52 ≤ m ∨ e = -1074) : Held (.finite sign m e positive)

theorem held_parts {x : Float} (finite : (parts x).isFinite = true) : Held (parts x) := by
  change (unpack .binary64 x.toBits.toBitVec).isFinite = true at finite
  change Held (unpack .binary64 x.toBits.toBitVec)
  have narrow := Nat.mod_lt x.toBits.toBitVec.toNat (y := 2 ^ 52) (by decide)
  rw [unpack_eq] at finite ⊢
  split
  · rename_i full
    rw [if_pos full] at finite
    split at finite <;> cases finite
  · split
    · split
      · exact .zero _
      · exact .finite _ ⟨by omega, le_refl _⟩ (.inr rfl)
    · exact .finite _ ⟨by omega, by omega⟩ (.inl (by omega))

theorem Held.neg {f : UnpackedFloat} (held : Held f) : Held f.neg := by
  cases held with
  | zero sign => exact .zero _
  | finite positive fits full => exact .finite positive fits full

theorem signed_neg (sign : Sign) (x : ℚ) : signed (-sign) x = -signed sign x := by
  cases sign with
  | negative => exact (neg_neg x).symm
  | positive => rfl

theorem value_neg (f : UnpackedFloat) : value f.neg = -value f := by
  cases f with
  | finite sign m e positive => exact signed_neg sign _
  | infinity sign => exact neg_zero.symm
  | notANumber => exact neg_zero.symm
  | zero sign => exact neg_zero.symm

theorem magnitude_pos {m : Nat} {e : Int} (positive : 0 < m) : (0 : ℚ) < m * 2 ^ e := by
  positivity

/-- A larger exponent of a full mantissa makes a larger number. -/
theorem magnitude_lt_of_exponent_lt {m n : Nat} {e d : Int} (narrow : m < 2 ^ 53)
    (full : 2 ^ 52 ≤ n) (below : e < d) : (m : ℚ) * 2 ^ e < n * 2 ^ d := by
  calc (m : ℚ) * 2 ^ e < 2 ^ 53 * 2 ^ e := by
        have : (m : ℚ) < 2 ^ 53 := by exact_mod_cast narrow
        gcongr
    _ = 2 ^ 52 * 2 ^ (e + 1) := by
        rw [zpow_add₀ (by norm_num), zpow_one]
        ring
    _ ≤ n * 2 ^ d := by
        have : (2 : ℚ) ^ 52 ≤ n := by exact_mod_cast full
        gcongr
        · norm_num
        · omega

theorem magnitude_lt_of_mantissa_lt {m n : Nat} (e : Int) (below : m < n) :
    (m : ℚ) * 2 ^ e < n * 2 ^ e := by
  have : (m : ℚ) < n := by exact_mod_cast below
  gcongr

/-- Of two held mantissas of one sign, the one earlier by exponent, then by mantissa, is smaller. -/
theorem magnitude_lt {m n : Nat} {e d : Int} (first : Fits m e) (second : Fits n d)
    (full : 2 ^ 52 ≤ n ∨ d = -1074) (below : e < d ∨ e = d ∧ m < n) :
    (m : ℚ) * 2 ^ e < n * 2 ^ d := by
  rcases below with below | ⟨rfl, below⟩
  · have := first.above
    exact magnitude_lt_of_exponent_lt first.narrow (by omega) below
  · exact magnitude_lt_of_mantissa_lt e below

theorem toLex_lt (a b c d e f : Int) :
    toLex (a, toLex (b, c)) < toLex (d, toLex (e, f)) ↔
      a < d ∨ a = d ∧ (b < e ∨ b = e ∧ c < f) := by
  rw [Prod.Lex.toLex_lt_toLex, Prod.Lex.toLex_lt_toLex]

theorem Held.exists_place {f : UnpackedFloat} (held : Held f) : ∃ a, place f = some a := by
  cases held with
  | zero sign => exact ⟨_, rfl⟩
  | @finite sign m e positive fits full => cases sign <;> exact ⟨_, rfl⟩

theorem value_lt_of_place_lt {f g : UnpackedFloat} {a b : ℤ ×ₗ ℤ ×ₗ ℤ} (first : Held f)
    (second : Held g) (placeF : place f = some a) (placeG : place g = some b) (below : a < b) :
    value f < value g := by
  cases first with
  | zero sign =>
      cases placeF
      cases second with
      | zero sign' =>
          cases placeG
          exact absurd below (lt_irrefl _)
      | @finite sign' n d positive' fits' full' =>
          cases sign' <;> cases placeG <;> rw [toLex_lt] at below
          · omega
          · exact magnitude_pos positive'
  | @finite sign m e positive fits full =>
      have some_size := magnitude_pos (e := e) positive
      cases second with
      | zero sign' =>
          cases placeG
          cases sign <;> cases placeF <;> rw [toLex_lt] at below
          · exact neg_lt_zero.2 some_size
          · omega
      | @finite sign' n d positive' fits' full' =>
          have some_size' := magnitude_pos (e := d) positive'
          cases sign <;> cases placeF <;> cases sign' <;> cases placeG <;> rw [toLex_lt] at below
          · exact neg_lt_neg (magnitude_lt fits' fits full (by omega))
          · exact (neg_lt_zero.2 some_size).trans some_size'
          · omega
          · exact magnitude_lt fits fits' full' (by omega)

/-- Parts of one place are the same, the sign of a zero aside. -/
theorem eq_or_zero_of_place_eq {f g : UnpackedFloat} (same : place f = place g) :
    f = g ∨ ∃ s t, f = .zero s ∧ g = .zero t := by
  rcases f with ⟨_ | _⟩ | _ | signF | ⟨_ | _, m, e, positive⟩ <;>
    rcases g with ⟨_ | _⟩ | _ | signG | ⟨_ | _, n, d, positive'⟩ <;>
    simp only [place, Option.some.injEq, toLex_inj, Prod.mk.injEq, reduceCtorEq] at same <;>
    first
    | exact .inl rfl
    | exact .inr ⟨_, _, rfl, rfl⟩
    | exact absurd same.1 (by decide)
    | skip
  all_goals
    obtain ⟨-, exponent, mantissa⟩ := same
    obtain rfl : e = d := by omega
    obtain rfl : m = n := by omega
    exact .inl rfl

theorem value_eq_of_place_eq {f g : UnpackedFloat} (same : place f = place g) :
    value f = value g := by
  rcases eq_or_zero_of_place_eq same with rfl | ⟨s, t, rfl, rfl⟩
  · rfl
  · rfl

theorem value_le_iff {f g : UnpackedFloat} {a b : ℤ ×ₗ ℤ ×ₗ ℤ} (first : Held f)
    (second : Held g) (placeF : place f = some a) (placeG : place g = some b) :
    value f ≤ value g ↔ a ≤ b := by
  rcases lt_trichotomy a b with below | rfl | above
  · exact iff_of_true (value_lt_of_place_lt first second placeF placeG below).le below.le
  · exact iff_of_true (value_eq_of_place_eq (placeF.trans placeG.symm)).le (le_refl a)
  · exact iff_of_false (value_lt_of_place_lt second first placeG placeF above).not_ge above.not_ge

/-- A mantissa, its round bit and its sticky bit say where a number lies: on the mantissa or halfway
to the next one, or between these. -/
def Tells (em : ExtendedMantissa) (x : ℚ) : Prop :=
  match em.roundBit, em.stickyBit with
  | false, false => x = em.mantissa
  | false, true => em.mantissa < x ∧ x < em.mantissa + 1 / 2
  | true, false => x = em.mantissa + 1 / 2
  | true, true => em.mantissa + 1 / 2 < x ∧ x < em.mantissa + 1

theorem Tells.shiftRightOne {em : ExtendedMantissa} {x : ℚ} (tells : Tells em x) :
    Tells em.shiftRightOne (x / 2) := by
  obtain ⟨m, roundBit, stickyBit⟩ := em
  have whole : (m : ℚ) = 2 * (m / 2 : Nat) + (m % 2 : Nat) := by
    exact_mod_cast (Nat.div_add_mod m 2).symm
  unfold Tells ExtendedMantissa.shiftRightOne
  rcases Nat.mod_two_eq_zero_or_one m with parity | parity <;>
    rw [parity] at whole <;>
    cases roundBit <;> cases stickyBit <;> simp only [Tells] at tells <;>
    simp only [parity] <;> push_cast at whole <;> simp <;> grind

theorem Tells.shiftRight {em : ExtendedMantissa} {x : ℚ} (tells : Tells em x) (count : Nat) :
    Tells (em >>> count) (x / 2 ^ count) := by
  induction count with
  | zero =>
      rw [pow_zero, div_one]
      exact tells
  | succ count ih =>
      rw [pow_succ, ← div_div]
      exact ih.shiftRightOne

theorem Tells.mantissa_le {em : ExtendedMantissa} {x : ℚ} (tells : Tells em x) :
    em.mantissa ≤ x := by
  obtain ⟨m, _ | _, _ | _⟩ := em <;> simp only [Tells] at tells ⊢ <;> linarith

/-- Rounding goes half a step at most. -/
theorem Tells.roundedMantissa {em : ExtendedMantissa} {x : ℚ} (tells : Tells em x) :
    |(em.roundedMantissa : ℚ) - x| ≤ 1 / 2 := by
  obtain ⟨m, _ | _, _ | _⟩ := em <;> simp only [Tells] at tells <;> rw [abs_le]
  · change _ ≤ (m : ℚ) - x ∧ (m : ℚ) - x ≤ _
    constructor <;> linarith
  · change _ ≤ (m : ℚ) - x ∧ (m : ℚ) - x ≤ _
    constructor <;> linarith
  · change _ ≤ ((m + m % 2 : Nat) : ℚ) - x ∧ ((m + m % 2 : Nat) : ℚ) - x ≤ _
    have odd : ((m % 2 : Nat) : ℚ) ≤ 1 := by
      exact_mod_cast Nat.le_of_lt_succ (Nat.mod_lt m two_pos)
    have even : (0 : ℚ) ≤ (m % 2 : Nat) := Nat.cast_nonneg _
    rw [Nat.cast_add]
    constructor <;> linarith
  · change _ ≤ ((m + 1 : Nat) : ℚ) - x ∧ ((m + 1 : Nat) : ℚ) - x ≤ _
    rw [Nat.cast_add, Nat.cast_one]
    constructor <;> linarith

theorem tells_exact (m : Nat) : Tells (.ofMantissaAndAccuracy m .exact) m := rfl

/-- What is left of a division tells where the quotient lies. -/
theorem tells_quotient (numerator : Nat) {denominator : Nat} (positive : 0 < denominator) :
    Tells (.ofMantissaAndAccuracy (numerator / denominator)
      (accuracyOfFraction (numerator % denominator) denominator))
      ((numerator : ℚ) / denominator) := by
  have size : (0 : ℚ) < denominator := by exact_mod_cast positive
  have whole : (numerator : ℚ) / denominator =
      (numerator / denominator : Nat) + (numerator % denominator : Nat) / denominator := by
    rw [div_eq_iff size.ne', add_mul, div_mul_cancel₀ _ size.ne']
    exact_mod_cast (Nat.div_add_mod' numerator denominator).symm
  have rest : ((numerator % denominator : Nat) : ℚ) / denominator < 1 := by
    rw [div_lt_one size]
    exact_mod_cast Nat.mod_lt numerator positive
  rw [whole]
  unfold accuracyOfFraction
  split
  · rename_i none
    rw [none, Nat.cast_zero, zero_div, add_zero]
    exact tells_exact _
  · rename_i left_over
    have some_part : (0 : ℚ) < (numerator % denominator : Nat) / denominator := by
      have : (0 : ℚ) < (numerator % denominator : Nat) := by
        exact_mod_cast Nat.pos_of_ne_zero left_over
      positivity
    cases order : compare (2 * (numerator % denominator)) denominator with
    | lt =>
        have half : ((numerator % denominator : Nat) : ℚ) / denominator < 1 / 2 := by
          rw [div_lt_iff₀ size]
          have : (2 : ℚ) * (numerator % denominator : Nat) < denominator := by
            exact_mod_cast Nat.compare_eq_lt.1 order
          linarith
        simp only [Tells, ExtendedMantissa.ofMantissaAndAccuracy]
        constructor <;> linarith
    | eq =>
        have half : ((numerator % denominator : Nat) : ℚ) / denominator = 1 / 2 := by
          rw [div_eq_iff size.ne']
          have : (2 : ℚ) * (numerator % denominator : Nat) = denominator := by
            exact_mod_cast Nat.compare_eq_eq.1 order
          linarith
        simp only [Tells, ExtendedMantissa.ofMantissaAndAccuracy, half]
    | gt =>
        have half : 1 / 2 < ((numerator % denominator : Nat) : ℚ) / denominator := by
          rw [lt_div_iff₀ size]
          have : (denominator : ℚ) < 2 * (numerator % denominator : Nat) := by
            exact_mod_cast Nat.compare_eq_gt.1 order
          linarith
        simp only [Tells, ExtendedMantissa.ofMantissaAndAccuracy]
        constructor <;> linarith

/-- Held parts, and none nearer to a number. -/
structure Nearest (x : ℚ) (f : UnpackedFloat) : Prop where
  held : Held f
  none_nearer (g : UnpackedFloat) : Held g → |value f - x| ≤ |value g - x|

theorem Held.nearest {f : UnpackedFloat} (held : Held f) : Nearest (value f) f where
  held := held
  none_nearer g _ := by
    rw [sub_self, abs_zero]
    exact abs_nonneg _

theorem Nearest.neg {x : ℚ} {f : UnpackedFloat} (nearest : Nearest x f) : Nearest (-x) f.neg where
  held := nearest.held.neg
  none_nearer g held := by
    have mirrored := nearest.none_nearer g.neg held.neg
    rw [value_neg] at mirrored ⊢
    rwa [← neg_add', abs_neg, ← sub_neg_eq_add, ← abs_neg (value g - -x), neg_sub', neg_neg]

/-- Of what is nearest to each of two numbers, the first is no larger if the first number is
smaller: else both would be nearer with the two exchanged. -/
theorem Nearest.le_of_lt {x y : ℚ} {f g : UnpackedFloat} (first : Nearest x f)
    (second : Nearest y g) (below : x < y) : value f ≤ value g := by
  by_contra above
  have left := first.none_nearer g second.held
  have right := second.none_nearer f first.held
  have midpoint : x * 2 ≥ value f + value g := by
    cases abs_cases (value f - x) <;> cases abs_cases (value g - x) <;> linarith
  have midpoint' : y * 2 ≤ value f + value g := by
    cases abs_cases (value f - y) <;> cases abs_cases (value g - y) <;> linarith
  linarith

/-- What is held bounds what is nearest. -/
theorem Nearest.le_of_held {x : ℚ} {f g : UnpackedFloat} (nearest : Nearest x f) (held : Held g)
    (below : x ≤ value g) : value f ≤ value g := by
  have closer := nearest.none_nearer g held
  rw [abs_of_nonneg (sub_nonneg.2 below)] at closer
  have := le_abs_self (value f - x)
  linarith

theorem Nearest.nonneg {x : ℚ} {f : UnpackedFloat} (nearest : Nearest x f) (nonneg : 0 ≤ x) :
    0 ≤ value f := by
  have closer := nearest.none_nearer _ (.zero .positive)
  have size : |value (.zero .positive) - x| = x := by
    change |0 - x| = x
    rw [zero_sub, abs_neg, abs_of_nonneg nonneg]
  rw [size] at closer
  have := neg_abs_le (value f - x)
  linarith

/-- Of whole numbers, none is nearer than one that is half a step away at most. -/
theorem none_nearer_whole {q : ℤ} {y : ℚ} (close : |q - y| ≤ 1 / 2) (k : ℤ) :
    |q - y| ≤ |k - y| := by
  rcases eq_or_ne k q with rfl | apart
  · exact le_refl _
  · have one_step : (1 : ℚ) ≤ |(k : ℚ) - q| := by
      exact_mod_cast Int.one_le_abs (sub_ne_zero.2 apart)
    have := abs_sub_le (k : ℚ) y q
    rw [abs_sub_comm y q] at this
    linarith

/-- Rounding up can reach `2 ^ 53`; the shift after it takes that back, and nothing is lost. -/
theorem shift_rounded {q : Nat} {t : Int} (narrow : q ≤ 2 ^ 53) (above : -1074 ≤ t)
    (full : 2 ^ 52 ≤ q ∨ t = -1074) :
    ((shiftToTargetExponent .binary64 q t .exact).1.mantissa : ℚ) *
          2 ^ (shiftToTargetExponent .binary64 q t .exact).2 = q * 2 ^ t ∧
      (2 ^ 52 ≤ (shiftToTargetExponent .binary64 q t .exact).1.mantissa ∨
        (shiftToTargetExponent .binary64 q t .exact).2 = -1074) := by
  obtain ⟨shifted, moved⟩ := shiftToTargetExponent_eq q t .exact
  rw [shifted, moved]
  unfold totalExponent
  rcases Nat.lt_or_eq_of_le narrow with below | rfl
  · have bits : q.log2 ≤ 52 := log2_le below
    have stays : max ((q.log2 : Int) + 1 + t - 53) (-1074) ≤ t := by omega
    rw [max_eq_right stays, Int.toNat_of_nonpos (sub_nonpos.2 stays), pow_zero, Nat.div_one]
    exact ⟨rfl, full⟩
  · have bits : (2 ^ 53).log2 = 53 := Nat.log2_two_pow
    have next : max (((2 ^ 53).log2 : Int) + 1 + t - 53) (-1074) = t + 1 := by omega
    have one : (t + 1 - t).toNat = 1 := by omega
    rw [next, one, max_eq_left (by omega)]
    refine ⟨?_, .inl (by norm_num)⟩
    rw [zpow_add₀ (by norm_num), zpow_one]
    norm_num
    ring

/-- What is held at a lower exponent than a mantissa of 53 bits is smaller than that; all else is a
whole number of its steps. -/
theorem Held.steps {g : UnpackedFloat} (held : Held g) (t : Int) :
    (∃ k : ℤ, value g = k * 2 ^ t) ∨ -1074 < t ∧ value g < 2 ^ 52 * 2 ^ t := by
  cases held with
  | zero sign =>
      refine .inl ⟨0, ?_⟩
      rw [Int.cast_zero, zero_mul]
      rfl
  | @finite sign n d positive fits full =>
      rcases le_or_gt t d with above | below
      · have whole : (n : ℚ) * 2 ^ d = (n * 2 ^ (d - t).toNat : ℕ) * 2 ^ t := by
          rw [Nat.cast_mul, Nat.cast_pow, Nat.cast_ofNat, mul_assoc, ← zpow_natCast,
            ← zpow_add₀ (by norm_num), Int.toNat_of_nonneg (sub_nonneg.2 above), sub_add_cancel]
        cases sign with
        | positive => exact .inl ⟨_, whole⟩
        | negative =>
            refine .inl ⟨-(n * 2 ^ (d - t).toNat : ℕ), ?_⟩
            rw [Int.cast_neg, neg_mul]
            exact congrArg Neg.neg whole
      · have small : (n : ℚ) * 2 ^ d < (2 ^ 52 : ℕ) * 2 ^ t :=
          magnitude_lt_of_exponent_lt fits.narrow (le_refl _) below
        rw [Nat.cast_pow, Nat.cast_ofNat] at small
        refine .inr ⟨fits.above.trans_lt below, ?_⟩
        cases sign with
        | positive => exact small
        | negative => exact (neg_lt_zero.2 (magnitude_pos positive)).trans (by positivity)

/-- Nothing held is nearer than a count of steps that is half a step away at most. -/
theorem none_nearer_steps {q : Nat} {t : Int} {y : ℚ} (close : |(q : ℚ) - y| ≤ 1 / 2)
    (full : 2 ^ 52 ≤ y ∨ t = -1074) {g : UnpackedFloat} (held : Held g) :
    |(q * 2 ^ t : ℚ) - y * 2 ^ t| ≤ |value g - y * 2 ^ t| := by
  have unit : (0 : ℚ) < 2 ^ t := by positivity
  have scale (a : ℚ) : |a * 2 ^ t - y * 2 ^ t| = |a - y| * 2 ^ t := by
    rw [← sub_mul, abs_mul, abs_of_pos unit]
  rw [scale]
  rcases held.steps t with ⟨k, whole⟩ | ⟨above, small⟩
  · rw [whole, scale]
    exact mul_le_mul_of_nonneg_right (none_nearer_whole (q := q) close k) unit.le
  · have wide : (2 ^ 52 : ℚ) ≤ y := full.resolve_right above.ne'
    have bound : |(q : ℚ) - y| ≤ y - 2 ^ 52 := by
      have closer : |(q : ℚ) - y| ≤ |((2 ^ 52 : ℤ) : ℚ) - y| :=
        none_nearer_whole (q := q) close (2 ^ 52)
      have order : (((2 ^ 52 : ℤ) : ℚ) - y) ≤ 0 := by
        push_cast
        linarith
      rw [abs_of_nonpos order, neg_sub] at closer
      push_cast at closer
      exact closer
    calc |(q : ℚ) - y| * 2 ^ t ≤ (y - 2 ^ 52) * 2 ^ t :=
          mul_le_mul_of_nonneg_right bound unit.le
      _ ≤ -(value g - y * 2 ^ t) := by linarith
      _ ≤ |value g - y * 2 ^ t| := neg_le_abs _

/-- A shift above the least exponent keeps 53 bits. -/
theorem shift_full {m : Nat} {e : Int} (accuracy : Accuracy)
    (low : e ≤ max (totalExponent m e - 53) (-1074)) :
    2 ^ 52 ≤ (shiftToTargetExponent .binary64 m e accuracy).1.mantissa ∨
      max (totalExponent m e - 53) (-1074) = -1074 := by
  rw [(shiftToTargetExponent_eq m e accuracy).1]
  unfold totalExponent at low ⊢
  rcases le_or_gt ((m.log2 : Int) + 1 + e - 53) (-1074) with below | above
  · exact .inr (max_eq_right below)
  · left
    rw [max_eq_left above.le] at low ⊢
    have some_bit : m ≠ 0 := by
      rintro rfl
      have : Nat.log2 0 = 0 := rfl
      omega
    have least : 2 ^ m.log2 ≤ m := Nat.log2_self_le some_bit
    have count : ((m.log2 : Int) + 1 + e - 53 - e).toNat = m.log2 - 52 := by omega
    rw [count, Nat.le_div_iff_mul_le (Nat.two_pow_pos _), ← Nat.pow_add]
    exact (Nat.pow_le_pow_right two_pos (by omega)).trans least

theorem nearest_rounded {q : Nat} {t : Int} {y : ℚ} (close : |(q : ℚ) - y| ≤ 1 / 2)
    (wide : 2 ^ 52 ≤ y ∨ t = -1074) (narrow : q ≤ 2 ^ 53) (above : -1074 ≤ t)
    (full : 2 ^ 52 ≤ q ∨ t = -1074) :
    Nearest (y * 2 ^ t)
      (if h : (shiftToTargetExponent .binary64 q t .exact).1.mantissa = 0 then .zero .positive
      else .finite .positive (shiftToTargetExponent .binary64 q t .exact).1.mantissa
        (shiftToTargetExponent .binary64 q t .exact).2 (Nat.pos_of_ne_zero h)) := by
  obtain ⟨kept, full'⟩ := shift_rounded narrow above full
  have fits := fits_shift q t .exact
  have closest (g : UnpackedFloat) (held : Held g) := none_nearer_steps close wide held
  rw [← kept] at closest
  split
  · rename_i none
    rw [none, Nat.cast_zero, zero_mul] at closest
    exact ⟨.zero _, closest⟩
  · exact ⟨.finite _ fits full', closest⟩

theorem nearest_round_positive {m : Nat} {e : Int} {accuracy : Accuracy} {x : ℚ}
    (low : e ≤ max (totalExponent m e - 53) (-1074))
    (tells : Tells (.ofMantissaAndAccuracy m accuracy) x) :
    Nearest (x * 2 ^ e) (roundWithAccuracy .binary64 .positive m e accuracy) := by
  have told : Tells (shiftToTargetExponent .binary64 m e accuracy).1
      (x / 2 ^ (max (totalExponent m e - 53) (-1074) - e).toNat) := tells.shiftRight _
  have same : x * 2 ^ e = x / 2 ^ (max (totalExponent m e - 53) (-1074) - e).toNat *
      2 ^ max (totalExponent m e - 53) (-1074) := by
    rw [div_mul_eq_mul_div, eq_div_iff (by positivity), mul_assoc, ← zpow_natCast,
      ← zpow_add₀ (by norm_num), Int.toNat_of_nonneg (sub_nonneg.2 low), add_sub_cancel]
  have moved := (shiftToTargetExponent_eq m e accuracy).2
  rw [max_eq_left low] at moved
  have above : -1074 ≤ (shiftToTargetExponent .binary64 m e accuracy).2 := by omega
  have narrow := (fits_shift m e accuracy).narrow
  have full := shift_full accuracy low
  have bounds := roundedMantissa_bounds (shiftToTargetExponent .binary64 m e accuracy).1
  rw [← moved] at told same full
  have wide : (2 : ℚ) ^ 52 ≤ (shiftToTargetExponent .binary64 m e accuracy).1.mantissa ∨
      (shiftToTargetExponent .binary64 m e accuracy).2 = -1074 :=
    full.imp_left fun wide => by exact_mod_cast wide
  have rounded := nearest_rounded told.roundedMantissa
    (wide.imp_left fun wide => wide.trans told.mantissa_le) (by omega) above (by omega)
  rw [same]
  exact rounded

theorem roundWithAccuracy_neg (m : Nat) (e : Int) (accuracy : Accuracy) :
    roundWithAccuracy .binary64 .negative m e accuracy =
      (roundWithAccuracy .binary64 .positive m e accuracy).neg := by
  unfold roundWithAccuracy
  simp only
  split <;> rfl

/-- Rounding gives what is nearest, where the exponent is not above what is aimed at. -/
theorem nearest_round {sign : Sign} {m : Nat} {e : Int} {accuracy : Accuracy} {x : ℚ}
    (low : e ≤ max (totalExponent m e - 53) (-1074))
    (tells : Tells (.ofMantissaAndAccuracy m accuracy) x) :
    Nearest (signed sign (x * 2 ^ e)) (roundWithAccuracy .binary64 sign m e accuracy) := by
  cases sign with
  | positive => exact nearest_round_positive low tells
  | negative =>
      rw [roundWithAccuracy_neg]
      exact (nearest_round_positive low tells).neg

end EvoSched.Binary64
