import EvoSched.Proofs.Scalar.Nearest

set_option autoImplicit false

open Float.Model (Format UnpackedFloat totalExponent)
open Float.Model.UnpackedFloat

namespace EvoSched.Binary64

theorem nearest_round_exact (sign : Sign) {m : Nat} {e : Int} (positive : 0 < m) :
    Nearest (signed sign (m * 2 ^ e)) (UnpackedFloat.round .binary64 sign m e) := by
  unfold UnpackedFloat.round decreaseExponent
  simp only [targetExponent_eq, Nat.shiftLeft_eq]
  generalize target : max (totalExponent m e - 53) (-1074) = t
  have low : e - (e - t).toNat ≤
      max (totalExponent (m * 2 ^ (e - t).toNat) (e - (e - t).toNat) - 53) (-1074) := by
    unfold totalExponent at target ⊢
    rw [log2_mul_two_pow positive]
    omega
  have same : (m : ℚ) * 2 ^ e = (m * 2 ^ (e - t).toNat : ℕ) * 2 ^ (e - (e - t).toNat : ℤ) := by
    rw [Nat.cast_mul, Nat.cast_pow, Nat.cast_ofNat, mul_assoc, ← zpow_natCast,
      ← zpow_add₀ (by norm_num), add_sub_cancel]
  rw [same]
  exact nearest_round low (tells_exact _)

theorem nearest_normalize (m e : Int) (zeroSign : Sign) :
    Nearest (m * 2 ^ e) (UnpackedFloat.normalize .binary64 m e zeroSign) := by
  unfold UnpackedFloat.normalize
  rcases lt_trichotomy m 0 with below | rfl | above
  · have order : compare m 0 = .lt := Int.compare_eq_lt.2 below
    have size : (m : ℚ) = -((-m).toNat : ℕ) := by
      rw [← Int.cast_natCast, ← Int.cast_neg, Int.toNat_of_nonneg (by omega), neg_neg]
    have positive : 0 < (-m).toNat := by omega
    rw [order, size, neg_mul]
    exact nearest_round_exact .negative positive
  · rw [Int.cast_zero, zero_mul]
    exact (Held.zero zeroSign).nearest
  · have order : compare m 0 = .gt := Int.compare_eq_gt.2 above
    have size : (m : ℚ) = (m.toNat : ℕ) := by
      rw [← Int.cast_natCast, Int.toNat_of_nonneg above.le]
    have positive : 0 < m.toNat := by omega
    rw [order, size]
    exact nearest_round_exact .positive positive

theorem cast_apply (sign : Sign) (m : Nat) (x : ℚ) :
    (sign.apply (m : Int) : Int) * x = signed sign (m * x) := by
  cases sign with
  | negative =>
      change ((-(m : Int) : Int) : ℚ) * x = -(m * x)
      rw [Int.cast_neg, Int.cast_natCast, neg_mul]
  | positive =>
      change ((m : Int) : ℚ) * x = m * x
      rw [Int.cast_natCast]

/-- A mantissa moved to a lower exponent stands for the same. -/
theorem shiftLeft_mul {m : Nat} {e t : Int} (low : t ≤ e) :
    ((m <<< (e - t).toNat : Nat) : ℚ) * 2 ^ t = m * 2 ^ e := by
  rw [Nat.shiftLeft_eq, Nat.cast_mul, Nat.cast_pow, Nat.cast_ofNat, mul_assoc, ← zpow_natCast,
    ← zpow_add₀ (by norm_num), Int.toNat_of_nonneg (sub_nonneg.2 low), sub_add_cancel]

theorem nearest_sub {f g : UnpackedFloat} (first : Held f) (second : Held g) :
    Nearest (value f - value g) (UnpackedFloat.sub .binary64 f g) := by
  cases first with
  | zero sign =>
      cases second with
      | zero sign' =>
          rw [value_zero, value_zero, sub_zero]
          unfold UnpackedFloat.sub
          simp only
          split
          · exact (Held.zero _).nearest
          · exact (Held.zero _).nearest
      | finite positive' fits' full' =>
          rw [value_zero, zero_sub, ← value_neg]
          exact (Held.neg (.finite positive' fits' full')).nearest
  | @finite sign m e positive fits full =>
      cases second with
      | zero sign' =>
          rw [value_zero, sub_zero]
          exact (Held.finite positive fits full).nearest
      | @finite sign' n d positive' fits' full' =>
          have exact_difference : value (.finite sign m e positive) -
              value (.finite sign' n d positive') =
              ((sign.apply ((m <<< (e - min e d).toNat : Nat) : Int) -
                sign'.apply ((n <<< (d - min e d).toNat : Nat) : Int) : Int) : ℚ) *
                  2 ^ min e d := by
            rw [Int.cast_sub, sub_mul, cast_apply, cast_apply, shiftLeft_mul (min_le_left e d),
              shiftLeft_mul (min_le_right e d)]
            rfl
          rw [exact_difference]
          exact nearest_normalize _ _ _

/-- To add is to subtract the opposite. -/
theorem add_eq_sub_neg {f g : UnpackedFloat} (first : Held f) (second : Held g) :
    UnpackedFloat.add .binary64 f g = UnpackedFloat.sub .binary64 f g.neg := by
  cases first with
  | zero sign =>
      cases second with
      | zero sign' => cases sign <;> cases sign' <;> rfl
      | @finite sign' n d positive' fits' full' => cases sign' <;> rfl
  | @finite sign m e positive fits full =>
      cases second with
      | zero sign' => rfl
      | @finite sign' n d positive' fits' full' =>
          cases sign' with
          | negative => rfl
          | positive =>
              exact congrArg (UnpackedFloat.normalize .binary64 · (min e d) .positive)
                (Int.sub_neg _ _).symm

theorem nearest_add {f g : UnpackedFloat} (first : Held f) (second : Held g) :
    Nearest (value f + value g) (UnpackedFloat.add .binary64 f g) := by
  have opposite := nearest_sub first second.neg
  rwa [value_neg, sub_neg_eq_add, ← add_eq_sub_neg first second] at opposite

theorem signed_mul (s t : Sign) (x y : ℚ) : signed (s * t) (x * y) = signed s x * signed t y := by
  cases s <;> cases t
  · exact (neg_mul_neg x y).symm
  · exact (neg_mul x y).symm
  · exact (mul_neg x y).symm
  · rfl

theorem signed_div (s t : Sign) (x y : ℚ) : signed (s / t) (x / y) = signed s x / signed t y := by
  cases s <;> cases t
  · exact (neg_div_neg_eq x y).symm
  · exact (neg_div y x).symm
  · exact (div_neg x).symm
  · rfl

/-- A mantissa of 53 bits or more is not below the exponent aimed at. -/
theorem le_total_sub {m : Nat} {e : Int} (wide : 2 ^ 52 ≤ m) : e ≤ totalExponent m e - 53 := by
  have bits : 52 ≤ m.log2 := (Nat.le_log2 (by omega)).2 wide
  unfold totalExponent
  omega

theorem nearest_mul {f g : UnpackedFloat} (first : Held f) (second : Held g) :
    Nearest (value f * value g) (UnpackedFloat.mul .binary64 f g) := by
  cases first with
  | zero sign =>
      rw [value_zero, zero_mul]
      cases second <;> exact (Held.zero _).nearest
  | @finite sign m e positive fits full =>
      cases second with
      | zero sign' =>
          rw [value_zero, mul_zero]
          exact (Held.zero _).nearest
      | @finite sign' n d positive' fits' full' =>
          have product : value (.finite sign m e positive) * value (.finite sign' n d positive') =
              signed (sign * sign') ((m * n : ℕ) * 2 ^ (e + d)) := by
            rw [zpow_add₀ (by norm_num), Nat.cast_mul, mul_mul_mul_comm]
            exact (signed_mul _ _ _ _).symm
          have low : e + d ≤ max (totalExponent (m * n) (e + d) - 53) (-1074) := by
            rcases full with wide | rfl
            · exact le_max_of_le_left
                (le_total_sub (wide.trans (Nat.le_mul_of_pos_right m positive')))
            · rcases full' with wide | rfl
              · exact le_max_of_le_left
                  (le_total_sub (wide.trans (Nat.le_mul_of_pos_left n positive)))
              · exact le_max_of_le_right (by omega)
          rw [product]
          exact nearest_round low (tells_exact _)

theorem nearest_quotient {f : UnpackedFloat} (first : Held f) (sign : Sign) {n : Nat} (d : Int)
    (positive : 0 < n) :
    Nearest (value f / value (.finite sign n d positive))
      (UnpackedFloat.div .binary64 f (.finite sign n d positive)) := by
  cases first with
  | zero sign =>
      rw [value_zero, zero_div]
      exact (Held.zero _).nearest
  | @finite sign' m e positive' fits full =>
      unfold UnpackedFloat.div divCore
      simp only [targetExponent_eq]
      generalize target : min (e - d)
        (max (totalExponent m e - totalExponent n d - 53) (-1074)) = t
      have below : t ≤ e - d := by omega
      have size : (0 : ℚ) < n := by exact_mod_cast positive
      have quotient : value (.finite sign' m e positive') / value (.finite sign n d positive) =
          signed (sign' / sign) (((m <<< (e - d - t).toNat : Nat) : ℚ) / n * 2 ^ t) := by
        have apart : ((m <<< (e - d - t).toNat : Nat) : ℚ) / n * 2 ^ t =
            m * 2 ^ e / (n * 2 ^ d) := by
          rw [div_mul_eq_mul_div, shiftLeft_mul below, zpow_sub₀ (by norm_num)]
          field_simp
        rw [apart, signed_div]
        rfl
      have low : t ≤ max (totalExponent (m <<< (e - d - t).toNat / n) t - 53) (-1074) := by
        rcases le_or_gt t (-1074) with least | above
        · exact le_max_of_le_right least
        · refine le_max_of_le_left (le_total_sub ?_)
          unfold totalExponent at target
          have bits : n.log2 + 53 ≤ m.log2 + (e - d - t).toNat := by omega
          have dividend : 2 ^ (n.log2 + 53) ≤ m <<< (e - d - t).toNat := by
            rw [Nat.shiftLeft_eq]
            calc 2 ^ (n.log2 + 53) ≤ 2 ^ (m.log2 + (e - d - t).toNat) :=
                  Nat.pow_le_pow_right two_pos bits
              _ = 2 ^ m.log2 * 2 ^ (e - d - t).toNat := Nat.pow_add _ _ _
              _ ≤ m * 2 ^ (e - d - t).toNat :=
                  Nat.mul_le_mul_right _ (Nat.log2_self_le positive'.ne')
          rw [Nat.le_div_iff_mul_le positive]
          calc 2 ^ 52 * n ≤ 2 ^ 52 * 2 ^ (n.log2 + 1) :=
                Nat.mul_le_mul_left _ Nat.lt_log2_self.le
            _ = 2 ^ (n.log2 + 53) := by rw [← Nat.pow_add, Nat.add_comm 52, Nat.add_assoc]
            _ ≤ m <<< (e - d - t).toNat := dividend
      rw [quotient]
      exact nearest_round low (tells_quotient _ positive)

theorem nearest_div {f g : UnpackedFloat} (first : Held f) (second : Held g)
    (apart : value g ≠ 0) : Nearest (value f / value g) (UnpackedFloat.div .binary64 f g) := by
  cases second with
  | zero sign => exact absurd rfl apart
  | finite positive fits full => exact nearest_quotient first _ _ positive

/-- Parts that compare, the first not above the second. -/
def Below (f g : UnpackedFloat) : Prop :=
  ∃ a b, place f = some a ∧ place g = some b ∧ a ≤ b

theorem Held.below_iff {f g : UnpackedFloat} (first : Held f) (second : Held g) :
    Below f g ↔ value f ≤ value g := by
  obtain ⟨a, placeF⟩ := first.exists_place
  obtain ⟨b, placeG⟩ := second.exists_place
  rw [value_le_iff first second placeF placeG]
  constructor
  · rintro ⟨c, d, placeC, placeD, below⟩
    obtain rfl := Option.some.inj (placeF.symm.trans placeC)
    obtain rfl := Option.some.inj (placeG.symm.trans placeD)
    exact below
  · exact fun below => ⟨a, b, placeF, placeG, below⟩

theorem Held.between {f : UnpackedFloat} (held : Held f) :
    (Below (.infinity .negative) f ∧ Below f (.infinity .positive)) ∧
      ¬ Below f (.infinity .negative) ∧ ¬ Below (.infinity .positive) f := by
  have apart {a : ℤ ×ₗ ℤ ×ₗ ℤ} (found : place f = some a) :
      toLex (-2, toLex (0, 0)) < a ∧ a < toLex (2, toLex (0, 0)) := by
    cases held with
    | zero sign =>
        cases found
        decide
    | @finite sign m e positive fits full =>
        cases sign <;> cases found <;> rw [toLex_lt, toLex_lt] <;> omega
  obtain ⟨a, found⟩ := held.exists_place
  refine ⟨⟨⟨_, a, rfl, found, (apart found).1.le⟩, a, _, found, rfl, (apart found).2.le⟩, ?_, ?_⟩
  · rintro ⟨b, _, found', same, below⟩
    cases same
    exact (apart found').1.not_ge below
  · rintro ⟨_, b, same, found', below⟩
    cases same
    exact (apart found').2.not_ge below

/-- Where doubles end: the number after the largest one, at its exponent. -/
def ending : ℚ := (2 ^ 52 : ℕ) * 2 ^ (972 : ℤ)

theorem ending_pos : 0 < ending := magnitude_pos (Nat.two_pow_pos 52)

/-- A word holds all parts but those past the largest double, which it takes for infinity. -/
inductive Stores (f : UnpackedFloat) : UnpackedFloat → Prop
  | same (above : -ending < value f) (below : value f < ending) : Stores f f
  | positive (large : ending ≤ value f) : Stores f (.infinity .positive)
  | negative (large : value f ≤ -ending) : Stores f (.infinity .negative)

theorem Held.stores {f : UnpackedFloat} (held : Held f) : Stores f (stored f) := by
  have some_size := ending_pos
  cases held with
  | zero sign =>
      rw [stored_zero]
      exact .same (neg_lt_zero.2 some_size) some_size
  | @finite sign m e positive fits full =>
      have some_size' := magnitude_pos (e := e) positive
      rcases le_or_gt e 971 with small | large
      · have same : stored (.finite sign m e positive) = .finite sign m e positive := by
          by_cases wide : 2 ^ 52 ≤ m
          · exact stored_normal positive fits wide small
          · obtain rfl := full.resolve_left wide
            exact stored_subnormal positive fits (by omega) small
        have below : (m : ℚ) * 2 ^ e < ending :=
          magnitude_lt_of_exponent_lt fits.narrow (le_refl _) (by omega)
        rw [same]
        cases sign with
        | positive => exact .same ((neg_lt_zero.2 some_size).trans some_size') below
        | negative =>
            exact .same (neg_lt_neg below) ((neg_lt_zero.2 some_size').trans some_size)
      · have wide : 2 ^ 52 ≤ m := full.resolve_right (by omega)
        have above : ending ≤ m * 2 ^ e := by
          have : ((2 ^ 52 : ℕ) : ℚ) ≤ m := by exact_mod_cast wide
          unfold ending
          gcongr
          · norm_num
          · omega
        rw [stored_of_large positive large]
        cases sign with
        | positive => exact .positive above
        | negative => exact .negative (neg_le_neg above)

theorem Held.stored_below {f g : UnpackedFloat} (first : Held f) (second : Held g)
    (below : value f ≤ value g) : Below (stored f) (stored g) := by
  have size := ending_pos
  have storesF := first.stores
  have storesG := second.stores
  generalize stored f = f' at storesF ⊢
  generalize stored g = g' at storesG ⊢
  cases storesF with
  | same aboveF belowF =>
      cases storesG with
      | same aboveG belowG => exact (first.below_iff second).2 below
      | positive large => exact first.between.1.2
      | negative large => linarith
  | positive largeF =>
      cases storesG with
      | same aboveG belowG => linarith
      | positive large => exact ⟨_, _, rfl, rfl, le_refl _⟩
      | negative large => linarith
  | negative largeF =>
      cases storesG with
      | same aboveG belowG => exact second.between.1.1
      | positive large => exact ⟨_, _, rfl, rfl, by decide⟩
      | negative large => exact ⟨_, _, rfl, rfl, le_refl _⟩

end EvoSched.Binary64
