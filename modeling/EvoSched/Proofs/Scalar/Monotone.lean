import EvoSched.Proofs.Scalar.Arithmetic

set_option autoImplicit false

open Float.Model (UnpackedFloat)
open Float.Model.UnpackedFloat

namespace EvoSched

namespace Binary64

theorem le_iff_below (x y : Float) : x ≤ y ↔ Below (parts x) (parts y) := le_iff_place x y

theorem parts_sub (x y : Float) :
    parts (x - y) = stored (UnpackedFloat.sub .binary64 (parts x) (parts y)) := rfl

/-- Parts with a place are held or infinite. -/
theorem held_or_infinity {x : Float} {a : ℤ ×ₗ ℤ ×ₗ ℤ} (found : place (parts x) = some a) :
    Held (parts x) ∨ ∃ sign, parts x = .infinity sign := by
  cases shape : parts x with
  | notANumber =>
      rw [shape] at found
      cases found
  | infinity sign => exact .inr ⟨sign, rfl⟩
  | zero sign => exact .inl (.zero sign)
  | finite sign m e positive =>
      left
      rw [← shape]
      refine held_parts ?_
      rw [shape]
      rfl

theorem sub_infinity (sign : Sign) {f : UnpackedFloat} (held : Held f) :
    UnpackedFloat.sub .binary64 (.infinity sign) f = .infinity sign := by
  cases held <;> rfl

theorem value_sub_zero (s t : Sign) (f : UnpackedFloat) :
    value (UnpackedFloat.sub .binary64 (.zero s) f) =
      value (UnpackedFloat.sub .binary64 (.zero t) f) := by
  cases f with
  | zero sign => cases s <;> cases t <;> cases sign <;> rfl
  | _ => rfl

/-- An operation that is nearest to a rising function keeps order: of equal arguments only the sign
of a zero can differ, and that may not matter. -/
theorem value_mono (op : UnpackedFloat → UnpackedFloat) {result : ℚ → ℚ}
    (nearest : ∀ f, Held f → Nearest (result (value f)) (op f)) (rises : StrictMono result)
    (zeros : ∀ s t, value (op (.zero s)) = value (op (.zero t))) {f g : UnpackedFloat}
    (first : Held f) (second : Held g) (below : value f ≤ value g) :
    value (op f) ≤ value (op g) := by
  rcases lt_or_eq_of_le below with less | same
  · exact (nearest f first).le_of_lt (nearest g second) (rises less)
  · obtain ⟨a, placeF⟩ := first.exists_place
    obtain ⟨b, placeG⟩ := second.exists_place
    have order := (value_le_iff first second placeF placeG).1 same.le
    have order' := (value_le_iff second first placeG placeF).1 same.ge
    obtain rfl := le_antisymm order order'
    rcases eq_or_zero_of_place_eq (placeF.trans placeG.symm) with rfl | ⟨s, t, rfl, rfl⟩
    · exact le_refl _
    · exact (zeros s t).le

theorem value_sub_mono {f g h : UnpackedFloat} (first : Held f) (second : Held g) (third : Held h)
    (below : value f ≤ value g) :
    value (UnpackedFloat.sub .binary64 f h) ≤ value (UnpackedFloat.sub .binary64 g h) := by
  have rises : StrictMono fun x : ℚ => x - value h := fun _ _ less => sub_lt_sub_right less _
  exact value_mono (UnpackedFloat.sub .binary64 · h) (fun _ held => nearest_sub held third) rises
    (fun s t => value_sub_zero s t h) first second below

/-- What a held result is stored as lies between the infinities. -/
theorem Held.stored_between {f : UnpackedFloat} (held : Held f) :
    Below (.infinity .negative) (stored f) ∧ Below (stored f) (.infinity .positive) := by
  have stores := held.stores
  generalize stored f = f' at stores ⊢
  cases stores with
  | same above below => exact held.between.1
  | positive large => exact ⟨⟨_, _, rfl, rfl, by decide⟩, _, _, rfl, rfl, le_refl _⟩
  | negative large => exact ⟨⟨_, _, rfl, rfl, le_refl _⟩, _, _, rfl, rfl, by decide⟩

theorem sub_mono {x y z : Float} (finite : Scalar.isFinite z = true) (order : x ≤ y) :
    x - z ≤ y - z := by
  have held : Held (parts z) := held_parts finite
  rw [le_iff_below] at order ⊢
  rw [parts_sub, parts_sub]
  obtain ⟨a, b, placeX, placeY, -⟩ := id order
  rcases held_or_infinity placeX with heldX | ⟨signX, shapeX⟩
  · have differenceX := (nearest_sub heldX held).held
    rcases held_or_infinity placeY with heldY | ⟨signY, shapeY⟩
    · have differenceY := (nearest_sub heldY held).held
      exact differenceX.stored_below differenceY
        (value_sub_mono heldX heldY held ((heldX.below_iff heldY).1 order))
    · rw [shapeY] at order
      rw [shapeY, sub_infinity signY held, stored_infinity]
      cases signY with
      | positive => exact differenceX.stored_between.2
      | negative => exact absurd order heldX.between.2.1
  · rw [shapeX] at order
    rw [shapeX, sub_infinity signX held, stored_infinity]
    rcases held_or_infinity placeY with heldY | ⟨signY, shapeY⟩
    · have differenceY := (nearest_sub heldY held).held
      cases signX with
      | positive => exact absurd order heldY.between.2.2
      | negative => exact differenceY.stored_between.1
    · rw [shapeY] at order
      rw [shapeY, sub_infinity signY held, stored_infinity]
      exact order

/-- The steps of held parts count what they stand for. -/
theorem Held.reading {f : UnpackedFloat} (held : Held f) :
    ∃ negative steps, readingOf f = .finite negative steps ∧
      value f = (if negative then -(steps : ℤ) else steps : ℤ) / 2 ^ stepBits := by
  cases held with
  | zero sign =>
      refine ⟨_, 0, rfl, ?_⟩
      rw [Nat.cast_zero, neg_zero, ite_self, Int.cast_zero, zero_div]
      rfl
  | @finite sign m e positive fits full =>
      have whole : (m : ℚ) * 2 ^ e = (m * 2 ^ (e + 1074).toNat : ℕ) / 2 ^ stepBits := by
        have together : e = (e + 1074).toNat - (stepBits : ℕ) := by
          have := fits.above
          change e = (e + 1074).toNat - 1074
          omega
        rw [together, zpow_sub₀ (by norm_num), zpow_natCast, zpow_natCast, ← together,
          Nat.cast_mul, Nat.cast_pow, Nat.cast_ofNat, mul_div_assoc]
      refine ⟨_, _, rfl, ?_⟩
      cases sign with
      | negative =>
          change -((m : ℚ) * 2 ^ e) = (-(m * 2 ^ (e + 1074).toNat : ℕ) : ℤ) / 2 ^ stepBits
          rw [whole, Int.cast_neg, Int.cast_natCast, neg_div]
      | positive => exact whole

theorem intLe_iff {n : Int} {x : Float} (held : Held (parts x)) :
    intLe n x = true ↔ (n : ℚ) ≤ value (parts x) := by
  obtain ⟨negative, steps, reading, size⟩ := held.reading
  have scaled : (n : ℚ) ≤ value (parts x) ↔
      n * (Nat.pow 2 stepBits : ℕ) ≤ (if negative then -(steps : ℤ) else steps : ℤ) := by
    rw [size, le_div_iff₀ (by positivity), ← Int.cast_le (R := ℚ), Int.cast_mul,
      Int.cast_natCast, Nat.pow_eq, Nat.cast_pow, Nat.cast_ofNat]
  rw [scaled, intLe, compareInt?, read_eq, reading, ← compare_le_iff_le]
  exact Ordering.isLE_iff_ne_gt

theorem intLe_of_infinity (n : Int) {x : Float} (shape : parts x = .infinity .positive) :
    intLe n x = true := by
  rw [intLe, compareInt?, read_eq, shape]
  rfl

/-- Nothing is above infinity. -/
theorem eq_of_infinity_below {x : Float} (order : Below (.infinity .positive) (parts x)) :
    parts x = .infinity .positive := by
  obtain ⟨a, b, same, found, below⟩ := id order
  rcases held_or_infinity found with held | ⟨sign, shape⟩
  · exact absurd order held.between.2.2
  · cases sign with
    | positive => exact shape
    | negative =>
        rw [shape] at found
        cases same
        cases found
        exact absurd below (by decide)

theorem intLe_mono {n : Int} {x y : Float} (reached : intLe n x = true) (order : x ≤ y) :
    intLe n y = true := by
  rw [le_iff_below] at order
  obtain ⟨a, b, placeX, placeY, -⟩ := id order
  rcases held_or_infinity placeX with heldX | ⟨signX, shapeX⟩
  · rcases held_or_infinity placeY with heldY | ⟨signY, shapeY⟩
    · rw [intLe_iff heldX] at reached
      rw [intLe_iff heldY]
      exact reached.trans ((heldX.below_iff heldY).1 order)
    · rw [shapeY] at order
      cases signY with
      | positive => exact intLe_of_infinity n shapeY
      | negative => exact absurd order heldX.between.2.1
  · rw [intLe, compareInt?, read_eq, shapeX] at reached
    cases signX with
    | negative => cases reached
    | positive =>
        rw [shapeX] at order
        exact intLe_of_infinity n (eq_of_infinity_below order)

/-- The whole part of what is not negative is no larger. -/
theorem truncate?_le {n : Int} {x : Float} (held : Held (parts x)) (nonneg : 0 ≤ value (parts x))
    (found : truncate? x = some n) : (n : ℚ) ≤ value (parts x) := by
  obtain ⟨negative, steps, reading, size⟩ := held.reading
  rw [truncate?, read_eq, reading] at found
  obtain rfl := Option.some.inj found
  have whole : ((steps / Nat.pow 2 stepBits : ℕ) : ℚ) ≤ steps / 2 ^ stepBits := by
    refine Nat.cast_div_le.trans_eq ?_
    rw [Nat.pow_eq, Nat.cast_pow, Nat.cast_ofNat]
  cases negative with
  | false =>
      rw [size]
      exact whole
  | true =>
      refine le_trans ?_ nonneg
      exact_mod_cast neg_nonpos.2 (Int.natCast_nonneg (steps / Nat.pow 2 stepBits))

theorem significand_zpow {n : Nat} (positive : 0 < n) (narrow : n < 2 ^ 53) :
    ((significand n : ℕ) : ℚ) * 2 ^ ((n.log2 : ℤ) - 52) = n := by
  have bits : n.log2 < 53 := (Nat.log2_lt positive.ne').2 narrow
  have together : ((52 - n.log2 : ℕ) : ℤ) + (n.log2 - 52) = 0 := by omega
  rw [significand, Nat.cast_mul, Nat.cast_pow, Nat.cast_ofNat, mul_assoc, ← zpow_natCast,
    ← zpow_add₀ (by norm_num), together, zpow_zero, mul_one]

theorem held_ofInt {n : Nat} (narrow : n < 2 ^ 53) :
    Held (parts (ofInt n)) ∧ value (parts (ofInt n)) = n := by
  rcases Nat.eq_zero_or_pos n with rfl | positive
  · have zero : ofInt ((0 : ℕ) : ℤ) = Scalar.zero := by
      rw [Nat.cast_zero, ← scalar_ofInt]
      rfl
    rw [zero, parts_zero, Nat.cast_zero]
    exact ⟨.zero _, rfl⟩
  · have fits := fits_parts (parts_ofInt positive narrow)
    rw [parts_ofInt positive narrow]
    exact ⟨.finite _ fits (.inl (significand_bounds positive narrow).1),
      significand_zpow positive narrow⟩

/-- Half of a whole number below `2 ^ 53` is held as well. -/
theorem held_half {n : Nat} (narrow : n < 2 ^ 53) : ∃ g, Held g ∧ value g = (n : ℚ) / 2 := by
  rcases Nat.eq_zero_or_pos n with rfl | positive
  · rw [Nat.cast_zero, zero_div]
    exact ⟨.zero .positive, .zero _, rfl⟩
  · obtain ⟨wide, below⟩ := significand_bounds positive narrow
    refine ⟨.finite .positive (significand n) (n.log2 - 52 - 1) (by omega),
      .finite _ ⟨below, by omega⟩ (.inl wide), ?_⟩
    change ((significand n : ℕ) : ℚ) * 2 ^ ((n.log2 : ℤ) - 52 - 1) = n / 2
    rw [zpow_sub_one₀ (by norm_num), ← mul_assoc, significand_zpow positive narrow]
    rfl

theorem parts_mul (x y : Float) :
    parts (x * y) = stored (UnpackedFloat.mul .binary64 (parts x) (parts y)) := rfl

theorem parts_div (x y : Float) :
    parts (x / y) = stored (UnpackedFloat.div .binary64 (parts x) (parts y)) := rfl

/-- What is stored of a bounded result is the result. -/
theorem Held.stored_eq {f : UnpackedFloat} (held : Held f) (nonneg : 0 ≤ value f)
    (small : value f < ending) : stored f = f := by
  have size := ending_pos
  have stores := held.stores
  generalize stored f = f' at stores ⊢
  cases stores with
  | same above below => rfl
  | positive large => linarith
  | negative large => linarith

/-- What lies between two finite doubles is finite. -/
theorem held_of_between {x low high : Float} (heldLow : Held (parts low))
    (heldHigh : Held (parts high)) (above : low ≤ x) (below : x ≤ high) : Held (parts x) := by
  rw [le_iff_below] at above below
  obtain ⟨_, _, -, found, -⟩ := id above
  rcases held_or_infinity found with held | ⟨sign, shape⟩
  · exact held
  · rw [shape] at above below
    cases sign with
    | positive => exact absurd below heldHigh.between.2.2
    | negative => exact absurd above heldLow.between.2.1

theorem held_rate {rate : Float} (nonneg : Scalar.zero ≤ rate) (atMost : rate ≤ Scalar.one) :
    Held (parts rate) ∧ 0 ≤ value (parts rate) ∧ value (parts rate) ≤ 1 := by
  have zero : Held (parts Scalar.zero) ∧ value (parts Scalar.zero) = 0 := by
    rw [parts_zero]
    exact ⟨.zero _, rfl⟩
  have one : Held (parts Scalar.one) ∧ value (parts Scalar.one) = 1 := by
    rw [Scalar.one, scalar_ofInt, ← Nat.cast_one, ← Nat.cast_one (R := ℚ)]
    exact held_ofInt (by decide)
  have held := held_of_between zero.1 one.1 nonneg atMost
  rw [le_iff_below] at nonneg atMost
  rw [zero.1.below_iff held, zero.2] at nonneg
  rw [held.below_iff one.1, one.2] at atMost
  exact ⟨held, nonneg, atMost⟩

theorem lt_ending {n : Nat} (narrow : n < 2 ^ 53) : (n : ℚ) < ending := by
  have below : (n : ℚ) * 2 ^ (0 : ℤ) < ending :=
    magnitude_lt_of_exponent_lt narrow (le_refl _) (by decide)
  rwa [zpow_zero, mul_one] at below

/-- A part of a count is stored as no more than the count. -/
theorem held_part {count : Nat} {rate : Float} (small : count < 2 ^ 53)
    (nonneg : Scalar.zero ≤ rate) (atMost : rate ≤ Scalar.one) :
    Held (parts (Scalar.ofInt count * rate)) ∧ 0 ≤ value (parts (Scalar.ofInt count * rate)) ∧
      value (parts (Scalar.ofInt count * rate)) ≤ count := by
  obtain ⟨heldCount, countValue⟩ := held_ofInt small
  obtain ⟨heldRate, atLeastZero, atMostOne⟩ := held_rate nonneg atMost
  have product := nearest_mul heldCount heldRate
  rw [countValue] at product
  have above := product.nonneg (mul_nonneg (Nat.cast_nonneg count) atLeastZero)
  have below : value _ ≤ value (parts (ofInt count)) := product.le_of_held heldCount (by
    rw [countValue]
    exact mul_le_of_le_one_right (Nat.cast_nonneg count) atMostOne)
  rw [countValue] at below
  have kept := product.held.stored_eq above (below.trans_lt (lt_ending small))
  rw [parts_mul, scalar_ofInt, kept]
  exact ⟨product.held, above, below⟩

theorem two_mul_truncate_le {count : Nat} {rate : Float} {n : Int} (small : count < 2 ^ 53)
    (nonneg : Scalar.zero ≤ rate) (atMost : rate ≤ Scalar.one)
    (found : truncate? (Scalar.ofInt count * rate / Scalar.ofInt 2) = some n) : 2 * n ≤ count := by
  obtain ⟨heldPart, partNonneg, partLe⟩ := held_part small nonneg atMost
  have two : Held (parts (Scalar.ofInt 2)) ∧ value (parts (Scalar.ofInt 2)) = ((2 : ℕ) : ℚ) := by
    rw [scalar_ofInt, ← Nat.cast_ofNat]
    exact held_ofInt (by decide)
  obtain ⟨heldTwo, twoValue⟩ := two
  rw [Nat.cast_ofNat] at twoValue
  obtain ⟨half, heldHalf, halfValue⟩ := held_half small
  have quotient := nearest_div heldPart heldTwo (by rw [twoValue]; norm_num)
  rw [twoValue] at quotient
  have above := quotient.nonneg (div_nonneg partNonneg two_pos.le)
  have below := quotient.le_of_held heldHalf
    (halfValue ▸ div_le_div_of_nonneg_right partLe two_pos.le)
  rw [halfValue] at below
  have kept := quotient.held.stored_eq above
    (below.trans_lt ((half_le_self (Nat.cast_nonneg count)).trans_lt (lt_ending small)))
  rw [← kept, ← parts_div] at above below
  have held := quotient.held
  rw [← kept, ← parts_div] at held
  have whole : (2 * n : ℚ) ≤ count := by linarith [truncate?_le held above found]
  exact_mod_cast whole

end Binary64

class MonotoneScalar (α : Type) [Scalar α] : Prop where
  sub_le_sub {x y z : α} : Scalar.isFinite z = true → x ≤ y → x - z ≤ y - z
  intLe_mono {n : Int} {x y : α} : Scalar.intLe n x = true → x ≤ y → Scalar.intLe n y = true
  /-- The counts a double holds exactly are among those below `2 ^ 53`. -/
  two_mul_truncate_le {count : Nat} {rate : α} {n : Int} : count < 2 ^ 53 →
    Scalar.zero ≤ rate → rate ≤ Scalar.one →
    Scalar.truncate? (Scalar.ofInt count * rate / Scalar.ofInt 2) = some n → 2 * n ≤ count

instance : MonotoneScalar Float where
  sub_le_sub := Binary64.sub_mono
  intLe_mono := Binary64.intLe_mono
  two_mul_truncate_le := Binary64.two_mul_truncate_le

theorem Scalar.truncate?_rat {x : ℚ} (nonneg : 0 ≤ x) : truncate? x = some ⌊x⌋ := by
  rw [Rat.floor_def', ← Int.tdiv_eq_ediv_of_nonneg (Rat.num_nonneg.2 nonneg)]
  rfl

/-- Half of a part of a count, rounded down, fits twice into the count. -/
theorem two_mul_floor_le {count : Nat} {rate : ℚ} (atMost : rate ≤ 1) :
    2 * ⌊(count : ℚ) * rate / 2⌋ ≤ count := by
  have below := Int.floor_le ((count : ℚ) * rate / 2)
  have part : (count : ℚ) * rate ≤ count := mul_le_of_le_one_right (Nat.cast_nonneg count) atMost
  have twice : (2 * ⌊(count : ℚ) * rate / 2⌋ : ℚ) ≤ count := by linarith
  exact_mod_cast twice

instance : MonotoneScalar ℚ where
  sub_le_sub _ below := sub_le_sub_right below _
  intLe_mono {n x y} reached below := by
    change decide ((n : ℚ) ≤ x) = true at reached
    change decide ((n : ℚ) ≤ y) = true
    rw [decide_eq_true_iff] at reached ⊢
    exact reached.trans below
  two_mul_truncate_le {count rate n} _ nonneg atMost found := by
    rw [Scalar.zero_rat] at nonneg
    rw [Scalar.one_rat] at atMost
    have share : (0 : ℚ) ≤ (count : ℤ) * rate / (2 : ℤ) := by positivity
    obtain rfl := Option.some.inj ((Scalar.truncate?_rat share).symm.trans found)
    exact_mod_cast two_mul_floor_le atMost

end EvoSched
