import EvoSched.Decimal.Fixed
import EvoSched.Proofs.Scalar.Steps

set_option autoImplicit false

open Float.Model (UnpackedFloat)
open Float.Model.UnpackedFloat

namespace EvoSched.Binary64

variable {x y z low high : Float}

theorem isFinite_iff : Scalar.isFinite x = true ↔ Held (parts x) := by
  constructor
  · exact held_parts
  · intro held
    change (parts x).isFinite = true
    generalize parts x = f at held
    cases held with
    | zero sign => rfl
    | finite positive fits full => rfl

theorem isFinite_of_between (finiteLow : Scalar.isFinite low = true)
    (finiteHigh : Scalar.isFinite high = true) (above : low ≤ x) (below : x ≤ high) :
    Scalar.isFinite x = true :=
  isFinite_iff.2
    (held_of_between (isFinite_iff.1 finiteLow) (isFinite_iff.1 finiteHigh) above below)

theorem le_iff_value (first : Held (parts x)) (second : Held (parts y)) :
    x ≤ y ↔ value (parts x) ≤ value (parts y) := by
  rw [le_iff_below, first.below_iff second]

theorem lt_iff_value (first : Held (parts x)) (second : Held (parts y)) :
    x < y ↔ value (parts x) < value (parts y) := by
  rw [OrderedScalar.lt_iff, le_iff_value first second, le_iff_value second first, not_le,
    and_iff_right_of_imp le_of_lt]

theorem held_zero : Held (parts Scalar.zero) ∧ value (parts Scalar.zero) = 0 := by
  rw [parts_zero]
  exact ⟨.zero _, rfl⟩

theorem value_pos (positive : Scalar.zero < x) (finite : Scalar.isFinite x = true) :
    0 < value (parts x) := by
  obtain ⟨zero, none⟩ := held_zero
  rw [lt_iff_value zero (isFinite_iff.1 finite), none] at positive
  exact positive

theorem value_nonneg (nonneg : Scalar.zero ≤ x) (finite : Scalar.isFinite x = true) :
    0 ≤ value (parts x) := by
  obtain ⟨zero, none⟩ := held_zero
  rw [le_iff_value zero (isFinite_iff.1 finite), none] at nonneg
  exact nonneg

theorem parts_add (x y : Float) :
    parts (x + y) = stored (UnpackedFloat.add .binary64 (parts x) (parts y)) := rfl

theorem value_add_zero (s t : Sign) (f : UnpackedFloat) :
    value (UnpackedFloat.add .binary64 f (.zero s)) =
      value (UnpackedFloat.add .binary64 f (.zero t)) := by
  cases f with
  | zero sign => cases s <;> cases t <;> cases sign <;> rfl
  | _ => rfl

theorem value_mul_zero (s t : Sign) (f : UnpackedFloat) :
    value (UnpackedFloat.mul .binary64 f (.zero s)) =
      value (UnpackedFloat.mul .binary64 f (.zero t)) := by
  cases f with
  | _ => rfl

theorem add_le_add_left (finiteX : Scalar.isFinite x = true) (finiteY : Scalar.isFinite y = true)
    (finiteZ : Scalar.isFinite z = true) (order : x ≤ y) : z + x ≤ z + y := by
  rw [isFinite_iff] at finiteX finiteY finiteZ
  rw [le_iff_value finiteX finiteY] at order
  have rises : StrictMono fun w : ℚ => value (parts z) + w :=
    fun _ _ less => by linarith
  have sums := value_mono (UnpackedFloat.add .binary64 (parts z))
    (fun _ held => nearest_add finiteZ held) rises (fun s t => value_add_zero s t (parts z))
    finiteX finiteY order
  rw [le_iff_below, parts_add, parts_add]
  exact (nearest_add finiteZ finiteX).held.stored_below (nearest_add finiteZ finiteY).held sums

theorem mul_le_mul_left (positive : Scalar.zero < z) (finiteX : Scalar.isFinite x = true)
    (finiteY : Scalar.isFinite y = true) (finiteZ : Scalar.isFinite z = true) (order : x ≤ y) :
    z * x ≤ z * y := by
  have scale := value_pos positive finiteZ
  rw [isFinite_iff] at finiteX finiteY finiteZ
  rw [le_iff_value finiteX finiteY] at order
  have rises : StrictMono fun w : ℚ => value (parts z) * w :=
    fun _ _ less => mul_lt_mul_of_pos_left less scale
  have products := value_mono (UnpackedFloat.mul .binary64 (parts z))
    (fun _ held => nearest_mul finiteZ held) rises (fun s t => value_mul_zero s t (parts z))
    finiteX finiteY order
  rw [le_iff_below, parts_mul, parts_mul]
  exact (nearest_mul finiteZ finiteX).held.stored_below (nearest_mul finiteZ finiteY).held products

theorem ofInt_le_ofInt {m n : Nat} (narrow : n < 2 ^ 53) (order : m ≤ n) :
    ofInt m ≤ ofInt n := by
  obtain ⟨heldM, sizeM⟩ := held_ofInt (order.trans_lt narrow)
  obtain ⟨heldN, sizeN⟩ := held_ofInt narrow
  rw [le_iff_value heldM heldN, sizeM, sizeN]
  exact_mod_cast order

/-- The greatest double below one. -/
def belowOne : Float := Float.ofBits 0x3FEFFFFFFFFFFFFF

theorem parts_belowOne : parts belowOne = .finite .positive (2 ^ 53 - 1) (-53) (by decide) := rfl

theorem le_last_of_below_one {f : UnpackedFloat} (held : Held f) (below : value f < 1) :
    value f ≤ ((2 ^ 53 - 1 : ℕ) : ℚ) * 2 ^ (-53 : ℤ) := by
  have size : (0 : ℚ) ≤ ((2 ^ 53 - 1 : ℕ) : ℚ) * 2 ^ (-53 : ℤ) := by positivity
  cases held with
  | zero sign => exact size
  | @finite sign m e positive fits full =>
      cases sign with
      | negative => exact (neg_nonpos.2 (magnitude_pos positive).le).trans size
      | positive =>
          change (m : ℚ) * 2 ^ e < 1 at below
          change (m : ℚ) * 2 ^ e ≤ _
          -- a mantissa of 53 bits at a larger exponent is one already
          have small : e ≤ -53 := by
            by_contra larger
            have wide : 2 ^ 52 ≤ m := full.resolve_right (by omega)
            have reached : (2 ^ 52 : ℚ) * 2 ^ (-52 : ℤ) ≤ m * 2 ^ e := by
              have : (2 ^ 52 : ℚ) ≤ m := by exact_mod_cast wide
              gcongr
              · norm_num
              · omega
            norm_num at reached
            linarith
          have mantissa : m ≤ 2 ^ 53 - 1 := by
            have := fits.narrow
            omega
          gcongr
          norm_num

theorem le_belowOne (finite : Scalar.isFinite x = true) (below : x < Scalar.one) :
    x ≤ belowOne := by
  have held := isFinite_iff.1 finite
  have one : Held (parts Scalar.one) ∧ value (parts Scalar.one) = 1 := by
    rw [Scalar.one, scalar_ofInt, ← Nat.cast_one, ← Nat.cast_one (R := ℚ)]
    exact held_ofInt (by decide)
  have last : Held (parts belowOne) := isFinite_iff.1 (by decide +kernel)
  rw [lt_iff_value held one.1, one.2] at below
  rw [le_iff_value held last, parts_belowOne]
  exact le_last_of_below_one held below

theorem exists_steps (positive : Scalar.zero < x) (finite : Scalar.isFinite x = true) :
    ∃ steps, read x = .finite false steps ∧ value (parts x) = (steps : ℚ) / 2 ^ stepBits := by
  have above := value_pos positive finite
  obtain ⟨negative, steps, reading, size⟩ := (isFinite_iff.1 finite).reading
  rw [← read_eq] at reading
  cases negative with
  | false => exact ⟨steps, reading, size⟩
  | true =>
      rw [size, if_pos rfl, Int.cast_neg, neg_div, neg_pos] at above
      have nonneg : (0 : ℚ) ≤ (steps : ℤ) / 2 ^ stepBits := by positivity
      exact absurd above nonneg.not_gt

/-- Rounding to decimal places keeps the order of doubles above zero. -/
theorem roundTo_le_roundTo (places : Nat) (positive : Scalar.zero < x)
    (finite : Scalar.isFinite y = true) (order : x ≤ y) :
    Decimal.roundTo places x ≤ Decimal.roundTo places y := by
  have zero : Scalar.isFinite (Scalar.zero : Float) = true := by decide +kernel
  have finite' := isFinite_of_between zero finite (OrderedScalar.lt_iff.1 positive).1 order
  obtain ⟨steps, first, size⟩ := exists_steps positive finite'
  obtain ⟨steps', second, size'⟩ :=
    exists_steps (Scalar.lt_of_lt_of_le positive order) finite
  have fewer : steps ≤ steps' := by
    rw [le_iff_value (isFinite_iff.1 finite') (isFinite_iff.1 finite), size, size',
      div_le_div_iff_of_pos_right (by positivity)] at order
    exact_mod_cast order
  have scale : 0 < 10 ^ places := by positivity
  have units : roundHalfEven (steps * 10 ^ places) (2 ^ stepBits) ≤
      roundHalfEven (steps' * 10 ^ places) (2 ^ stepBits) :=
    roundHalfEven_mono (by positivity) (Nat.mul_le_mul_right _ fewer)
  have near := nearest_parts scale (roundHalfEven_le_largest first)
  have near' := nearest_parts scale (roundHalfEven_le_largest second)
  unfold Decimal.roundTo
  rw [first, second]
  simp only [Nat.pow_eq]
  generalize roundHalfEven (steps * 10 ^ places) (2 ^ stepBits) = count at units near ⊢
  generalize roundHalfEven (steps' * 10 ^ places) (2 ^ stepBits) = count' at units near' ⊢
  rw [le_iff_value near.held near'.held]
  rcases units.lt_or_eq with less | rfl
  · refine near.le_of_lt near' ?_
    have less' : (count : ℚ) < count' := by exact_mod_cast less
    gcongr
  · exact le_refl _

end EvoSched.Binary64
