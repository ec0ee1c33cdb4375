import EvoSched.Proofs.Scalar.Lawful
import EvoSched.Proofs.Scalar.Parts

set_option autoImplicit false

open Float.Model (Format UnpackedFloat totalExponent)
open Float.Model.UnpackedFloat

namespace EvoSched.Binary64

theorem lt_iff (x y : Float) : x < y ↔ (parts x).lt (parts y) = true := by
  change decide _ = true ↔ _
  rw [decide_eq_true_iff]
  rfl

theorem le_iff (x y : Float) : x ≤ y ↔ (parts x).le (parts y) = true := by
  change decide _ = true ↔ _
  rw [decide_eq_true_iff]
  rfl

theorem parts_zero : parts Scalar.zero = .zero .positive := by
  have word : (Scalar.zero : Float) = Float.ofBits 0 := by decide +kernel
  rw [word]
  exact stored_zero .positive

theorem scalar_ofInt (n : Int) : (Scalar.ofInt n : Float) = ofInt n := rfl

theorem parts_one : parts Scalar.one = .finite .positive (2 ^ 52) (-52) (by decide) := by
  rw [Scalar.one, scalar_ofInt, ← Nat.cast_one, parts_ofInt (n := 1) (by decide) (by decide)]
  rfl

theorem parts_two :
    parts (Scalar.ofInt 2) = .finite .positive (2 ^ 52) (-51) (by decide) := by
  rw [scalar_ofInt, ← Nat.cast_ofNat, parts_ofInt (n := 2) (by decide) (by decide)]
  rfl

/-- Above zero, infinity included. -/
inductive Positive : UnpackedFloat → Prop
  | finite {m : Nat} {e : Int} (positive : 0 < m) (fits : Fits m e) :
      Positive (.finite .positive m e positive)
  | infinity : Positive (.infinity .positive)

theorem zero_lt_iff (x : Float) : Scalar.zero < x ↔ Positive (parts x) := by
  rw [lt_iff, parts_zero]
  cases found : parts x with
  | notANumber => exact ⟨nofun, nofun⟩
  | infinity sign =>
      cases sign with
      | negative => exact ⟨nofun, nofun⟩
      | positive => exact ⟨fun _ => .infinity, fun _ => rfl⟩
  | zero sign => exact ⟨nofun, nofun⟩
  | finite sign m e positive =>
      cases sign with
      | negative => exact ⟨nofun, nofun⟩
      | positive => exact ⟨fun _ => .finite positive (fits_parts found), fun _ => rfl⟩

theorem zero_le_iff (x : Float) :
    Scalar.zero ≤ x ↔ Positive (parts x) ∨ ∃ sign, parts x = .zero sign := by
  rw [le_iff, parts_zero]
  cases found : parts x with
  | notANumber => exact ⟨nofun, nofun⟩
  | infinity sign =>
      cases sign with
      | negative => exact ⟨nofun, nofun⟩
      | positive => exact ⟨fun _ => .inl .infinity, fun _ => rfl⟩
  | zero sign => exact ⟨fun _ => .inr ⟨sign, rfl⟩, fun _ => rfl⟩
  | finite sign m e positive =>
      cases sign with
      | negative => exact ⟨nofun, nofun⟩
      | positive => exact ⟨fun _ => .inl (.finite positive (fits_parts found)), fun _ => rfl⟩

theorem Positive.stored {f : UnpackedFloat} (positive : Positive f) : Positive (stored f) := by
  cases positive with
  | infinity =>
      rw [stored_infinity]
      exact .infinity
  | @finite m e some_bit fits =>
      by_cases small : e ≤ 971
      · by_cases wide : 2 ^ 52 ≤ m
        · rw [stored_normal some_bit fits wide small]
          exact .finite some_bit fits
        · rw [stored_subnormal some_bit fits (by omega) small]
          exact .finite some_bit ⟨fits.narrow, le_refl _⟩
      · rw [stored_of_large some_bit (by omega)]
        exact .infinity

theorem positive_round {m : Nat} {e : Int} (positive : 0 < m) (above : -1074 ≤ e) :
    Positive (UnpackedFloat.round .binary64 .positive m e) := by
  unfold UnpackedFloat.round decreaseExponent
  simp only [targetExponent_eq]
  have lifted : 0 < m <<< (e - max (totalExponent m e - 53) (-1074)).toNat := by
    rw [Nat.shiftLeft_eq]
    positivity
  obtain ⟨m', e', fits, -, kept, same⟩ := roundWithAccuracy_eq .positive
    (m <<< (e - max (totalExponent m e - 53) (-1074)).toNat)
    (e - (e - max (totalExponent m e - 53) (-1074)).toNat) .exact
  have some_bit := kept lifted (by omega)
  rw [same, dif_neg some_bit.ne']
  exact .finite some_bit fits

theorem positive_normalize {m : Int} {e : Int} (positive : 0 < m) (above : -1074 ≤ e) :
    Positive (UnpackedFloat.normalize .binary64 m e .positive) := by
  have order : compare m 0 = .gt := Int.compare_eq_gt.2 positive
  unfold UnpackedFloat.normalize
  rw [order]
  exact positive_round (by omega) above

/-- Adding to a positive double what is not negative leaves it positive. -/
theorem positive_add {f g : UnpackedFloat} (first : Positive f ∨ ∃ sign, f = .zero sign)
    (second : Positive g) : Positive (UnpackedFloat.add .binary64 f g) := by
  rcases first with first | ⟨sign, rfl⟩
  · cases first with
    | infinity => cases second <;> exact .infinity
    | @finite m₁ e₁ positive₁ fits₁ =>
        cases second with
        | infinity => exact .infinity
        | @finite m₂ e₂ positive₂ fits₂ =>
            have above : -1074 ≤ min e₁ e₂ := le_min fits₁.above fits₂.above
            have some_bit : 0 < m₁ <<< (e₁ - min e₁ e₂).toNat := by
              rw [Nat.shiftLeft_eq]
              positivity
            refine positive_normalize ?_ above
            exact Int.add_pos_of_pos_of_nonneg (Int.natCast_pos.2 some_bit)
              (Int.natCast_nonneg (m₂ <<< (e₂ - min e₁ e₂).toNat))
  · cases second with
    | infinity => exact .infinity
    | finite positive fits => exact .finite positive fits

/-- Finite, of a size below `2 ^ (limit + 53)`, and not below zero. -/
inductive Bounded (limit : Int) : UnpackedFloat → Prop
  | zero (sign : Sign) : Bounded limit (.zero sign)
  | finite {m : Nat} {e : Int} (positive : 0 < m) (fits : Fits m e) (small : e ≤ limit) :
      Bounded limit (.finite .positive m e positive)

theorem Bounded.stored {limit : Int} {f : UnpackedFloat} (bounded : Bounded limit f)
    (small : limit ≤ 971) : Bounded limit (stored f) := by
  cases bounded with
  | zero sign =>
      rw [stored_zero]
      exact .zero sign
  | @finite m e positive fits below =>
      have above := fits.above
      by_cases wide : 2 ^ 52 ≤ m
      · rw [stored_normal positive fits wide (by omega)]
        exact .finite positive fits below
      · rw [stored_subnormal positive fits (by omega) (by omega)]
        exact .finite positive ⟨fits.narrow, le_refl _⟩ (by omega)

theorem bounded_round {limit : Int} {m : Nat} {e : Int} (accuracy : Accuracy)
    (total : totalExponent m e ≤ limit + 52) (low : -1074 < limit) (below : e < limit) :
    Bounded limit (roundWithAccuracy .binary64 .positive m e accuracy) := by
  obtain ⟨m', e', fits, moved, -, same⟩ := roundWithAccuracy_eq .positive m e accuracy
  rw [same]
  split
  · exact .zero .positive
  · exact .finite _ fits (by omega)

theorem log2_le {m count : Nat} (narrow : m < 2 ^ (count + 1)) : m.log2 ≤ count := by
  by_cases none : m = 0
  · rw [none]
    exact Nat.zero_le count
  · have := (Nat.log2_lt none).2 narrow
    omega

theorem Bounded.mul {limit₁ limit₂ : Int} {f g : UnpackedFloat} (first : Bounded limit₁ f)
    (second : Bounded limit₂ g) (low : -1128 < limit₁ + limit₂) :
    Bounded (limit₁ + limit₂ + 54) (UnpackedFloat.mul .binary64 f g) := by
  cases first with
  | zero sign => cases second <;> exact .zero _
  | @finite m₁ e₁ positive₁ fits₁ small₁ =>
      cases second with
      | zero sign => exact .zero _
      | @finite m₂ e₂ positive₂ fits₂ small₂ =>
          have narrow : m₁ * m₂ < 2 ^ (105 + 1) := by
            calc m₁ * m₂ < 2 ^ 53 * 2 ^ 53 := Nat.mul_lt_mul'' fits₁.narrow fits₂.narrow
              _ = 2 ^ (105 + 1) := by norm_num
          have bits := log2_le narrow
          refine bounded_round .exact ?_ (by omega) (by omega)
          unfold totalExponent
          omega

/-- A quotient is at most as long as its dividend, shifted by the exponents. -/
theorem Bounded.div {limit e₂ : Int} {m₂ : Nat} {f : UnpackedFloat} (first : Bounded limit f)
    (positive₂ : 0 < m₂) (low : -1075 < limit - e₂) :
    Bounded (limit - e₂ + 1)
      (UnpackedFloat.div .binary64 f (.finite .positive m₂ e₂ positive₂)) := by
  cases first with
  | zero sign => exact .zero _
  | @finite m₁ e₁ positive₁ fits₁ small₁ =>
      unfold UnpackedFloat.div divCore
      simp only
      generalize target : min (e₁ - e₂) (Format.targetExponent .binary64
        (totalExponent m₁ e₁ - totalExponent m₂ e₂)) = t
      have below : t ≤ e₁ - e₂ := by omega
      have narrow : (m₁ <<< (e₁ - e₂ - t).toNat) / m₂ < 2 ^ (52 + (e₁ - e₂ - t).toNat + 1) := by
        refine (Nat.div_le_self _ _).trans_lt ?_
        rw [Nat.shiftLeft_eq, Nat.add_right_comm, Nat.pow_add]
        exact Nat.mul_lt_mul_of_pos_right fits₁.narrow (Nat.two_pow_pos _)
      have bits := log2_le narrow
      refine bounded_round _ ?_ (by omega) (by omega)
      unfold totalExponent
      omega

theorem bounded_count {count : Nat} (small : count < 2 ^ 53) : Bounded 0 (parts (ofInt count)) := by
  rcases Nat.eq_zero_or_pos count with rfl | positive
  · rw [Nat.cast_zero, ← scalar_ofInt]
    change Bounded 0 (parts Scalar.zero)
    rw [parts_zero]
    exact .zero .positive
  · have bits : count.log2 < 53 := (Nat.log2_lt positive.ne').2 small
    rw [parts_ofInt positive small]
    exact .finite _ (fits_parts (parts_ofInt positive small)) (by omega)

theorem bounded_rate {rate : Float} (nonneg : Scalar.zero ≤ rate) (atMost : rate ≤ Scalar.one) :
    Bounded (-52) (parts rate) := by
  rw [le_iff, parts_one] at atMost
  rcases (zero_le_iff rate).1 nonneg with positive | ⟨sign, none⟩
  · generalize parts rate = f at positive atMost
    cases positive with
    | infinity => cases atMost
    | @finite m e some_bit fits =>
        refine .finite some_bit fits ?_
        by_contra larger
        have order : compare e (-52) = .gt := Int.compare_eq_gt.2 (by omega)
        unfold UnpackedFloat.le UnpackedFloat.compare at atMost
        rw [order] at atMost
        cases atMost
  · rw [none]
    exact .zero sign

theorem truncate?_of_bounded {limit : Int} {x : Float} (bounded : Bounded limit (parts x)) :
    ∃ n : Int, 0 ≤ n ∧ truncate? x = some n := by
  unfold truncate?
  rw [read_eq]
  generalize parts x = f at bounded
  cases bounded with
  | zero sign =>
      refine ⟨_, ?_, rfl⟩
      split <;> simp
  | finite positive fits small => exact ⟨_, Int.natCast_nonneg _, rfl⟩

instance : LawfulScalar Float where
  zero_le_zero := (zero_le_iff _).2 (.inr ⟨.positive, parts_zero⟩)
  pos_of_not_le {x} finite above := by
    change (parts x).isFinite = true at finite
    rw [le_iff, parts_zero] at above
    rw [zero_lt_iff]
    cases found : parts x with
    | notANumber => simp [found, UnpackedFloat.isFinite] at finite
    | infinity sign => simp [found, UnpackedFloat.isFinite] at finite
    | zero sign => exact absurd rfl (found ▸ above)
    | finite sign m e positive =>
        cases sign with
        | negative => exact absurd rfl (found ▸ above)
        | positive => exact .finite positive (fits_parts found)
  le_of_pos {x} above := (zero_le_iff x).2 (.inl ((zero_lt_iff x).1 above))
  beq_zero_of_pos {x} above := by
    have positive := (zero_lt_iff x).1 above
    change (parts x).beq (parts Scalar.zero) = false
    rw [parts_zero]
    generalize parts x = f at positive
    cases positive <;> rfl
  add_pos {x y} nonneg above := by
    rw [zero_lt_iff] at above ⊢
    exact (positive_add ((zero_le_iff x).1 nonneg) above).stored
  truncate_half {count rate} small nonneg atMost := by
    have product := ((bounded_count small).mul (bounded_rate nonneg atMost) (by omega)).stored
      (by omega)
    have half : Bounded (0 + -52 + 54 - -51 + 1)
        (parts (Scalar.ofInt count * rate / Scalar.ofInt 2)) := by
      change Bounded _ (stored (UnpackedFloat.div .binary64 _ (parts (Scalar.ofInt 2))))
      rw [parts_two]
      exact (product.div (by decide) (by omega)).stored (by omega)
    exact truncate?_of_bounded half

end EvoSched.Binary64
