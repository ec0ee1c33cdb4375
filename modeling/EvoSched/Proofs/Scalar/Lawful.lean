import Mathlib.Tactic.Positivity
import EvoSched.Proofs.Scalar.Exact

set_option autoImplicit false

namespace EvoSched

class LawfulScalar (α : Type) [Scalar α] : Prop where
  zero_le_zero : (Scalar.zero : α) ≤ Scalar.zero
  pos_of_not_le {x : α} : Scalar.isFinite x = true → ¬ x ≤ Scalar.zero → Scalar.zero < x
  le_of_pos {x : α} : Scalar.zero < x → Scalar.zero ≤ x
  beq_zero_of_pos {x : α} : Scalar.zero < x → (x == Scalar.zero) = false
  add_pos {x y : α} : Scalar.zero ≤ x → Scalar.zero < y → Scalar.zero < x + y
  /-- The counts a double holds exactly are among those below `2 ^ 53`. -/
  truncate_half {count : Nat} {rate : α} : count < 2 ^ 53 → Scalar.zero ≤ rate →
    rate ≤ Scalar.one →
    ∃ n : Int, 0 ≤ n ∧
      Scalar.truncate? (Scalar.ofInt count * rate / Scalar.ofInt 2) = some n

namespace Scalar

instance : LawfulScalar ℚ where
  zero_le_zero := le_refl (0 : ℚ)
  pos_of_not_le {x} _ positive := by
    rw [zero_rat] at *
    exact not_le.1 positive
  le_of_pos {x} positive := by
    rw [zero_rat] at *
    exact le_of_lt positive
  beq_zero_of_pos {x} positive := by
    rw [zero_rat] at *
    exact beq_false_of_ne (ne_of_gt positive)
  add_pos {x y} nonneg positive := by
    rw [zero_rat] at *
    exact add_pos_of_nonneg_of_pos nonneg positive
  truncate_half {count rate} _ nonneg _ := by
    rw [zero_rat] at nonneg
    have share : (0 : ℚ) ≤ (count : ℤ) * rate / (2 : ℤ) := by positivity
    exact ⟨_, Int.tdiv_nonneg (Rat.num_nonneg.2 share) (Int.natCast_nonneg _), rfl⟩

variable {α : Type} [Scalar α] [LawfulScalar α]

theorem foldl_add_pos {start : α} {xs : List α} (positive : zero < start)
    (each : ∀ x ∈ xs, zero < x) : zero < xs.foldl (· + ·) start := by
  induction xs generalizing start with
  | nil => exact positive
  | cons x rest ih =>
      have grown : zero < start + x :=
        LawfulScalar.add_pos (LawfulScalar.le_of_pos positive) (each x List.mem_cons_self)
      exact ih grown fun y member => each y (List.mem_cons_of_mem x member)

theorem sum_pos {xs : List α} (some_term : xs ≠ []) (each : ∀ x ∈ xs, zero < x) :
    zero < sum xs := by
  cases xs with
  | nil => exact absurd rfl some_term
  | cons x rest =>
      have first : zero < zero + x :=
        LawfulScalar.add_pos LawfulScalar.zero_le_zero (each x List.mem_cons_self)
      change zero < rest.foldl (· + ·) (zero + x)
      exact foldl_add_pos first fun y member => each y (List.mem_cons_of_mem x member)

end Scalar

end EvoSched
