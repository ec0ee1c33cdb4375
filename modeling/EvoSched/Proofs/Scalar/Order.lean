import EvoSched.Proofs.Scalar.Exact

set_option autoImplicit false

namespace EvoSched

class OrderedScalar (α : Type) [Scalar α] : Prop where
  le_trans {x y z : α} : x ≤ y → y ≤ z → x ≤ z
  beq_iff {x y : α} : (x == y) = true ↔ x ≤ y ∧ y ≤ x
  lt_iff {x y : α} : x < y ↔ x ≤ y ∧ ¬ y ≤ x
  beq_self_of_le {x y : α} : x ≤ y → (x == x) = true ∧ (y == y) = true
  le_total {x y : α} : (x == x) = true → (y == y) = true → x ≤ y ∨ y ≤ x

namespace Scalar

instance : OrderedScalar ℚ where
  le_trans := le_trans
  beq_iff := beq_iff_eq.trans le_antisymm_iff
  lt_iff := lt_iff_le_not_ge
  beq_self_of_le {x y} _ := ⟨beq_self_eq_true x, beq_self_eq_true y⟩
  le_total {x y} _ _ := le_total x y

variable {α : Type} [Scalar α] [OrderedScalar α] {x y : α}

theorem beq_self_iff : (x == x) = true ↔ x ≤ x := by
  rw [OrderedScalar.beq_iff, and_self]

theorem not_lt_of_le (above : y ≤ x) : ¬ x < y := by
  intro below
  exact (OrderedScalar.lt_iff.1 below).2 above

/-- Of two scalars that compare, one that is not below the other is above it. -/
theorem not_lt_iff (first : (x == x) = true) (second : (y == y) = true) : ¬ x < y ↔ y ≤ x := by
  constructor
  · intro order
    rcases OrderedScalar.le_total first second with below | above
    · by_contra absent
      exact order (OrderedScalar.lt_iff.2 ⟨below, absent⟩)
    · exact above
  · exact not_lt_of_le

theorem lt_of_lt_of_le {z : α} (below : x < y) (above : y ≤ z) : x < z := by
  obtain ⟨low, apart⟩ := OrderedScalar.lt_iff.1 below
  refine OrderedScalar.lt_iff.2 ⟨OrderedScalar.le_trans low above, fun back => ?_⟩
  exact apart (OrderedScalar.le_trans above back)

theorem lt_of_le_of_lt {z : α} (below : x ≤ y) (above : y < z) : x < z := by
  obtain ⟨high, apart⟩ := OrderedScalar.lt_iff.1 above
  refine OrderedScalar.lt_iff.2 ⟨OrderedScalar.le_trans below high, fun back => ?_⟩
  exact apart (OrderedScalar.le_trans back below)

instance : Trans (α := α) (· ≤ ·) (· ≤ ·) (· ≤ ·) := ⟨OrderedScalar.le_trans⟩

end Scalar

end EvoSched
