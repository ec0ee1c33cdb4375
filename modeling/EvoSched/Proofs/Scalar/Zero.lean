import EvoSched.Proofs.Scalar.Place

set_option autoImplicit false

namespace EvoSched.Binary64

variable {x y z : Float}

/-- The same number: equal ones, and a NaN and another. -/
def Same (x y : Float) : Prop := (x == y) = true ∨ read x = .nan ∧ read y = .nan

theorem place_eq_none_iff : place (parts x) = none ↔ read x = .nan := by
  rw [read_eq]
  cases parts x with
  | notANumber => exact ⟨fun _ => rfl, fun _ => rfl⟩
  | infinity sign => cases sign <;> exact ⟨nofun, nofun⟩
  | zero sign => exact ⟨nofun, nofun⟩
  | finite sign m e positive => cases sign <;> exact ⟨nofun, nofun⟩

theorem same_iff_place : Same x y ↔ place (parts x) = place (parts y) := by
  unfold Same
  rw [beq_iff_place, ← place_eq_none_iff, ← place_eq_none_iff]
  constructor
  · rintro (⟨a, first, second⟩ | ⟨first, second⟩)
    · exact first.trans second.symm
    · exact first.trans second.symm
  · intro same
    cases found : place (parts x) with
    | none => exact .inr ⟨rfl, same ▸ found⟩
    | some a => exact .inl ⟨a, rfl, same ▸ found⟩

theorem Same.refl (x : Float) : Same x x := same_iff_place.2 rfl

theorem Same.symm (same : Same x y) : Same y x :=
  same_iff_place.2 (same_iff_place.1 same).symm

theorem Same.trans (first : Same x y) (second : Same y z) : Same x z :=
  same_iff_place.2 ((same_iff_place.1 first).trans (same_iff_place.1 second))

theorem ofNat_zero : (0 : Float) = Scalar.zero := by
  decide +kernel

theorem beq_zero_iff : (x == Scalar.zero) = true ↔ ∃ sign, parts x = .zero sign := by
  rw [beq_iff_place, parts_zero]
  cases parts x with
  | zero sign => exact ⟨fun _ => ⟨sign, rfl⟩, fun _ => ⟨_, rfl, rfl⟩⟩
  | notANumber => simp [place]
  | infinity sign => cases sign <;> simp [place]
  | finite sign m e positive => cases sign <;> simp [place]

/-- A zero without its sign; any other double as it is. -/
def clearZero (x : Float) : Float := if x == Scalar.zero then Scalar.zero else x

theorem clearZero_of_zero (zero : (x == Scalar.zero) = true) : clearZero x = Scalar.zero :=
  if_pos zero

theorem clearZero_of_other (other : (x == Scalar.zero) = false) : clearZero x = x :=
  if_neg (ne_true_of_eq_false other)

theorem same_clearZero (x : Float) : Same (clearZero x) x := by
  cases found : x == Scalar.zero with
  | true =>
      rw [clearZero_of_zero found]
      exact Same.symm (.inl found)
  | false =>
      rw [clearZero_of_other found]
      exact .refl x

theorem clearZero_clearZero (x : Float) : clearZero (clearZero x) = clearZero x := by
  cases found : x == Scalar.zero with
  | true =>
      rw [clearZero_of_zero found]
      exact ite_self _
  | false =>
      rw [clearZero_of_other found]
      exact clearZero_of_other found

/-- A NaN is neither at most zero nor above it. -/
theorem not_le_zero_iff : ¬ x ≤ Scalar.zero ↔ Scalar.zero < x ∨ read x = .nan := by
  rw [← place_eq_none_iff]
  cases found : place (parts x) with
  | none => simp [le_iff_place, found]
  | some a =>
      have zero : (Scalar.zero : Float) == Scalar.zero := by decide +kernel
      have itself := beq_self_of_place found
      simp only [reduceCtorEq, or_false]
      rw [← Scalar.not_lt_iff zero itself, not_not]

end EvoSched.Binary64
