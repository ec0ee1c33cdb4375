import Mathlib.Algebra.BigOperators.Group.List.Basic
import Mathlib.Algebra.Order.Field.Rat
import Mathlib.Order.OrderDual
import EvoSched.Decimal.Fixed
import EvoSched.Scalar

set_option autoImplicit false

namespace EvoSched

instance : Scalar ℚ where
  decLt := inferInstance
  decLe := inferInstance
  ofInt n := n
  isFinite _ := true
  truncate? x := some (x.num.tdiv x.den)
  intLe n x := (n : ℚ) ≤ x
  text x := toString x
  fixed places x :=
    Decimal.sign (x < 0) ++
      Decimal.pointed places (Binary64.roundHalfEven (x.num.natAbs * 10 ^ places) x.den)

namespace Scalar

@[simp] theorem zero_rat : (zero : ℚ) = 0 := Int.cast_zero

@[simp] theorem one_rat : (one : ℚ) = 1 := Int.cast_one

@[simp] theorem sum_rat (xs : List ℚ) : sum xs = xs.sum := by
  rw [List.sum_eq_foldl]
  rfl

/-- Folding with "take the later one only if it is greater" ends at a greatest element. -/
theorem foldl_greater {β : Type} [LinearOrder β] (x : β) (xs : List β) :
    xs.foldl (fun best y => if best < y then y else best) x ∈ x :: xs ∧
      ∀ y ∈ x :: xs, y ≤ xs.foldl (fun best y => if best < y then y else best) x := by
  induction xs generalizing x with
  | nil => simp
  | cons z rest ih =>
      obtain ⟨member, bound⟩ := ih (if x < z then z else x)
      have step : x ≤ (if x < z then z else x) ∧ z ≤ (if x < z then z else x) := by
        split <;> grind
      constructor
      · rcases List.mem_cons.1 member with same | member
        · rw [List.foldl_cons, same]
          split <;> simp
        · exact List.mem_cons_of_mem _ (List.mem_cons_of_mem _ member)
      · intro y among
        rw [List.foldl_cons]
        have top := bound _ List.mem_cons_self
        rcases List.mem_cons.1 among with rfl | among
        · exact step.1.trans top
        · rcases List.mem_cons.1 among with rfl | among
          · exact step.2.trans top
          · exact bound y (List.mem_cons_of_mem _ among)

theorem maximum?_rat {xs : List ℚ} {greatest : ℚ} (found : maximum? xs = some greatest) :
    greatest ∈ xs ∧ ∀ x ∈ xs, x ≤ greatest := by
  cases xs with
  | nil => cases found
  | cons x rest =>
      obtain rfl := Option.some.inj found
      exact foldl_greater x rest

/-- The least is the greatest in the opposite order. -/
theorem minimum?_rat {xs : List ℚ} {least : ℚ} (found : minimum? xs = some least) :
    least ∈ xs ∧ ∀ x ∈ xs, least ≤ x := by
  cases xs with
  | nil => cases found
  | cons x rest =>
      obtain rfl := Option.some.inj found
      exact @foldl_greater ℚᵒᵈ _ x rest

end Scalar

end EvoSched
