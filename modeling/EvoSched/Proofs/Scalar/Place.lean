import EvoSched.Proofs.Scalar.Double
import EvoSched.Proofs.Scalar.Order

set_option autoImplicit false

open Float.Model (UnpackedFloat)
open Float.Model.UnpackedFloat

namespace EvoSched.Binary64

def place : UnpackedFloat → Option (ℤ ×ₗ ℤ ×ₗ ℤ)
  | .notANumber => none
  | .infinity .negative => some (toLex (-2, toLex (0, 0)))
  | .finite .negative m e _ => some (toLex (-1, toLex (-e, -m)))
  | .zero _ => some (toLex (0, toLex (0, 0)))
  | .finite .positive m e _ => some (toLex (1, toLex (e, m)))
  | .infinity .positive => some (toLex (2, toLex (0, 0)))

theorem compare_natCast (m n : Nat) : compare (m : Int) (n : Int) = compare m n := by
  have order : StrictMono fun k : Nat => (k : Int) := fun _ _ below => Int.ofNat_lt.2 below
  simpa only [cmp_eq_compare] using order.cmp_map_eq m n

theorem compare_neg (a b : Int) : compare (-a) (-b) = compare b a := by
  have order : StrictAnti fun k : Int => -k := fun _ _ below => Int.neg_lt_neg below
  simpa only [cmp_eq_compare] using order.cmp_map_eq a b

theorem compare_toLex (a b c d e : Int) :
    compare (toLex (a, toLex (b, c))) (toLex (a, toLex (d, e))) =
      (compare b d).then (compare c e) := by
  simp [Prod.Lex.compare_def, compareLex, compareOn]

theorem compare_eq (f g : UnpackedFloat) :
    f.compare g = (place f).bind fun a => (place g).map fun b => compare a b := by
  rcases f with first | _ | first | ⟨first, m, e, positive⟩ <;>
    rcases g with second | _ | second | ⟨second, n, d, positive'⟩ <;>
    try cases first
  all_goals try cases second
  all_goals try rfl
  · change some ((compare e d).then (compare m n)).swap = some (compare (toLex (_, toLex (_, _))) _)
    rw [compare_toLex, compare_neg, compare_neg, compare_natCast, Ordering.swap_then,
      Int.compare_swap, Nat.compare_swap]
  · change some ((compare e d).then (compare m n)) = some (compare (toLex (_, toLex (_, _))) _)
    rw [compare_toLex, compare_natCast]

theorem le_iff_place (x y : Float) :
    x ≤ y ↔ ∃ a b, place (parts x) = some a ∧ place (parts y) = some b ∧ a ≤ b := by
  rw [le_iff, UnpackedFloat.le, compare_eq]
  cases place (parts x) with
  | none => simp
  | some a =>
      cases place (parts y) with
      | none => simp
      | some b => simp [Ordering.isLE_iff_ne_gt, compare_le_iff_le]

theorem lt_iff_place (x y : Float) :
    x < y ↔ ∃ a b, place (parts x) = some a ∧ place (parts y) = some b ∧ a < b := by
  rw [lt_iff, UnpackedFloat.lt, compare_eq]
  cases place (parts x) with
  | none => simp
  | some a =>
      cases place (parts y) with
      | none => simp
      | some b => simp [compare_lt_iff_lt]

theorem beq_iff_place (x y : Float) :
    (x == y) = true ↔ ∃ a, place (parts x) = some a ∧ place (parts y) = some a := by
  change (parts x).beq (parts y) = true ↔ _
  rw [UnpackedFloat.beq, compare_eq]
  cases place (parts x) with
  | none => simp
  | some a =>
      cases place (parts y) with
      | none => simp
      | some b =>
          simp only [Option.bind_some, Option.map_some, Option.some.injEq, exists_eq_left',
            Option.some_beq_some, beq_iff_eq, compare_eq_iff_eq]
          exact eq_comm

theorem beq_self_of_place {x : Float} {a : ℤ ×ₗ ℤ ×ₗ ℤ} (found : place (parts x) = some a) :
    (x == x) = true :=
  (beq_iff_place x x).2 ⟨a, found, found⟩

theorem le_iff_of_place {x y : Float} {a b : ℤ ×ₗ ℤ ×ₗ ℤ} (first : place (parts x) = some a)
    (second : place (parts y) = some b) : x ≤ y ↔ a ≤ b := by
  simp [le_iff_place, first, second]

instance : OrderedScalar Float where
  le_trans {x y z} first second := by
    obtain ⟨a, b, placeX, placeY, below⟩ := (le_iff_place x y).1 first
    obtain ⟨_, c, -, placeZ, -⟩ := (le_iff_place y z).1 second
    have below' := (le_iff_of_place placeY placeZ).1 second
    exact (le_iff_of_place placeX placeZ).2 (below.trans below')
  beq_iff {x y} := by
    constructor
    · intro same
      obtain ⟨a, placeX, placeY⟩ := (beq_iff_place x y).1 same
      exact ⟨(le_iff_of_place placeX placeY).2 (le_refl a),
        (le_iff_of_place placeY placeX).2 (le_refl a)⟩
    · rintro ⟨first, second⟩
      obtain ⟨a, b, placeX, placeY, below⟩ := (le_iff_place x y).1 first
      have above := (le_iff_of_place placeY placeX).1 second
      rw [le_antisymm below above] at placeX
      exact (beq_iff_place x y).2 ⟨b, placeX, placeY⟩
  lt_iff {x y} := by
    constructor
    · intro less
      obtain ⟨a, b, placeX, placeY, below⟩ := (lt_iff_place x y).1 less
      rw [le_iff_of_place placeX placeY, le_iff_of_place placeY placeX]
      exact lt_iff_le_not_ge.1 below
    · rintro ⟨first, apart⟩
      obtain ⟨a, b, placeX, placeY, below⟩ := (le_iff_place x y).1 first
      rw [le_iff_of_place placeY placeX] at apart
      exact (lt_iff_place x y).2 ⟨a, b, placeX, placeY, lt_of_not_ge apart⟩
  beq_self_of_le {x y} below := by
    obtain ⟨a, b, placeX, placeY, -⟩ := (le_iff_place x y).1 below
    exact ⟨beq_self_of_place placeX, beq_self_of_place placeY⟩
  le_total {x y} first second := by
    obtain ⟨a, placeX, -⟩ := (beq_iff_place x x).1 first
    obtain ⟨b, placeY, -⟩ := (beq_iff_place y y).1 second
    rw [le_iff_of_place placeX placeY, le_iff_of_place placeY placeX]
    exact le_total a b

end EvoSched.Binary64
