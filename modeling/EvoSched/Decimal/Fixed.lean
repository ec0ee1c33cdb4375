import EvoSched.Binary64

set_option autoImplicit false

namespace EvoSched.Decimal

open Binary64 (roundHalfEven stepBits)

/-- The last `width` decimal digits of `n`, zeros in front. -/
def digits : Nat → Nat → List Char
  | 0, _ => []
  | width + 1, n => digits width (n / 10) ++ [Nat.digitChar (n % 10)]

theorem length_digits (width n : Nat) : (digits width n).length = width := by
  induction width generalizing n with
  | zero => rfl
  | succ width ih => simp [digits, ih]

/-- A number of `units` of `10 ^ -places` as text. -/
def pointed (places units : Nat) : String :=
  toString (units / Nat.pow 10 places) ++
    if places = 0 then "" else "." ++ String.ofList (digits places units)

def sign (negative : Bool) : String := if negative then "-" else ""

/-- A double with `places` decimal places. The sign of a zero shows. -/
def fixed (places : Nat) (x : Float) : String :=
  match Binary64.read x with
  | .nan => "nan"
  | .infinite negative => sign negative ++ "inf"
  | .finite negative steps =>
    sign negative ++
      pointed places (roundHalfEven (steps * Nat.pow 10 places) (Nat.pow 2 stepBits))

/-- The double nearest to the decimal of `places` places nearest to `x`. -/
def roundTo (places : Nat) (x : Float) : Float :=
  match Binary64.read x with
  | .finite negative steps =>
    Binary64.nearest negative
      (roundHalfEven (steps * Nat.pow 10 places) (Nat.pow 2 stepBits)) (Nat.pow 10 places)
  | _ => x

end EvoSched.Decimal
