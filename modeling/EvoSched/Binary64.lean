/-!
Doubles as exact numbers. A finite double is a whole number of *steps* of `2 ^ -1074`, with a sign.
Every rounding and printing rule of the library is stated on steps, in whole numbers and their
powers (`Nat.pow`).
-/

set_option autoImplicit false

namespace EvoSched.Binary64

/-- One is `2 ^ stepBits` steps. -/
def stepBits : Nat := 1074

/-- What a double stands for. -/
inductive Reading where
  | nan
  | infinite (negative : Bool)
  | finite (negative : Bool) (steps : Nat)
  deriving DecidableEq, Repr

/-- Steps of the magnitude with exponent field `field` and fraction field `fraction`. -/
def stepsOfFields (field fraction : Nat) : Nat :=
  if field = 0 then fraction else (Nat.pow 2 52 + fraction) * Nat.pow 2 (field - 1)

def read (x : Float) : Reading :=
  let word := x.toBits.toNat
  let negative := word / Nat.pow 2 63 == 1
  let field := word / Nat.pow 2 52 % Nat.pow 2 11
  let fraction := word % Nat.pow 2 52
  if field = 2047 then
    if fraction = 0 then .infinite negative else .nan
  else .finite negative (stepsOfFields field fraction)

/-- The distance, in powers of two steps, between neighbouring doubles at `steps`: one step below
`2 ^ 53`, and 53 significant bits above. -/
def spacing (steps : Nat) : Nat := steps.log2 - 52

/-- The magnitude bits of the double with `steps` steps; past the largest double, infinity. -/
def wordOfSteps (steps : Nat) : Nat :=
  let shift := spacing steps
  min (shift * Nat.pow 2 52 + steps / Nat.pow 2 shift) (2047 * Nat.pow 2 52)

def ofSteps (negative : Bool) (steps : Nat) : Float :=
  Float.ofBits (UInt64.ofNat ((if negative then Nat.pow 2 63 else 0) + wordOfSteps steps))

def infinity (negative : Bool) : Float :=
  ofSteps negative (Nat.pow 2 (1024 + stepBits))

/-- Rounds `numerator / denominator` to the nearest whole number, a half to the even neighbour. -/
def roundHalfEven (numerator denominator : Nat) : Nat :=
  let quotient := numerator / denominator
  let twice := 2 * (numerator % denominator)
  if twice < denominator then quotient
  else if denominator < twice then quotient + 1
  else quotient + quotient % 2

/-- Steps of the double nearest to `numerator / denominator`. -/
def nearestSteps (numerator denominator : Nat) : Nat :=
  let scaled := numerator * Nat.pow 2 stepBits
  let shift := spacing (scaled / denominator)
  roundHalfEven scaled (denominator * Nat.pow 2 shift) * Nat.pow 2 shift

/-- The double nearest to `± numerator / denominator`, ties to the even significand. -/
def nearest (negative : Bool) (numerator denominator : Nat) : Float :=
  ofSteps negative (nearestSteps numerator denominator)

def ofInt (n : Int) : Float :=
  nearest (n < 0) n.natAbs 1

/-- The whole numbers a double can hold without overflow lie below this bound in magnitude. -/
def overflowBound : Nat := Nat.pow 2 1024 - Nat.pow 2 970

/-- The double nearest to a whole number, or nothing where that would be infinite. -/
def ofInt? (n : Int) : Option Float :=
  if n.natAbs < overflowBound then some (ofInt n) else none

/-- The whole part of a double, toward zero; nothing for infinities and NaN. -/
def truncate? (x : Float) : Option Int :=
  match read x with
  | .finite negative steps =>
    let whole : Int := (steps / Nat.pow 2 stepBits : Nat)
    some (if negative then -whole else whole)
  | _ => none

/-- The order of a whole number and a double, exactly. A NaN has no place in it. -/
def compareInt? (n : Int) (x : Float) : Option Ordering :=
  match read x with
  | .nan => none
  | .infinite negative => some (if negative then .gt else .lt)
  | .finite negative steps =>
    some (compare (n * Nat.pow 2 stepBits) (if negative then -(steps : Int) else steps))

/-- Whether `n ≤ x`, exactly, also where `n` is no double. -/
def intLe (n : Int) (x : Float) : Bool := (compareInt? n x).any Ordering.isLE

end EvoSched.Binary64
