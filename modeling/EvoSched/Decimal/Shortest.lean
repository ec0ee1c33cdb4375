import EvoSched.Decimal.Fixed

set_option autoImplicit false

namespace EvoSched.Decimal

open Binary64 (spacing stepBits)

/-- Four times the ends of the interval of numbers that round to the double with `steps` steps.
The gap below a power of two is half the gap above it. -/
def interval (steps : Nat) : Nat × Nat :=
  let gap := Nat.pow 2 (spacing steps)
  let below := if steps = Nat.pow 2 steps.log2 && gap ≠ 1 then gap else 2 * gap
  (4 * steps - below, 4 * steps + 2 * gap)

/-- Tells whether `digits * 10 ^ exponent` rounds to the double with `steps` steps. The ends of the
interval do so where the significand is even. -/
def roundsTo (steps digits : Nat) (exponent : Int) : Bool :=
  let (low, high) := interval steps
  let value := 4 * digits * Nat.pow 10 exponent.toNat * Nat.pow 2 stepBits
  let scale := Nat.pow 10 (-exponent).toNat
  if steps / Nat.pow 2 (spacing steps) % 2 = 0 then low * scale ≤ value && value ≤ high * scale
  else low * scale < value && value < high * scale

/-- The exponent of the leading decimal digit of a positive number of steps. -/
def leadingExponent (steps : Nat) : Int :=
  ((Nat.toDigits 10 (steps * Nat.pow 10 400 / Nat.pow 2 stepBits)).length : Int) - 401

/-- The decimal of the grid `10 ^ exponent` that is nearest to the double, if one of its two
neighbours on the grid reads back. -/
def onGrid (steps : Nat) (exponent : Int) : Option Nat :=
  let numerator := steps * Nat.pow 10 (-exponent).toNat
  let denominator := Nat.pow 2 stepBits * Nat.pow 10 exponent.toNat
  let below := numerator / denominator
  let near := Binary64.roundHalfEven numerator denominator
  let far := 2 * below + 1 - near
  if roundsTo steps near exponent then some near
  else if roundsTo steps far exponent then some far
  else none

/-- Searches grids of `17 - more` significant digits and up. -/
def searchGrids (steps : Nat) (leading : Int) : Nat → Nat × Int
  | 0 =>
    let exponent := leading - 16
    ((onGrid steps exponent).getD 0, exponent)
  | more + 1 =>
    let exponent := leading - 15 + more
    match onGrid steps exponent with
    | some found => (found, exponent)
    | none => searchGrids steps leading more

def dropZeros (s : List Char) : List Char :=
  (s.reverse.dropWhile (· == '0')).reverse

/-- Digits of the shortest decimal, and the power of ten of the first of them. -/
def shortestDigits (steps : Nat) : List Char × Int :=
  let (found, exponent) := searchGrids steps (leadingExponent steps) 16
  let all := Nat.toDigits 10 found
  (dropZeros all, exponent + all.length - 1)

/-- Digits with the point where it stands: an exponent is written from `10 ^ 16` on and below
`10 ^ -4`, with its sign and at least two digits. -/
def layout (ds : List Char) (power : Int) : String :=
  if -4 ≤ power && power < 16 then
    if power < 0 then "0." ++ String.ofList (List.replicate (-power - 1).toNat '0' ++ ds)
    else
      let count := power.toNat + 1
      let whole := ds.take count ++ List.replicate (count - ds.length) '0'
      let rest := ds.drop count
      String.ofList (whole ++ '.' :: if rest.isEmpty then ['0'] else rest)
  else
    let tail := if ds.length ≤ 1 then [] else '.' :: ds.drop 1
    let size := power.natAbs
    String.ofList (ds.take 1 ++ tail) ++ "e" ++ (if power < 0 then "-" else "+") ++
      (if size < 10 then "0" else "") ++ toString size

def shortest (x : Float) : String :=
  match Binary64.read x with
  | .nan => "nan"
  | .infinite negative => sign negative ++ "inf"
  | .finite negative steps =>
    if steps = 0 then sign negative ++ "0.0"
    else
      let (ds, power) := shortestDigits steps
      sign negative ++ layout ds power

end EvoSched.Decimal
