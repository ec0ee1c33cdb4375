/-!
Scalars: the numbers that costs, times and fitness values are made of. The cost model and the
search are written for any scalar; they run on doubles and are reasoned about on rationals too.
-/

set_option autoImplicit false

namespace EvoSched

class Scalar (α : Type) extends Add α, Sub α, Mul α, Div α, LT α, LE α, BEq α where
  decLt : DecidableLT α
  decLe : DecidableLE α
  /-- The scalar nearest to a whole number. -/
  ofInt : Int → α
  isFinite : α → Bool
  /-- The whole part, toward zero, where there is one. -/
  truncate? : α → Option Int
  /-- Whether `n ≤ x`, exactly, also where `n` is no scalar. -/
  intLe : Int → α → Bool
  /-- How a scalar shows in a message. -/
  text : α → String
  fixed : Nat → α → String

namespace Scalar

variable {α : Type} [Scalar α]

instance : DecidableLT α := Scalar.decLt

instance : DecidableLE α := Scalar.decLe

def zero : α := ofInt 0

def one : α := ofInt 1

/-- The sum from left to right, from zero on, and each partial sum is rounded: nothing is kept of
what rounding loses, as a compensated sum would. -/
def sum (xs : List α) : α := xs.foldl (· + ·) zero

/-- The first of the greatest: a later one replaces it only where it compares greater. -/
def maximum? : List α → Option α
  | [] => none
  | x :: xs => some (xs.foldl (fun best y => if best < y then y else best) x)

def minimum? : List α → Option α
  | [] => none
  | x :: xs => some (xs.foldl (fun best y => if y < best then y else best) x)

end Scalar

end EvoSched
