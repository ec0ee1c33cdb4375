import EvoSched.Document
import EvoSched.Scalar.Double

set_option autoImplicit false

namespace EvoSched

/-- A number that remembers whether it was given as a whole one. -/
inductive Number where
  | whole (n : Int)
  | real (x : Float)

namespace Number

/-- The order of two numbers, exactly. A NaN has no place in it. -/
def compare? : Number → Number → Option Ordering
  | whole m, whole n => some (compare m n)
  | whole m, real x => Binary64.compareInt? m x
  | real x, whole n => (Binary64.compareInt? n x).map Ordering.swap
  | real x, real y => if x < y then some .lt else if y < x then some .gt
    else if x == y then some .eq else none

def toDocument : Number → Document
  | whole n => .whole n
  | real x => .real x

def toFloat : Number → Float
  | whole n => Binary64.ofInt n
  | real x => x

/-- The number in a value. A truth value is none. -/
def ofDocument? : Document → Option Number
  | .whole n => some (whole n)
  | .real x => some (real x)
  | _ => none

def isRate : Number → Bool
  | whole n => 0 ≤ n && n ≤ 1
  | real x => Scalar.zero ≤ x && x ≤ Scalar.one

/-- Not refused as zero or less. A NaN is not. -/
def isSpan : Number → Bool
  | whole n => 0 < n
  | real x => !(x ≤ Scalar.zero : Bool)

end Number

end EvoSched
