import EvoSched.Binary64
import EvoSched.Text.Blank
import EvoSched.Text.Digit

/-!
Numerals: the texts that stand for a number. Blanks at the ends are dropped, digits of every
script count, and a single underscore may stand between two digits. Where digits of another base
are wanted, a beginning says so.
-/

set_option autoImplicit false

namespace EvoSched.Decimal

open EvoSched.Text (digitValue? strip)

/-- A digit of any script as its ASCII digit, any other character as itself. -/
def plainDigit (c : Char) : Char :=
  match digitValue? c with
  | some d => Nat.digitChar d
  | none => c

/-- Removes each underscore between two digits; nothing if another one is left. -/
def joinDigits (isDigit : Char → Bool) (afterDigit : Bool) : List Char → Option (List Char)
  | [] => some []
  | '_' :: c :: rest =>
    if afterDigit && isDigit c then (joinDigits isDigit true rest).map (c :: ·) else none
  | ['_'] => none
  | c :: rest => (joinDigits isDigit (isDigit c) rest).map (c :: ·)

def digitsValue (ds : List Char) : Nat :=
  ds.foldl (fun value c => 10 * value + (c.toNat - 48)) 0

/-- Splits a sign off; no sign counts as plus. -/
def splitSign : List Char → Bool × List Char
  | '-' :: rest => (true, rest)
  | '+' :: rest => (false, rest)
  | rest => (false, rest)

/-- The exponent after the letter: an optional sign and at least one digit. -/
def readExponent (s : List Char) : Option Int :=
  let (negative, ds) := splitSign s
  if ds.isEmpty || !ds.all Char.isDigit then none
  else some (if negative then -(digitsValue ds : Int) else digitsValue ds)

/-- An unsigned numeral as `mantissa * 10 ^ exponent`. At least one digit stands before or after
the point. -/
def readScientific (s : List Char) : Option (Nat × Int) :=
  let whole := s.takeWhile Char.isDigit
  let afterWhole := s.dropWhile Char.isDigit
  let (places, rest) :=
    match afterWhole with
    | '.' :: r => (r.takeWhile Char.isDigit, r.dropWhile Char.isDigit)
    | r => ([], r)
  if whole.isEmpty && places.isEmpty then none
  else
    let mantissa := digitsValue (whole ++ places)
    match rest with
    | [] => some (mantissa, -(places.length : Int))
    | c :: r =>
      if c == 'e' || c == 'E' then
        (readExponent r).map fun exponent => (mantissa, exponent - places.length)
      else none

/-- The double nearest to `± mantissa * 10 ^ exponent`. Beyond `10 ^ ± 400` the answer is known
without forming the power: `bits + 1` binary digits are at least `3 * (bits / 10)` decimal ones,
and no more than `bits / 3 + 2`. -/
def scientific (negative : Bool) (mantissa : Nat) (exponent : Int) : Float :=
  let bits := mantissa.log2
  if mantissa = 0 || (bits / 3 + 2 : Nat) + exponent < -400 then Binary64.ofSteps negative 0
  else if 400 < (3 * (bits / 10) : Nat) + exponent then Binary64.infinity negative
  else
    Binary64.nearest negative (mantissa * Nat.pow 10 exponent.toNat) (Nat.pow 10 (-exponent).toNat)

def readNamed (negative : Bool) (s : List Char) : Option Float :=
  let name := String.ofList (s.map Char.toLower)
  if name == "inf" || name == "infinity" then some (Binary64.infinity negative)
  else if name == "nan" then some (Float.ofBits 0x7FF8000000000000)
  else none

/-- The double that a text stands for. -/
def readReal (s : String) : Option Float := do
  let joined ← joinDigits Char.isDigit false (strip (s.toList.map plainDigit))
  let (negative, body) := splitSign joined
  match readNamed negative body with
  | some x => some x
  | none =>
    (readScientific body).map fun (mantissa, exponent) => scientific negative mantissa exponent

inductive WholeReading where
  | value (n : Int)
  | tooManyDigits (count : Nat)
  | malformed
  deriving DecidableEq, Repr

/-- The most digits a whole number may have, where it is read and where it is written. -/
def maxDigits : Nat := 4300

/-- Whether a whole number has few enough digits to be written. -/
def isWritable (n : Int) : Bool := (Nat.toDigits 10 n.natAbs).length ≤ maxDigits

/-- The whole number that a text stands for: an optional sign and digits. -/
def readWhole (s : String) : WholeReading :=
  let (negative, body) := splitSign (strip (s.toList.map plainDigit))
  let run := body.takeWhile fun c => c.isDigit || c == '_'
  match joinDigits Char.isDigit false run with
  | none => .malformed
  | some ds =>
    if maxDigits < ds.length then .tooManyDigits ds.length
    else if ds.isEmpty || run.length != body.length then .malformed
    else .value (if negative then -(digitsValue ds : Int) else digitsValue ds)

def hexValue? (c : Char) : Option Nat :=
  if c.isDigit then some (c.toNat - 48)
  else if 'a' ≤ c && c ≤ 'f' then some (c.toNat - 87)
  else if 'A' ≤ c && c ≤ 'F' then some (c.toNat - 55)
  else none

/-- The whole number that a text stands for: `0x` and hexadecimal digits. An underscore may also
stand ahead of the first of them. -/
def readHexadecimal (s : String) : Option Nat :=
  match strip (s.toList.map plainDigit) with
  | '0' :: 'x' :: body => do
    let joined ← joinDigits (fun c => (hexValue? c).isSome) true body
    let digits ← joined.mapM hexValue?
    if digits.isEmpty then none else some (digits.foldl (16 * · + ·) 0)
  | _ => none

end EvoSched.Decimal
