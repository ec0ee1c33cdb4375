import EvoSched.Binary64
import EvoSched.Fault

/-!
The seeded generator: a 128-bit congruential state whose output is folded and rotated, seeded by
hashing the words of a whole number into a pool. Whole numbers below a bound come by
multiplication, with rejection of the draws that would make some of them more likely.
-/

set_option autoImplicit false

namespace EvoSched

/-- The 32-bit digits of a number, the lowest first; zero has one. -/
def wordsOf (n : Nat) : List UInt32 :=
  if n < Nat.pow 2 32 then [UInt32.ofNat n]
  else UInt32.ofNat (n % Nat.pow 2 32) :: wordsOf (n / Nat.pow 2 32)
termination_by n
decreasing_by
  have wide : 1 < Nat.pow 2 32 := by decide
  exact Nat.div_lt_self (by omega) wide

namespace SeedPool

def firstHash : UInt32 := 0x43B0D7E5

def secondHash : UInt32 := 0x8B51F9DD

/-- Hashes a word with a running constant, which moves on. -/
def hash (factor constant word : UInt32) : UInt32 × UInt32 :=
  let next := constant * factor
  let v := (word ^^^ constant) * next
  (v ^^^ (v >>> 16), next)

def mixHash := hash 0x931E8875

def outputHash := hash 0x58F38DED

def mix (x y : UInt32) : UInt32 :=
  let r := 0xCA01F9DD * x - 0x4973F715 * y
  r ^^^ (r >>> 16)

/-- Four pool words and the running constant. -/
structure Pool where
  words : List UInt32
  constant : UInt32

def hashEach (step : UInt32 → UInt32 → UInt32 × UInt32) :
    UInt32 → List UInt32 → List UInt32 × UInt32
  | constant, [] => ([], constant)
  | constant, word :: rest =>
    let (v, next) := step constant word
    let (vs, last) := hashEach step next rest
    (v :: vs, last)

/-- Mixes a word into one place of the pool. -/
def stir (word : UInt32) (pool : Pool) (place : Nat) : Pool :=
  let (v, constant) := mixHash pool.constant word
  ⟨pool.words.modify place (mix · v), constant⟩

/-- Mixes each pool word into the three others. -/
def spread (pool : Pool) : Pool :=
  (List.range 4).foldl (fun pool source =>
    ((List.range 4).filter (· != source)).foldl (fun pool place =>
      stir (pool.words.getD source 0) pool place) pool) pool

def ofWords (words : List UInt32) : Pool :=
  let (filled, constant) := hashEach mixHash firstHash
    ((List.range 4).map fun i => words.getD i 0)
  (words.drop 4).foldl (fun pool word =>
    (List.range 4).foldl (stir word) pool) (spread ⟨filled, constant⟩)

def output (pool : Pool) : List UInt32 :=
  (hashEach outputHash secondHash (pool.words ++ pool.words)).1

end SeedPool

/-- Generator state. The upper half of a 64-bit draw may be kept for the next 32-bit draw. -/
structure Permuted where
  state : BitVec 128
  increment : BitVec 128
  kept : Option (BitVec 32)
  deriving Repr

namespace Permuted

def multiplier : BitVec 128 := 0x2360ED051FC65DA44385DF649FCCF645#128

def step (g : Permuted) : Permuted :=
  { g with state := g.state * multiplier + g.increment }

/-- Two words as a number, the lower first. -/
def pair (low high : UInt32) : Nat := low.toNat + high.toNat * Nat.pow 2 32

def ofWords (words : List UInt32) : Permuted :=
  match SeedPool.output (SeedPool.ofWords words) with
  | [a, b, c, d, e, f, g, h] =>
    let start := BitVec.ofNat 128 (pair a b * Nat.pow 2 64 + pair c d)
    let increment := (BitVec.ofNat 128 (pair e f * Nat.pow 2 64 + pair g h) <<< 1) ||| 1#128
    let first := step ⟨0#128, increment, none⟩
    step { first with state := first.state + start }
  | _ => ⟨0#128, 1#128, none⟩

/-- The next 64-bit word: the halves of the state folded together and rotated. -/
def next64 (g : Permuted) : Nat × Permuted :=
  let g := g.step
  let folded := (g.state >>> 64).setWidth 64 ^^^ g.state.setWidth 64
  ((folded.rotateRight (g.state >>> 122).toNat).toNat, g)

/-- The next 32-bit word: a kept one, or the lower half of a 64-bit word, keeping the upper. -/
def next32 (g : Permuted) : Nat × Permuted :=
  match g.kept with
  | some word => (word.toNat, { g with kept := none })
  | none =>
    let (word, g) := g.next64
    (word % Nat.pow 2 32, { g with kept := some (BitVec.ofNat 32 (word / Nat.pow 2 32)) })

/-- The next unit: 53 bits of a word. -/
def unit (g : Permuted) : Float × Permuted :=
  let (word, g) := g.next64
  (Binary64.nearest false (word / Nat.pow 2 11) (Nat.pow 2 53), g)

/-- Draws words until the low part of `word * range` is no smaller than `threshold`; the high part
is the answer. The fuel exceeds the period of the generator. -/
def accept (bits range threshold : Nat) (next : Permuted → Nat × Permuted) :
    Nat → Permuted → Nat × Permuted
  | 0, g => (0, g)
  | fuel + 1, g =>
    let (word, g) := next g
    if word * range % Nat.pow 2 bits < threshold then accept bits range threshold next fuel g
    else (word * range / Nat.pow 2 bits, g)

/-- A number below `range`, which is positive and at most `2 ^ bits`. -/
def reduce (bits range : Nat) (next : Permuted → Nat × Permuted) (g : Permuted) :
    Nat × Permuted :=
  if range = Nat.pow 2 bits then next g
  else accept bits range ((Nat.pow 2 bits - range) % range) next (Nat.pow 2 130) g

/-- A number below `range`. A range of one needs no draw. -/
def below (range : Nat) (g : Permuted) : Nat × Permuted :=
  if range = 1 then (0, g)
  else if range ≤ Nat.pow 2 32 then reduce 32 range next32 g
  else reduce 64 range next64 g

/-- Why a range is refused: it has to be one of signed 64-bit numbers, and not an empty one. -/
def rangeFault? (low high : Int) : Option Fault :=
  if low < -(Nat.pow 2 63) then some .rangeTooLow
  else if Nat.pow 2 63 < high then some .rangeTooHigh
  else if high ≤ low then some (.emptyRange low)
  else none

/-- A whole number from `low` on, below `high`. -/
def draw (low high : Int) (g : Permuted) : Except Fault (Int × Permuted) :=
  match rangeFault? low high with
  | some fault => .error fault
  | none =>
    let (n, g) := g.below (high - low).toNat
    .ok (low + n, g)

end Permuted

end EvoSched
