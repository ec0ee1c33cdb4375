import EvoSched.Random.Seed
import EvoSched.Random.Source
import EvoSched.Scalar.Double

set_option autoImplicit false

namespace EvoSched

inductive Stream where
  /-- Units that start over at the end, with the units still to come. -/
  | cycle (units rest : List Float)
  /-- A counter whose steps are mixed. -/
  | counter (state : UInt64)
  | seeded (generator : Permuted)

namespace Stream

def mixed (state : UInt64) : UInt64 :=
  let z := (state ^^^ (state >>> 30)) * 0xBF58476D1CE4E5B9
  let z := (z ^^^ (z >>> 27)) * 0x94D049BB133111EB
  z ^^^ (z >>> 31)

def unit : Stream → Float × Stream
  | cycle units (u :: rest) => (u, cycle units rest)
  | cycle units [] =>
    match units with
    | [] => (Scalar.zero, cycle [] [])
    | u :: rest => (u, cycle units rest)
  | counter state =>
    let state := state + 0x9E3779B97F4A7C15
    (Binary64.nearest false ((mixed state).toNat / Nat.pow 2 11) (Nat.pow 2 53), counter state)
  | seeded g =>
    let (u, g) := g.unit
    (u, seeded g)

/-- The greatest whole number that is not above a double. -/
def floor (x : Float) : Except Fault Int :=
  match Binary64.read x with
  | .nan => .error (.unreadable .notANumber)
  | .infinite _ => .error .infiniteWhole
  | .finite negative steps =>
    .ok ((if negative then -(steps : Int) else steps) / Nat.pow 2 Binary64.stepBits)

/-- A whole number in proportion to the next unit. -/
def scaledDraw (low high : Int) : Draw Stream Int := fun s =>
  if high ≤ low then .error (.emptyRange low) s
  else
    let (u, s) := s.unit
    match Binary64.ofInt? (high - low) with
    | none => .error .tooLarge s
    | some range => ofResult ((floor (u * range)).map (low + ·)) s

def draw (low high : Int) : Draw Stream Int
  | seeded g =>
    match g.draw low high with
    | .ok (n, g) => .ok n (seeded g)
    | .error fault => .error fault (seeded g)
  | s => scaledDraw low high s

/-- A seeded stream looks at the range first, and then takes no negative count. -/
def negativeCount (low high : Int) : Stream → Option Fault
  | seeded _ => some ((Permuted.rangeFault? low high).getD .negativeCount)
  | _ => none

instance : Source Stream Float where
  unit := unit
  draw := draw
  negativeCount := negativeCount

/-- The stream of a seed. Without one, fresh `entropy` takes its place. -/
def ofSeed (entropy : Nat) (seed : Document) : Except Fault Stream :=
  (Seed.generator entropy seed).map seeded

theorem ofSeed_of_seed {seed : Document} (some_seed : seed ≠ .null) (entropy entropy' : Nat) :
    ofSeed entropy seed = ofSeed entropy' seed := by
  unfold ofSeed
  cases seed with
  | null => contradiction
  | _ => rfl

theorem exists_generator {entropy : Nat} {seed : Document} {stream : Stream}
    (started : ofSeed entropy seed = .ok stream) : ∃ g, stream = .seeded g := by
  unfold ofSeed at started
  cases made : Seed.generator entropy seed with
  | error fault =>
      rw [made] at started
      cases started
  | ok g =>
      rw [made] at started
      cases started
      exact ⟨g, rfl⟩

theorem high_le_of_draw {low high n : Int} {g : Permuted} {t : Stream}
    (drawn : draw low high (.seeded g) = .ok n t) : high ≤ (Nat.pow 2 63 : Nat) := by
  apply Int.not_lt.1
  intro above
  have fault : ∃ fault, Permuted.rangeFault? low high = some fault := by
    unfold Permuted.rangeFault?
    rw [if_pos above]
    split
    · exact ⟨_, rfl⟩
    · exact ⟨_, rfl⟩
  obtain ⟨fault, refused⟩ := fault
  unfold draw Permuted.draw at drawn
  simp only [refused] at drawn
  cases drawn

def seeding : Seeding Stream where
  start := ofSeed
  start_of_seed := ofSeed_of_seed
  high_le started drawn := by
    obtain ⟨g, rfl⟩ := exists_generator started
    exact high_le_of_draw drawn

end Stream

end EvoSched
