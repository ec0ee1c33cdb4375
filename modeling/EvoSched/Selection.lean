import EvoSched.Population
import EvoSched.Random.Source

set_option autoImplicit false

namespace EvoSched

/-- A member found in a population, with its rank. -/
structure Pick (α : Type) where
  rank : Nat
  member : Candidate α
  deriving DecidableEq, Repr

/-- A way to find a member of a population by drawing. -/
abbrev Wheel (σ α : Type) := Population α → Draw σ (Pick α)

namespace Wheel

variable {σ α : Type} [Scalar α]

/-- Walks the members, adding up fitness from `spun` on, until `position` is reached. -/
def walk (position : α) : α → Nat → List (Candidate α) → Option (Pick α)
  | _, _, [] => none
  | spun, rank, c :: rest =>
    let spun := spun + c.fitness
    if position ≤ spun then some ⟨rank, c⟩ else walk position spun (rank + 1) rest

def pickAt {α : Type} (members : List (Candidate α)) (position : Int) : Except Fault (Pick α) :=
  match resolve members.length position with
  | none => .error .positionOutside
  | some rank =>
    match members[rank]? with
    | none => .error .positionOutside
    | some member => .ok ⟨rank, member⟩

/-- One spin. Without a positive total every member has the same share; where the walk does not
reach the position, the last member is taken. -/
def spin [Source σ α] (p : Population α) : Draw σ (Pick α) :=
  match p.members.getLast? with
  | none => throw .emptyPopulation
  | some last =>
    if Scalar.zero < p.total then do
      let u ← Draw.unit
      pure ((walk (u * p.total) Scalar.zero 0 p.members).getD ⟨p.size - 1, last⟩)
    else do
      let position ← Draw.below 0 p.size
      ofResult (pickAt p.members position)

/-- Spins until a member with other genes than `parent` comes up, `more` times again at most. -/
def spinAgain {α : Type} (wheel : Wheel σ α) (p : Population α) (parent : Candidate α) :
    Nat → Draw σ (Pick α)
  | 0 => wheel p
  | more + 1 => do
    let pick ← wheel p
    if pick.member.sameGenes parent then spinAgain wheel p parent more else pure pick

/-- A second parent, of other genes where `attempts` spins find one. There is always one spin. -/
def partner {α : Type} (wheel : Wheel σ α) (p : Population α) (parent : Candidate α)
    (attempts : Int) : Draw σ (Pick α) :=
  wheel.spinAgain p parent (attempts - 1).toNat

/-- How often a partner is looked for where nothing else is said. -/
def defaultAttempts : Int := 100

end Wheel

end EvoSched
