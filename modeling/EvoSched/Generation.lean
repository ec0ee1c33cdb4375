import EvoSched.Search

/-!
Generations: how a population follows from the one before. Replacing offers each rank a child that
has to be as fit and new; breeding fills a new population with copies and pairs of children. Parents
are found by a wheel.
-/

set_option autoImplicit false

namespace EvoSched

namespace Search

variable {σ α : Type} [Scalar α] [Source σ α]

/-- The member that follows `parent`: itself, or a child that is no less fit and duplicates no
member. -/
def offer (wheel : Wheel σ α) (plan : Plan α) (problem : Problem α) (bounds : Option (Bounds α))
    (p : Population α) (parent : Candidate α) : Draw σ (Candidate α) := do
  let u ← Draw.unit
  if u < plan.crossoverRate then
    let other ← wheel p
    let child ← parent.twoPoint other.member
    let bounds ← ofResult (requireBounds bounds)
    let child ← ofResult (child.evaluate problem bounds plan.timeWeight)
    if parent.fitness ≤ child.fitness && !p.includes child then pure child else pure parent
  else pure parent

def offerEach (wheel : Wheel σ α) (plan : Plan α) (problem : Problem α)
    (bounds : Option (Bounds α)) (p : Population α) :
    List (Candidate α) → Draw σ (List (Candidate α))
  | [] => pure []
  | parent :: rest => do
    let next ← offer wheel plan problem bounds p parent
    let others ← offerEach wheel plan problem bounds p rest
    pure (next :: others)

/-- Replaces members by children, all at once. -/
def replacePass (wheel : Wheel σ α) (plan : Plan α) (problem : Problem α) :
    SearchM σ α Unit := do
  let s ← get
  let p := s.population
  let members ← onSource (offerEach wheel plan problem s.bounds p p.members)
  setPopulation { p with members }

/-- The pairs of children that breeding from `size` members makes. -/
def pairCount (plan : Plan α) (size : Nat) : Except Fault Int :=
  let share := Scalar.ofInt size * plan.crossoverRate / Scalar.ofInt 2
  match Scalar.truncate? share with
  | some pairs => .ok pairs
  | none => .error (if share == share then .infiniteWhole else .unreadable .notANumber)

/-- A copy for slot `index`: of the member of that rank for the first slots, else of one found by
the wheel. -/
def copyFor {α : Type} (wheel : Wheel σ α) (plan : Plan α) (p : Population α) (index : Nat) :
    Draw σ (Candidate α) :=
  if index < plan.elitism then ofResult (p.member index)
  else do
    let pick ← wheel p
    pure pick.member

def copies {α : Type} (wheel : Wheel σ α) (plan : Plan α) (p : Population α) :
    List Nat → Draw σ (List (Candidate α))
  | [] => pure []
  | index :: rest => do
    let c ← copyFor wheel plan p index
    let others ← copies wheel plan p rest
    pure (c :: others)

def litter (wheel : Wheel σ α) (p : Population α) : Nat → Draw σ (List (Candidate α))
  | 0 => pure []
  | pairs + 1 => do
    let parent ← wheel p
    let other ← wheel.partner p parent.member Wheel.defaultAttempts
    let (a, b) ← parent.member.twoPointPair other.member
    let others ← litter wheel p pairs
    pure (a :: b :: others)

/-- A new population of the same size: copies first, then the pairs of children. -/
def breed (wheel : Wheel σ α) (plan : Plan α) (p : Population α) : Draw σ (Population α) := do
  let pairs ← ofResult (pairCount plan p.size)
  let kept ← copies wheel plan p (List.range (p.size - 2 * pairs).toNat)
  let children ← litter wheel p pairs.toNat
  pure { (Population.empty : Population α) with members := kept ++ children }

def evolveInPlace (wheel : Wheel σ α) (plan : Plan α) (problem : Problem α) :
    SearchM σ α Unit := do
  replacePass wheel plan problem
  mutate plan
  evaluate plan problem
  select plan

/-- The next generation by breeding. Merging takes the members out of the old population. -/
def evolveByBreeding (mergeParents : Bool) (wheel : Wheel σ α) (plan : Plan α)
    (problem : Problem α) : SearchM σ α Unit := do
  let p ← getPopulation
  let bred ← onSource (breed wheel plan p)
  let (_, mutated) ← aside bred (mutate plan)
  let pool ←
    if mergeParents then do
      setPopulation { p with members := [] }
      pure { mutated with members := mutated.members ++ p.members }
    else pure mutated
  let (_, next) ← aside pool do
    evaluate plan problem
    select plan
  setPopulation next

/-- The next generation, with a new journal. -/
def evolve (wheel : Wheel σ α) (plan : Plan α) (problem : Problem α) : SearchM σ α Unit := do
  modify fun s => { s with journal := [] }
  match plan.strategy with
  | .replace => evolveInPlace wheel plan problem
  | .grow mergeParents => evolveByBreeding mergeParents wheel plan problem

end Search

end EvoSched
