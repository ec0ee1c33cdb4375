import EvoSched.Settings

set_option autoImplicit false

namespace EvoSched

/-- How a generation follows from the one before: by replacing members in place, or by breeding a
new population, which may be merged with the old one. -/
inductive Strategy where
  | replace
  | grow (mergeParents : Bool)
  deriving DecidableEq, Repr

def Strategy.name : Strategy → StrategyName
  | replace => .replace
  | grow _ => .grow

/-- A limit on elapsed time, which may be a whole number no scalar holds. -/
inductive Limit (α : Type) where
  | whole (n : Int)
  | scalar (x : α)

def Limit.reached {α : Type} [Scalar α] (limit : Limit α) (elapsed : α) : Bool :=
  match limit with
  | whole n => Scalar.intLe n elapsed
  | scalar x => x ≤ elapsed

structure Plan (α : Type) where
  populationSize : Nat
  targetSize : Nat
  maxGenerations : Nat
  maxSeconds : Option (Limit α)
  mutationRate : α
  crossoverRate : α
  timeWeight : α
  elitism : Nat
  strategy : Strategy
  workers : Nat
  verbose : Bool
  reportEvery : Nat

namespace Settings

def limitOf : Number → Limit Float
  | .whole n => .whole n
  | .real x => .scalar x

def plan (s : Settings) : Plan Float where
  populationSize := s.populationSize
  targetSize := s.targetSize
  maxGenerations := s.maxGenerations
  maxSeconds := s.maxSeconds.map limitOf
  mutationRate := s.mutationRate.toFloat
  crossoverRate := s.crossoverRate.toFloat
  timeWeight := s.timeWeight.toFloat
  elitism := s.elitism
  strategy :=
    match s.strategy with
    | .replace => .replace
    | .grow => .grow (!s.mergeParents.isEmptyLike)
  workers := s.workers
  verbose := !s.verbose.isEmptyLike
  reportEvery := s.reportEvery

end Settings

end EvoSched
