import EvoSched.Generation

set_option autoImplicit false

namespace EvoSched

structure Record (α : Type) where
  generation : Int
  bestFitness : α
  meanFitness : α
  bestTime : α
  bestCost : α
  populationSize : Int
  elapsed : α
  /-- The mutations of the generation, where they are known. -/
  mutations : Option Nat
  deriving DecidableEq, Repr

inductive StopReason where
  | optimal
  | maxGenerations
  | maxSeconds
  deriving DecidableEq, Repr

def StopReason.text : StopReason → String
  | optimal => "optimal"
  | maxGenerations => "max_generations"
  | maxSeconds => "max_seconds"

structure RunResult (α : Type) where
  best : Candidate α
  population : Population α
  history : List (Record α)
  generations : Nat
  stopReason : StopReason
  bounds : Bounds α
  elapsed : α
  strategy : StrategyName
  totalMutations : Nat
  deriving DecidableEq, Repr

structure Progress (α : Type) where
  started : α
  generation : Nat
  history : List (Record α)

namespace Run

variable {σ α : Type} [Scalar α]

/-- Reads the clock: `clock k` is its reading number `k`. -/
def now (clock : Nat → α) : SearchM σ α α := fun s =>
  .ok (clock s.readings) { s with readings := s.readings + 1 }

def record (clock : Nat → α) (started : α) (generation : Nat) : SearchM σ α (Record α) := do
  let s ← get
  let best ← ofResult (s.population.member 0)
  let t ← now clock
  pure
    { generation
      bestFitness := best.fitness
      meanFitness := s.population.meanFitness
      bestTime := best.time
      bestCost := best.cost
      populationSize := s.population.size
      elapsed := t - started
      mutations := some s.journal.length }

def progressLine (r : Record α) : String :=
  "  Generation " ++ padLeft 4 (toString r.generation) ++ ": best=" ++
    Scalar.fixed 6 r.bestFitness ++ " mean=" ++ Scalar.fixed 6 r.meanFitness ++ " time=" ++
    Scalar.fixed 4 r.bestTime ++ " cost=" ++ Scalar.fixed 4 r.bestCost ++ " mutations=" ++
    toString (r.mutations.getD 0)

def report (plan : Plan α) (r : Record α) : SearchM σ α Unit :=
  if plan.verbose then Search.say (progressLine r) else pure ()

/-- The first population, evaluated and cut to size. -/
def begin [Source σ α] (plan : Plan α) (problem : Problem α) : SearchM σ α Unit := do
  modify fun s => { s with journal := [] }
  let _ ← Search.measure problem
  Search.populate plan problem.jobs.length (problem.nodes.length - 1)
  Search.evaluate plan problem
  Search.select plan

/-- The time is up. The clock is read only where there is a limit. -/
def timeUp (plan : Plan α) (clock : Nat → α) (started : α) : SearchM σ α Bool :=
  match plan.maxSeconds with
  | none => pure false
  | some limit => do
    let t ← now clock
    pure (limit.reached (t - started))

/-- The reason to stop before another generation, if there is one; `more` generations are left. -/
def verdict (plan : Plan α) (clock : Nat → α) (started : α) (more : Nat) :
    SearchM σ α (Option StopReason) := do
  if (← Search.getPopulation).hasOptimum then pure (some .optimal)
  else if more = 0 then pure (some .maxGenerations)
  else if ← timeUp plan clock started then pure (some .maxSeconds)
  else pure none

/-- Every `reportEvery`-th generation is reported. -/
def isReported (plan : Plan α) (generation : Nat) : Except Fault Bool :=
  if plan.reportEvery = 0 then .error .moduloByZero
  else .ok (generation % plan.reportEvery == 0)

/-- Records a generation that has just evolved, and reports it if its turn has come. -/
def note (plan : Plan α) (clock : Nat → α) (progress : Progress α) :
    SearchM σ α (Progress α) := do
  let generation := progress.generation + 1
  let r ← record clock progress.started generation
  if ← ofResult (isReported plan generation) then report plan r
  pure { progress with generation, history := progress.history ++ [r] }

def loop [Source σ α] (wheel : Wheel σ α) (plan : Plan α) (problem : Problem α)
    (clock : Nat → α) : Nat → Progress α → SearchM σ α (Progress α × StopReason)
  | 0, progress => do
    let reason ← verdict plan clock progress.started 0
    pure (progress, reason.getD .maxGenerations)
  | more + 1, progress => do
    match ← verdict plan clock progress.started (more + 1) with
    | some reason => pure (progress, reason)
    | none =>
      Search.evolve wheel plan problem
      let progress ← note plan clock progress
      loop wheel plan problem clock more progress

def closing (generations : Nat) (reason : StopReason) (elapsed : α) (best : Candidate α) :
    List String := [
  "Stopped after " ++ toString generations ++ " generations (" ++ reason.text ++ ") in " ++
    Scalar.fixed 3 elapsed ++ "s",
  "  Best fitness: " ++ Scalar.fixed 6 best.fitness ++ " time=" ++ Scalar.fixed 4 best.time ++
    " cost=" ++ Scalar.fixed 4 best.cost]

def conclude (plan : Plan α) (clock : Nat → α) (progress : Progress α) (reason : StopReason) :
    SearchM σ α (RunResult α) := do
  let t ← now clock
  let s ← get
  let elapsed := t - progress.started
  let best ← ofResult (s.population.member 0)
  if plan.verbose then Search.sayEach (closing progress.generation reason elapsed best)
  let bounds ← Search.knownBounds
  pure
    { best
      population := s.population
      history := progress.history
      generations := progress.generation
      stopReason := reason
      bounds
      elapsed
      strategy := plan.strategy.name
      totalMutations := (progress.history.map fun r => r.mutations.getD 0).foldl (· + ·) 0 }

def first (plan : Plan α) (clock : Nat → α) (started : α) : SearchM σ α (Progress α) := do
  let r ← record clock started 0
  report plan r
  pure ⟨started, 0, [r]⟩

/-- Starts a run: the progress after the first population. -/
def launch [Source σ α] (plan : Plan α) (problem : Problem α) (clock : Nat → α) :
    SearchM σ α (Progress α) := do
  ofResult problem.check
  let started ← now clock
  begin plan problem
  first plan clock started

/-- A whole run on a wheel. -/
def runOn [Source σ α] (wheel : Wheel σ α) (plan : Plan α) (problem : Problem α)
    (clock : Nat → α) : SearchM σ α (RunResult α) := do
  let progress ← launch plan problem clock
  let (progress, reason) ← loop wheel plan problem clock plan.maxGenerations progress
  conclude plan clock progress reason

/-- A whole run, on the roulette wheel. -/
def run [Source σ α] (plan : Plan α) (problem : Problem α) (clock : Nat → α) :
    SearchM σ α (RunResult α) :=
  runOn Wheel.spin plan problem clock

end Run

end EvoSched
