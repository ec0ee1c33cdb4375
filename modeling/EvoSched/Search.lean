import EvoSched.Crossover
import EvoSched.Mutation
import EvoSched.Plan
import EvoSched.Selection

set_option autoImplicit false

namespace EvoSched

structure Search (σ α : Type) where
  source : σ
  population : Population α
  bounds : Option (Bounds α)
  /-- The mutations since the generation began. -/
  journal : List Mutation
  /-- What has been reported so far. -/
  printed : String
  /-- How often the clock has been read. -/
  readings : Nat

def Search.start {σ α : Type} [Scalar α] (source : σ) : Search σ α :=
  ⟨source, Population.empty, none, [], "", 0⟩

abbrev SearchM (σ α β : Type) := EStateM Fault (Search σ α) β

namespace Search

variable {σ α : Type}

def onSource {β : Type} (act : Draw σ β) : SearchM σ α β := fun s =>
  match act s.source with
  | .ok x source => .ok x { s with source }
  | .error fault source => .error fault { s with source }

/-- A step on another population, returned with the result; the own population stays. -/
def aside {β : Type} (other : Population α) (act : SearchM σ α β) :
    SearchM σ α (β × Population α) := fun s =>
  match act { s with population := other } with
  | .ok x t => .ok (x, t.population) { t with population := s.population }
  | .error fault t => .error fault { t with population := s.population }

def getPopulation : SearchM σ α (Population α) := do return (← get).population

def setPopulation (population : Population α) : SearchM σ α Unit :=
  modify fun s => { s with population }

def say (line : String) : SearchM σ α Unit :=
  modify fun s => { s with printed := s.printed ++ line ++ "\n" }

def sayEach : List String → SearchM σ α Unit
  | [] => pure ()
  | line :: rest => do
    say line
    sayEach rest

variable [Scalar α]

def measure (problem : Problem α) : SearchM σ α (Bounds α) := do
  let bounds ← ofResult problem.bounds
  modify fun s => { s with bounds := some bounds }
  pure bounds

def requireBounds (bounds : Option (Bounds α)) : Except Fault (Bounds α) :=
  match bounds with
  | some bounds => .ok bounds
  | none => .error .boundsMissing

def knownBounds : SearchM σ α (Bounds α) := do
  let s ← get
  ofResult (requireBounds s.bounds)

def drawCandidate [Source σ α] (length top : Int) : Draw σ (Candidate α) := do
  let genes ← Draw.many 0 (top + 1) length
  ofResult (Candidate.checked (Candidate.fresh genes top))

def drawCandidates [Source σ α] (length top : Int) : Nat → Draw σ (List (Candidate α))
  | 0 => pure []
  | count + 1 => do
    let c ← drawCandidate length top
    let others ← drawCandidates length top count
    pure (c :: others)

def populate [Source σ α] (plan : Plan α) (length top : Int) : SearchM σ α Unit := do
  let members ← onSource (drawCandidates length top plan.populationSize)
  setPopulation { Population.empty with members }

/-- Evaluates members in order, up to the first that faults; the others stay as they are. -/
def evaluateInOrder (evaluate : Candidate α → Except Fault (Candidate α)) :
    List (Candidate α) → List (Candidate α) × Option Fault
  | [] => ([], none)
  | c :: rest =>
    match evaluate c with
    | .error fault => (c :: rest, some fault)
    | .ok c =>
      let (others, fault) := evaluateInOrder evaluate rest
      (c :: others, fault)

/-- Evaluates every member, then sums up and sorts. Members are scored one after the other; with
several workers they are scored only once all outcomes are known. -/
def evaluate (plan : Plan α) (problem : Problem α) : SearchM σ α Unit := fun s =>
  match s.bounds with
  | none => .error .boundsMissing s
  | some bounds =>
    let p := s.population
    let finish (members : List (Candidate α)) : Search σ α :=
      { s with population := ({ p with members } : Population α).recompute.sort }
    if 1 < plan.workers ∧ 1 < p.size then
      match p.members.mapM fun c => problem.outcome c.genes with
      | .error fault => .error fault s
      | .ok outcomes =>
        .ok () (finish
          (List.zipWith (fun c outcome => c.scored bounds plan.timeWeight outcome)
            p.members outcomes))
    else
      match evaluateInOrder (Candidate.evaluate problem bounds plan.timeWeight) p.members with
      | (members, some fault) => .error fault { s with population := { p with members } }
      | (members, none) => .ok () (finish members)

def score (plan : Plan α) (problem : Problem α) (position : Int) : SearchM σ α α := do
  let p ← getPopulation
  let c ← ofResult (p.member position)
  let bounds ← knownBounds
  let c ← ofResult (c.evaluate problem bounds plan.timeWeight)
  let members ← ofResult (setNth p.members position c)
  setPopulation { p with members }
  pure c.fitness

def mutateRanks [Source σ α] (rate : α) : List Int → SearchM σ α (List Mutation)
  | [] => pure []
  | rank :: rest => do
    let (entries, p) ← onSource ((← getPopulation).mutateRank rate rank)
    setPopulation p
    let others ← mutateRanks rate rest
    pure (entries ++ others)

/-- Mutates the members from rank `elitism` on, each with probability `rate`. -/
def mutateFrom [Source σ α] (rate : α) (elitism : Int) : SearchM σ α (List Mutation) := do
  mutateRanks rate ((← getPopulation).openRanks elitism)

def mutate [Source σ α] (plan : Plan α) : SearchM σ α Unit := do
  let entries ← mutateFrom plan.mutationRate plan.elitism
  modify fun s => { s with journal := s.journal ++ entries }

def describe (title : String) : SearchM σ α Unit := do
  let p ← getPopulation
  say ("  " ++ title ++ " (" ++ toString p.size ++ " individuals, aggregate fitness " ++
    Scalar.fixed 6 p.total ++ "):")
  sayEach (p.summary.map ("    " ++ ·))

/-- Truncates to the target size. A verbose search reports both populations. -/
def select (plan : Plan α) : SearchM σ α Unit := do
  if plan.verbose then describe "Before Selection"
  setPopulation ((← getPopulation).truncate plan.targetSize)
  if plan.verbose then describe "After Selection"

end Search

end EvoSched
