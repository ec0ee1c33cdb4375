import EvoSched.Generation

/-!
Sessions: a search worked on step by step. An operation names what to do with the search or its
population; applying it gives an answer, or a fault that leaves what was done before it.
-/

set_option autoImplicit false

namespace EvoSched

/-- A candidate as it is given: genes still untyped and unchecked. -/
structure Draft (α : Type) where
  genes : List Document
  top : Int
  fitness : α
  time : α
  cost : α

def Draft.candidate {α : Type} (d : Draft α) : Except Fault (Candidate α) :=
  Candidate.ofDocuments d.genes d.top d.fitness d.time d.cost

inductive Crossing where
  | onePoint
  | twoPoint
  | twoPointPair
  deriving DecidableEq, Repr

inductive Operation (α : Type) where
  | measure
  | minTime
  | minCost
  | populate (length top : Int)
  | evaluate
  | score (position : Int)
  | hasOptimum
  | evolve
  | replacePass
  | breed
  | select
  | mutate
  | mutateFrom (rate : α) (elitism : Int)
  | mutateMember (position : Int)
  | spin
  | partner (position attempts : Int)
  | cross (crossing : Crossing) (first second : Int) (keep : Bool)
  | recompute
  | mean
  | sort
  | truncate (position : Int)
  | summary
  | size
  | member (position : Int)
  | add (draft : Draft α)
  | extend (drafts : List (Draft α))
  | addCopy (position : Int)
  | setGene (position job : Int) (value : Document)
  | gene (position job : Int)
  | geneText (position : Int)
  | profile (position : Int)
  | compare (first second : Int)
  | includes (draft : Draft α)
  | setFitness (position : Int) (value : α)
  | setTotal (value : α)
  | unit

inductive Answer (α : Type) where
  | nothing
  | scalar (x : α)
  | truth (b : Bool)
  | whole (n : Int)
  | sizes (members length : Nat)
  | text (s : String)
  | texts (lines : List String)
  | journal (entries : List Mutation)
  | bounds (b : Bounds α)
  | candidate (c : Candidate α)
  | candidates (cs : List (Candidate α))
  | change (c : GeneChange)
  | profile (length : Nat) (evaluated : Bool)
  | likeness (sameGenes duplicate : Bool)

namespace Search

variable {σ α : Type} [Scalar α]

def updateMember (position : Int) (change : Candidate α → Except Fault (Candidate α)) :
    SearchM σ α Unit := do
  setPopulation (← ofResult ((← getPopulation).update position change))

def append (candidates : List (Candidate α)) : SearchM σ α Unit := do
  let p ← getPopulation
  setPopulation { p with members := p.members ++ candidates }

def memberAt (position : Int) : SearchM σ α (Candidate α) := do
  ofResult ((← getPopulation).member position)

def children [Source σ α] (crossing : Crossing) (a b : Candidate α) :
    Draw σ (List (Candidate α)) :=
  match crossing with
  | .onePoint => do
    let child ← a.onePoint b
    pure [child]
  | .twoPoint => do
    let child ← a.twoPoint b
    pure [child]
  | .twoPointPair => do
    let (first, second) ← a.twoPointPair b
    pure [first, second]

def candidatesOf (drafts : List (Draft α)) : Except Fault (List (Candidate α)) :=
  drafts.mapM Draft.candidate

def apply [Source σ α] (plan : Plan α) (problem : Problem α) :
    Operation α → SearchM σ α (Answer α)
  | .measure => return .bounds (← measure problem)
  | .minTime => return .scalar (← knownBounds).minTime
  | .minCost => return .scalar (← knownBounds).minCost
  | .populate length top => do
    populate plan length top
    return .nothing
  | .evaluate => do
    evaluate plan problem
    return .nothing
  | .score position => return .scalar (← score plan problem position)
  | .hasOptimum => return .truth (← getPopulation).hasOptimum
  | .evolve => do
    evolve Wheel.spin plan problem
    return .journal (← get).journal
  | .replacePass => do
    replacePass Wheel.spin plan problem
    return .nothing
  | .breed => do
    let p ← getPopulation
    setPopulation (← onSource (breed Wheel.spin plan p))
    return .nothing
  | .select => do
    select plan
    return .nothing
  | .mutate => do
    mutate plan
    return .journal (← get).journal
  | .mutateFrom rate elitism => return .texts ((← mutateFrom rate elitism).map Mutation.text)
  | .mutateMember position => do
    let c ← memberAt position
    let (change, mutant) ← onSource c.mutate
    updateMember position fun _ => .ok mutant
    return .change change
  | .spin => do
    let p ← getPopulation
    return .whole (← onSource (Wheel.spin p)).rank
  | .partner position attempts => do
    let p ← getPopulation
    let parent ← memberAt position
    return .whole (← onSource (Wheel.partner Wheel.spin p parent attempts)).rank
  | .cross crossing first second keep => do
    let a ← memberAt first
    let b ← memberAt second
    let offspring ← onSource (children crossing a b)
    if keep then append offspring
    return .candidates offspring
  | .recompute => do
    setPopulation (← getPopulation).recompute
    return .scalar (← getPopulation).total
  | .mean => return .scalar (← getPopulation).meanFitness
  | .sort => do
    setPopulation (← getPopulation).sort
    return .nothing
  | .truncate position => do
    setPopulation ((← getPopulation).truncate position)
    return .nothing
  | .summary => return .texts (← getPopulation).summary
  | .size => do
    let p ← getPopulation
    return .sizes p.size p.size
  | .member position => return .candidate (← memberAt position)
  | .add draft => do
    append [← ofResult draft.candidate]
    return .nothing
  | .extend drafts => do
    append (← ofResult (candidatesOf drafts))
    return .nothing
  | .addCopy position => do
    append [← memberAt position]
    return .nothing
  | .setGene position job value => do
    updateMember position fun c => do
      let gene ← value.toWhole
      c.setGene job gene
    return .nothing
  | .gene position job => do
    let c ← memberAt position
    return .whole (← ofResult (c.gene job))
  | .geneText position => return .text (← memberAt position).geneText
  | .profile position => do
    let c ← memberAt position
    return .profile c.genes.length c.isEvaluated
  | .compare first second => do
    let a ← memberAt first
    let b ← memberAt second
    return .likeness (a.sameGenes b) (a.isDuplicateOf b)
  | .includes draft => do
    let c ← ofResult draft.candidate
    return .truth ((← getPopulation).includes c)
  | .setFitness position value => do
    updateMember position fun c => .ok { c with fitness := value }
    return .nothing
  | .setTotal value => do
    let p ← getPopulation
    setPopulation { p with total := value }
    return .nothing
  | .unit => return .scalar (← onSource Draw.unit)

end Search

/-- An operation that was applied: its answer or fault, what it reported, and the population it
left. -/
structure Step (α : Type) where
  operation : Operation α
  result : Except Fault (Answer α)
  printed : String
  population : Population α

namespace Step

variable {α : Type}

/-- With this step a generation begins, and with it a journal. -/
def beginsGeneration (step : Step α) : Bool :=
  match step.operation with
  | .evolve => true
  | _ => false

def journal? (step : Step α) : Option (List Mutation) :=
  match step.result with
  | .ok (.journal entries) => some entries
  | _ => none

/-- The journal that comes next after a step, in the same generation. -/
def nextJournal? (later : List (Step α)) : Option (List Mutation) :=
  (later.takeWhile fun step => !step.beginsGeneration).findSome? journal?

/-- The step with its journal as complete as the steps after it show it. -/
def settled (step : Step α) (later : List (Step α)) : Step α :=
  match step.journal?, nextJournal? later with
  | some _, some entries => { step with result := .ok (.journal entries) }
  | _, _ => step

end Step

namespace Search

variable {σ α : Type} [Scalar α]

/-- Applies operations one after the other, also after one that faults. A generation has one
journal, and every step that answers with it shows it as it stands in the end. -/
def transcript [Source σ α] (plan : Plan α) (problem : Problem α) :
    List (Operation α) → Search σ α → List (Step α)
  | [], _ => []
  | operation :: rest, s =>
    let (result, t) :=
      match apply plan problem operation { s with printed := "" } with
      | .ok answer t => (Except.ok answer, t)
      | .error fault t => (Except.error fault, t)
    let later := transcript plan problem rest t
    Step.settled ⟨operation, result, t.printed, t.population⟩ later :: later

end Search

end EvoSched
