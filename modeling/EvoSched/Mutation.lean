import EvoSched.Population
import EvoSched.Random.Source

set_option autoImplicit false

namespace EvoSched

/-- A gene that changed its value; the new value may equal the old one. -/
structure GeneChange where
  job : Int
  old : Int
  new : Int
  deriving DecidableEq, Repr

structure Mutation where
  rank : Int
  change : GeneChange
  deriving DecidableEq, Repr

def Mutation.text (m : Mutation) : String :=
  "mutate(rank=" ++ toString m.rank ++ "): job " ++ toString m.change.job ++ " node " ++
    toString m.change.old ++ " -> " ++ toString m.change.new

variable {σ α : Type} [Scalar α]

/-- Draws a job and a node for it. -/
def Candidate.mutate [Source σ α] (c : Candidate α) : Draw σ (GeneChange × Candidate α) := do
  let job ← Draw.below 0 c.genes.length
  let new ← Draw.below 0 (c.top + 1)
  let old ← ofResult (c.gene job)
  let mutant ← ofResult (c.setGene job new)
  pure (⟨job, old, new⟩, mutant)

namespace Population

/-- Mutates the member at a rank with probability `rate`. -/
def mutateRank [Source σ α] (rate : α) (p : Population α) (rank : Int) :
    Draw σ (List Mutation × Population α) := do
  let u ← Draw.unit
  if u < rate then
    let old ← ofResult (p.member rank)
    let (change, mutant) ← old.mutate
    let members ← ofResult (setNth p.members rank mutant)
    pure ([⟨rank, change⟩], { p with members })
  else pure ([], p)

/-- The ranks that mutation may reach: those from `elitism` on. -/
def openRanks {α : Type} (p : Population α) (elitism : Int) : List Int :=
  (List.range (p.size - elitism).toNat).map fun (k : Nat) => elitism + k

end Population

end EvoSched
