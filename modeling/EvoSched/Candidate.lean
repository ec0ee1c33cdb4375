import EvoSched.Cost
import EvoSched.Document.Reading

set_option autoImplicit false

namespace EvoSched

/-- Gene `i` is the node that runs job `i`, from 0 to `top`. -/
structure Candidate (α : Type) where
  genes : List Int
  top : Int
  fitness : α
  time : α
  cost : α
  deriving DecidableEq, Repr

def inRange (top gene : Int) : Bool := 0 ≤ gene && gene ≤ top

namespace Candidate

variable {α : Type} [Scalar α]

/-- Fitness, time and cost before evaluation. -/
def unscored : α := Scalar.ofInt (-1)

def fresh (genes : List Int) (top : Int) : Candidate α :=
  ⟨genes, top, unscored, unscored, unscored⟩

/-- Every gene names a node. -/
def Valid {α : Type} (c : Candidate α) : Prop := ∀ gene ∈ c.genes, inRange c.top gene = true

/-- A candidate as it is, once its genes are found to name nodes. -/
def checked (c : Candidate α) : Except Fault (Candidate α) :=
  match firstFailing (inRange c.top) 0 c.genes with
  | some (position, gene) => .error (.geneOutside position gene c.top)
  | none => .ok c

/-- A candidate from untyped genes: all are read as whole numbers before any is checked. -/
def ofDocuments (genes : List Document) (top : Int) (fitness time cost : α) :
    Except Fault (Candidate α) := do
  let genes ← genes.mapM Document.toWhole
  checked ⟨genes, top, fitness, time, cost⟩

def isEvaluated (c : Candidate α) : Bool := !(c.fitness == unscored)

def sameGenes {α : Type} (c d : Candidate α) : Bool := c.genes == d.genes

/-- Equal fitness and equal genes. -/
def isDuplicateOf (c d : Candidate α) : Bool := c.fitness == d.fitness && c.sameGenes d

def gene {α : Type} (c : Candidate α) (position : Int) : Except Fault Int := nth c.genes position

/-- The candidate with another gene. The gene is checked before the position. -/
def setGene {α : Type} (c : Candidate α) (position gene : Int) : Except Fault (Candidate α) :=
  if inRange c.top gene then do
    let genes ← setNth c.genes position gene
    pure { c with genes }
  else .error (.valueOutside gene c.top)

def geneText {α : Type} (c : Candidate α) : String :=
  " ".intercalate (c.genes.map toString)

/-- The candidate with the scores of an outcome. -/
def scored (c : Candidate α) (bounds : Bounds α) (timeWeight : α) (outcome : Outcome α) :
    Candidate α :=
  { c with
    fitness := bounds.fitness timeWeight outcome.makespan outcome.totalCost
    time := outcome.makespan
    cost := outcome.totalCost }

def evaluate (problem : Problem α) (bounds : Bounds α) (timeWeight : α) (c : Candidate α) :
    Except Fault (Candidate α) := do
  let outcome ← problem.outcome c.genes
  pure (c.scored bounds timeWeight outcome)

end Candidate

end EvoSched
