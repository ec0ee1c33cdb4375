import EvoSched.Candidate
import EvoSched.Ranking
import EvoSched.Scalar.Pairwise

set_option autoImplicit false

namespace EvoSched

/-- Members and the sum of their fitness, as last taken. -/
structure Population (α : Type) where
  members : List (Candidate α)
  total : α
  deriving DecidableEq, Repr

/-- Text with blanks in front, at least `width` characters long. -/
def padLeft (width : Nat) (s : String) : String :=
  String.ofList (List.replicate (width - s.length) ' ') ++ s

namespace Population

variable {α : Type} [Scalar α]

def empty : Population α := ⟨[], Scalar.zero⟩

def size {α : Type} (p : Population α) : Nat := p.members.length

def member {α : Type} (p : Population α) (position : Int) : Except Fault (Candidate α) :=
  nth p.members position

def update {α : Type} (p : Population α) (position : Int)
    (change : Candidate α → Except Fault (Candidate α)) : Except Fault (Population α) := do
  let old ← p.member position
  let new ← change old
  let members ← setNth p.members position new
  pure { p with members }

/-- A fitness that compares with others: a NaN does not. -/
def isComparable (c : Candidate α) : Bool := c.fitness == c.fitness

/-- Members by fitness, the fittest first; members of equal fitness keep their order. Where not
every fitness compares, the order is the one that merging runs leads to. -/
def sorted (members : List (Candidate α)) : List (Candidate α) :=
  if members.all isComparable then members.mergeSort fun a b => !(a.fitness < b.fitness : Bool)
  else Ranking.descending (fun a b => a.fitness < b.fitness) members

def sort (p : Population α) : Population α := { p with members := sorted p.members }

def totalFitness (members : List (Candidate α)) : α := Scalar.sum (members.map (·.fitness))

def recompute (p : Population α) : Population α := { p with total := totalFitness p.members }

/-- Sorts and keeps the members in front of a cut. -/
def truncate (p : Population α) (position : Int) : Population α :=
  let members := sorted p.members
  recompute { p with members := members.take (cutAt members.length position) }

def meanFitness (p : Population α) : α := Scalar.mean (p.members.map (·.fitness))

def includes (p : Population α) (c : Candidate α) : Bool :=
  p.members.any (·.isDuplicateOf c)

def hasOptimum (p : Population α) : Bool :=
  p.members.any fun c => c.fitness == Scalar.one

/-- One line for each member: rank, genes and scores. -/
def summary (p : Population α) : List String :=
  p.members.mapIdx fun rank c =>
    padLeft 3 (toString rank) ++ ": " ++ c.geneText ++ " | fitness=" ++ Scalar.fixed 6 c.fitness ++
      " time=" ++ Scalar.fixed 4 c.time ++ " cost=" ++ Scalar.fixed 4 c.cost

end Population

end EvoSched
