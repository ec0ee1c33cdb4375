import EvoSched.Candidate
import EvoSched.Random.Source

set_option autoImplicit false

namespace EvoSched

/-- A segment of a ring of genes, from `first` on, before `second`; it may pass the end. -/
structure Cut where
  first : Int
  second : Int
  deriving DecidableEq, Repr

namespace Cut

def covers (cut : Cut) (length i : Int) : Bool :=
  if length ≤ cut.second then cut.first ≤ i || i < cut.second - length
  else cut.first ≤ i && i < cut.second

def mask (cut : Cut) (length : Nat) : List Bool :=
  (List.range length).map fun (i : Nat) => cut.covers length i

theorem length_mask (cut : Cut) (length : Nat) : (cut.mask length).length = length := by
  simp [mask]

/-- A segment that starts at a drawn position and holds between one position and all. -/
def draw {σ α : Type} [Source σ α] (length : Int) : Draw σ Cut := do
  let first ← Draw.below 0 length
  let second ← Draw.below (first + 1) (first + length + 1)
  pure ⟨first, second⟩

end Cut

/-- Genes of a child of `base`: the mask says where the donor's gene is taken. Each gene is checked
against `top`. Positions past the mask hold node 0. -/
def blendGenes (top : Int) : List Bool → List Int → List Int → Except Fault (List Int)
  | [], base, _ => .ok (base.map fun _ => 0)
  | fromDonor :: mask, base, donor =>
    match (if fromDonor then donor else base) with
    | [] => .error .positionOutside
    | gene :: _ =>
      if inRange top gene then
        match base with
        | [] => .error .slotOutside
        | _ :: base => do
          let rest ← blendGenes top mask base donor.tail
          pure (gene :: rest)
      else .error (.valueOutside gene top)

namespace Candidate

variable {σ α : Type} [Scalar α]

/-- A child of `base` with the donor's genes where the mask says so. -/
def blend (base donor : Candidate α) (mask : List Bool) : Except Fault (Candidate α) := do
  let genes ← blendGenes base.top mask base.genes donor.genes
  pure (fresh genes base.top)

/-- A child with the first genes of `a`, up to a drawn cut, and the others of `b`. -/
def onePoint [Source σ α] (a b : Candidate α) : Draw σ (Candidate α) := do
  let cut ← Draw.below 0 (a.genes.length + 1)
  ofResult (a.blend b ((List.range a.genes.length).map fun (i : Nat) => !((i : Int) < cut : Bool)))

/-- A child of `a` with the genes of `b` in a drawn segment. -/
def twoPoint [Source σ α] (a b : Candidate α) : Draw σ (Candidate α) := do
  let cut ← Cut.draw a.genes.length
  ofResult (a.blend b (cut.mask a.genes.length))

/-- Two children that exchange a drawn segment of their parents' genes. -/
def twoPointPair [Source σ α] (a b : Candidate α) : Draw σ (Candidate α × Candidate α) := do
  let cut ← Cut.draw a.genes.length
  let first ← ofResult (a.blend b (cut.mask a.genes.length))
  let second ← ofResult (b.blend a (cut.mask a.genes.length))
  pure (first, second)

end Candidate

end EvoSched
