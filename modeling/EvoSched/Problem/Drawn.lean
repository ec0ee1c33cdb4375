import EvoSched.Decimal.Fixed
import EvoSched.Problem
import EvoSched.Random.Source
import EvoSched.Scalar.Double

set_option autoImplicit false

namespace EvoSched

variable {σ : Type} [Source σ Float]

def drawMeasure (low high : Int) : Draw σ Float := do
  let n ← Draw.below low high
  pure (Binary64.ofInt n)

/-- A fog node's price, of five decimal places. -/
def drawPrice : Draw σ Float := do
  let price ← Draw.between 0.001 0.01
  pure (Decimal.roundTo 5 price)

def drawJob (index : Nat) : Draw σ (Job Float) := do
  let length ← drawMeasure 1000 20001
  let memory ← drawMeasure 50 501
  let input ← drawMeasure 100 1001
  let output ← drawMeasure 100 1001
  pure ⟨length, memory, input, output, 1, some ("job_" ++ toString index)⟩

def cloudNode : Node Float := ⟨44800, 0.1, 0.05, 0.1, some "cloud"⟩

def drawFogNode (index : Nat) : Draw σ (Node Float) := do
  let capacity ← drawMeasure 500 3001
  let perSecond ← drawPrice
  let perMemory ← drawPrice
  let perTransfer ← drawPrice
  pure ⟨capacity, perSecond, perMemory, perTransfer, some ("fog_" ++ toString index)⟩

/-- Draws an item for each index from `index` on. -/
def drawEach {β : Type} (item : Nat → Draw σ β) : Nat → Nat → Draw σ (List β)
  | _, 0 => pure []
  | index, count + 1 => do
    let x ← item index
    let others ← drawEach item (index + 1) count
    pure (x :: others)

/-- A problem of `jobs` jobs, and of `fogNodes` fog nodes besides the cloud node. -/
def Problem.drawn (jobs fogNodes : Nat) : Draw σ (Problem Float) := do
  let jobs ← drawEach drawJob 0 jobs
  let fog ← drawEach drawFogNode 0 fogNodes
  pure ⟨jobs, cloudNode :: fog⟩

end EvoSched
