import EvoSched.Fault
import EvoSched.Scalar

set_option autoImplicit false

namespace EvoSched

/-- A computation that draws from a source and may fault; the source is where the fault left it. -/
abbrev Draw (σ β : Type) := EStateM Fault σ β

class Source (σ : Type) (α : outParam Type) where
  unit : σ → α × σ
  /-- A whole number from `low` on, below `high`. A range that has none is a fault. -/
  draw : Int → Int → Draw σ Int
  /-- The fault of asking for a negative count of numbers of a range, if it is one. -/
  negativeCount : Int → Int → σ → Option Fault := fun _ _ _ => none

/-- A source keeps its promises: units lie in `[0, 1)`, whole numbers in their range. -/
class LawfulSource (σ : Type) (α : outParam Type) [Scalar α] [Source σ α] : Prop where
  unit_mem : ∀ s : σ, (Scalar.zero : α) ≤ (Source.unit s).1 ∧ (Source.unit s).1 < Scalar.one
  draw_mem : ∀ (s : σ) (low high : Int), low < high →
    ∃ n s', Source.draw low high s = .ok n s' ∧ low ≤ n ∧ n < high

/-- How seeds start sources. Without a seed fresh entropy takes its place, and it counts only then.
What is started draws no numbers beyond the signed ones of 64 bits. -/
structure Seeding (σ : Type) [Source σ Float] where
  start : Nat → Document → Except Fault σ
  start_of_seed {seed : Document} : seed ≠ .null → ∀ entropy entropy' : Nat,
    start entropy seed = start entropy' seed
  high_le {entropy : Nat} {seed : Document} {s t : σ} {low high n : Int} :
    start entropy seed = .ok s → Source.draw low high s = .ok n t → high ≤ (Nat.pow 2 63 : Nat)

namespace Draw

variable {σ α : Type} [Source σ α]

def unit : Draw σ α := fun s => let (u, s) := Source.unit s; .ok u s

/-- A whole number from `low` on, below `high`. -/
def below (low high : Int) : Draw σ Int := Source.draw low high

/-- A scalar between two others, in proportion to the next unit. -/
def between [Scalar α] (low high : α) : Draw σ α := do
  let u ← unit
  pure (low + (high - low) * u)

def repeated (low high : Int) : Nat → Draw σ (List Int)
  | 0 => pure []
  | count + 1 => do
    let n ← below low high
    let rest ← repeated low high count
    pure (n :: rest)

/-- As many draws from one range. A negative count is none, where the source takes it. -/
def many (low high count : Int) : Draw σ (List Int) := fun s =>
  match if count < 0 then Source.negativeCount low high s else none with
  | some fault => .error fault s
  | none => repeated low high count.toNat s

end Draw

end EvoSched
