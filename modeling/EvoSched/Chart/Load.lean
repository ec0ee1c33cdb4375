import EvoSched.Chart
import EvoSched.Cost

set_option autoImplicit false

namespace EvoSched

variable {α : Type} [Scalar α]

/-- The position of the greatest value, the first of several. A value that is not even equal to
itself counts as greater than all others. -/
def greatest (xs : List α) : Nat :=
  match xs.findIdx? fun x => !(x == x) with
  | some position => position
  | none =>
    match Scalar.maximum? xs with
    | none => 0
    | some top => (xs.findIdx? fun x => x == top).getD 0

namespace Problem

/-- Completion time and cost of each node. The slowest node stands out. -/
def loadCharts (problem : Problem α) (genes : List Int) : Except Fault (List (BarChart α)) := do
  let outcome ← problem.outcome genes
  let labels := problem.nodes.mapIdx fun index node => node.label index
  pure [
    { title := "Completion time (makespan " ++ Scalar.fixed 3 outcome.makespan ++ ")"
      labels
      bars := outcome.nodeTimes
      highlighted := [greatest outcome.nodeTimes] },
    { title := "Cost (total " ++ Scalar.fixed 3 outcome.totalCost ++ ")"
      labels
      bars := outcome.nodeCosts
      highlighted := [] }]

end Problem

end EvoSched
