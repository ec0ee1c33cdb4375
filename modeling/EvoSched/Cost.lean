import EvoSched.Problem
import EvoSched.Sequence

set_option autoImplicit false

namespace EvoSched

variable {α : Type} [Scalar α]

/-- What a job costs on a node: processing time, memory and transfers, each at its price. -/
def Node.charge (node : Node α) (job : Job α) : α :=
  node.perSecond * job.length / node.capacity + node.perMemory * job.memory +
    node.perTransfer * (job.input + job.output)

/-- The charge, or a fault on a node without capacity. -/
def Node.charge? (node : Node α) (job : Job α) : Except Fault α :=
  if node.capacity == Scalar.zero then .error .divisionByZero else .ok (node.charge job)

/-- Lower bounds of a problem, against which fitness measures an outcome. -/
structure Bounds (α : Type) where
  minTime : α
  minCost : α
  deriving DecidableEq, Repr

namespace Problem

def totalLength (problem : Problem α) : α := Scalar.sum (problem.jobs.map (·.length))

def totalCapacity (problem : Problem α) : α := Scalar.sum (problem.nodes.map (·.capacity))

/-- The makespan if work could be split evenly over all capacity. -/
def minTime (problem : Problem α) : Except Fault α :=
  if problem.totalCapacity == Scalar.zero then .error .divisionByZero
  else .ok (problem.totalLength / problem.totalCapacity)

/-- What a job costs on the node that charges it least. -/
def cheapest (problem : Problem α) (job : Job α) : Except Fault α := do
  let charges ← problem.nodes.mapM (·.charge? job)
  match Scalar.minimum? charges with
  | none => .error .emptyMinimum
  | some least => .ok least

/-- The cost if each job ran on its cheapest node. -/
def minCost (problem : Problem α) : Except Fault α := do
  let least ← problem.jobs.mapM problem.cheapest
  pure (Scalar.sum least)

def timeBound (problem : Problem α) : Except Fault α := do
  problem.check
  problem.minTime

def costBound (problem : Problem α) : Except Fault α := do
  problem.check
  problem.minCost

/-- The bounds of an acceptable problem. -/
def bounds (problem : Problem α) : Except Fault (Bounds α) := do
  problem.check
  let minTime ← problem.minTime
  let minCost ← problem.minCost
  pure ⟨minTime, minCost⟩

end Problem

/-- What an assignment leads to: the time and cost of each node, the longest time and the whole
cost. -/
structure Outcome (α : Type) where
  makespan : α
  totalCost : α
  nodeTimes : List α
  nodeCosts : List α
  deriving DecidableEq, Repr

/-- The jobs whose gene is `k`, in job order. -/
def assigned (genes : List Int) (jobs : List (Job α)) (k : Nat) : List (Job α) :=
  ((genes.zip jobs).filter fun pair => pair.1 == (k : Int)).map (·.2)

def Node.time (node : Node α) (jobs : List (Job α)) : α :=
  Scalar.sum (jobs.map (·.length)) / node.capacity

def Node.cost (node : Node α) (jobs : List (Job α)) : α :=
  Scalar.sum (jobs.map node.charge)

namespace Problem

def nodeTimes (problem : Problem α) (genes : List Int) : List α :=
  problem.nodes.mapIdx fun k node => node.time (assigned genes problem.jobs k)

def nodeCosts (problem : Problem α) (genes : List Int) : List α :=
  problem.nodes.mapIdx fun k node => node.cost (assigned genes problem.jobs k)

/-- The outcome of running job `i` on the node that gene `i` names. -/
def outcome (problem : Problem α) (genes : List Int) : Except Fault (Outcome α) :=
  if genes.length ≠ problem.jobs.length then
    .error (.lengthMismatch genes.length problem.jobs.length)
  else
    match firstFailing (fun gene => 0 ≤ gene && gene < problem.nodes.length) 0 genes with
    | some (position, gene) => .error (.unknownNode position gene)
    | none =>
      if problem.nodes.any fun node => node.capacity == Scalar.zero then .error .divisionByZero
      else
        let times := problem.nodeTimes genes
        let costs := problem.nodeCosts genes
        match Scalar.maximum? times with
        | none => .error .emptyMaximum
        | some makespan => .ok ⟨makespan, Scalar.sum costs, times, costs⟩

end Problem

/-- How much of a value its lower bound explains. A value of zero meets its bound. -/
def boundRatio (bound value : α) : α :=
  if value == Scalar.zero then Scalar.one else bound / value

/-- Fitness: the bound ratios of time and cost, weighted. -/
def Bounds.fitness (bounds : Bounds α) (timeWeight makespan totalCost : α) : α :=
  timeWeight * boundRatio bounds.minTime makespan +
    (Scalar.one - timeWeight) * boundRatio bounds.minCost totalCost

end EvoSched
