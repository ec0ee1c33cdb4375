import EvoSched.Fault
import EvoSched.Scalar

set_option autoImplicit false

namespace EvoSched

/-- A unit of work, run whole on one node. -/
structure Job (α : Type) where
  length : α
  memory : α
  input : α
  output : α
  /-- Processing elements asked for. -/
  pes : Int
  id : Option String
  deriving DecidableEq, Repr

structure Node (α : Type) where
  capacity : α
  perSecond : α
  perMemory : α
  perTransfer : α
  id : Option String
  deriving DecidableEq, Repr

structure Problem (α : Type) where
  jobs : List (Job α)
  nodes : List (Node α)
  deriving DecidableEq, Repr

/-- An id, or `default` where it is missing or empty. -/
def labelOr (default : String) : Option String → String
  | none => default
  | some id => if id.isEmpty then default else id

def Job.label {α : Type} (job : Job α) (index : Nat) : String :=
  labelOr ("job_" ++ toString index) job.id

def Node.label {α : Type} (node : Node α) (index : Nat) : String :=
  labelOr ("node_" ++ toString index) node.id

variable {α : Type} [Scalar α]

/-- A measure of a job or node is acceptable if it is finite and not negative. -/
def acceptable (x : α) : Bool :=
  Scalar.isFinite x && !(x < Scalar.zero : Bool)

def checkField (item label field : String) (x : α) : Except Fault Unit :=
  if acceptable x then .ok ()
  else .error (.invalid (.badField item label field (Scalar.text x)))

def Job.check (job : Job α) (index : Nat) : Except Fault Unit := do
  let label := labelOr (toString index) job.id
  checkField "Job" label "length" job.length
  checkField "Job" label "mem_required" job.memory
  checkField "Job" label "input_size" job.input
  checkField "Job" label "output_size" job.output
  if job.pes.natAbs ≥ Binary64.overflowBound then .error .tooLarge
  else if job.pes < 0 then
    .error (.invalid (.badField "Job" label "pes" (toString job.pes)))
  else .ok ()

def Node.check (node : Node α) (index : Nat) : Except Fault Unit := do
  let label := labelOr (toString index) node.id
  checkField "Node" label "capacity" node.capacity
  checkField "Node" label "cost_per_second" node.perSecond
  checkField "Node" label "cost_per_mem" node.perMemory
  checkField "Node" label "cost_per_bw" node.perTransfer
  if node.capacity ≤ Scalar.zero then
    .error (.invalid (.noCapacity label (Scalar.text node.capacity)))
  else .ok ()

/-- Checks each item with its position, up to the first fault. -/
def checkEach {β : Type} (check : β → Nat → Except Fault Unit) : Nat → List β → Except Fault Unit
  | _, [] => .ok ()
  | index, item :: rest => do
    check item index
    checkEach check (index + 1) rest

/-- A problem has a job and a node, acceptable measures, and only nodes with some capacity. -/
def Problem.check (problem : Problem α) : Except Fault Unit := do
  if problem.jobs.isEmpty then .error (.invalid .noJobs)
  else if problem.nodes.isEmpty then .error (.invalid .noNodes)
  else
    checkEach Job.check 0 problem.jobs
    checkEach Node.check 0 problem.nodes

end EvoSched
