import EvoSched.Candidate
import EvoSched.Scalar.Double
import EvoSched.Workspace.Tables

set_option autoImplicit false

namespace EvoSched.Assignment

variable {α : Type} [Scalar α]

def columns : List String := ["job_id", "node_index", "node_id", "length", "cost"]

/-- The row of job `index` on the node that `gene` names. -/
def row (problem : Problem α) (index : Nat) (gene : Int) : Except Fault (List String) := do
  let job ← nth problem.jobs index
  let node ← nth problem.nodes gene
  let cost ← node.charge? job
  pure [job.label index, toString gene, labelOr ("node_" ++ toString gene) node.id,
    Scalar.text job.length, Scalar.fixed 10 cost]

/-- The rows from job `index` on, up to the first that faults. -/
def rows (problem : Problem α) : Nat → List Int → List (List String) × Option Fault
  | _, [] => ([], none)
  | index, gene :: rest =>
    match row problem index gene with
    | .error fault => ([], some fault)
    | .ok cells =>
      let (others, fault) := rows problem (index + 1) rest
      (cells :: others, fault)

def save (path : Path) (overwrite : Bool) (problem : Problem α) (genes : List Int) :
    FilesM Unit :=
  Workspace.saveRows path overwrite columns (rows problem 0 genes)

/-- The assignment in a table, as an unevaluated candidate. -/
def load (ws : Workspace) (path : Path) (top : Int) : Except Fault (Candidate α) := do
  let rows ← ws.loadTable path ["node_index"]
  Candidate.ofDocuments (rows.map (·.getOrNull "node_index")) top
    Candidate.unscored Candidate.unscored Candidate.unscored

end EvoSched.Assignment
