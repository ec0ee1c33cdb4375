import EvoSched.Problem.File

set_option autoImplicit false

namespace EvoSched

/-- A document file, or a table of jobs and one of nodes. What names a file is still untyped. -/
inductive ProblemSource where
  | document (path : Document)
  | tables (jobs nodes : Document)

namespace ProblemSource

/-- The source that a section describes. A document file comes before tables. -/
def ofSection : Document → Except Fault ProblemSource
  | .text s => .ok (document (.text s))
  | .map entries =>
    match entries.lookup "path" with
    | some path => .ok (document path)
    | none =>
      match entries.lookup "jobs_csv", entries.lookup "nodes_csv" with
      | some jobs, some nodes => .ok (tables jobs nodes)
      | _, _ => .error (.invalid .problemSource)
  | _ => .error (.invalid .problemShape)

def paths : ProblemSource → List Document
  | document path => [path]
  | tables jobs nodes => [jobs, nodes]

def load (ws : Workspace) : ProblemSource → Except Fault (Problem Float)
  | document given => do
    let _ ← Path.ofDocument given
    Problem.load ws given.shown
  | tables jobs nodes => do
    let jobsPath ← Path.ofDocument jobs
    let jobs ← Job.loadTable ws jobsPath
    let nodesPath ← Path.ofDocument nodes
    let nodes ← Node.loadTable ws nodesPath
    pure ⟨jobs, nodes⟩

def loadSection (ws : Workspace) (section_ : Document) : Except Fault (Problem Float) :=
  ofSection section_ >>= load ws

end ProblemSource

end EvoSched
