import EvoSched.Problem.Form
import EvoSched.Workspace.Tables

set_option autoImplicit false

namespace EvoSched

namespace Problem

def load (ws : Workspace) (given : String) : Except Fault (Problem Float) := do
  let entries ← ws.loadEntries given
  ofEntries given entries

/-- Saves a problem as a document file. Where a whole number in it cannot be written, that is only
found out behind the opening of the file, which is left without text. -/
def save (path : Path) (overwrite : Bool) (problem : Problem Float) : FilesM Unit := do
  if problem.toDocument.isWritable then
    Workspace.save path overwrite (.document problem.toDocument)
  else
    Workspace.save path overwrite (.text "")
    throw .wholeTooLong

end Problem

def Job.loadTable (ws : Workspace) (path : Path) : Except Fault (List (Job Float)) := do
  let rows ← ws.loadTable path ["length"]
  readEach Job.ofDocument 0 rows

def Node.loadTable (ws : Workspace) (path : Path) : Except Fault (List (Node Float)) := do
  let rows ← ws.loadTable path ["capacity"]
  readEach Node.ofDocument 0 rows

end EvoSched
