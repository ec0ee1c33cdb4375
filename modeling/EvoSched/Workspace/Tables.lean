import EvoSched.Table
import EvoSched.Workspace

set_option autoImplicit false

namespace EvoSched

/-- The path that a value names. Only a text names one. -/
def Path.ofDocument : Document → Except Fault Path
  | .text s => .ok (ofText s)
  | d => .error (.pathKind d.kind)

namespace Workspace

/-- The table in a file. A document has no columns. -/
def tableIn : Entry → Except Fault Table
  | .text s => .ok (Table.ofText s)
  | .figure _ => .error .undecodable
  | .document _ | .directory => .ok ⟨[], []⟩

/-- The rows of a table file that has all `required` columns. The header is read ahead of them. -/
def loadTable (ws : Workspace) (path : Path) (required : List String) :
    Except Fault (List Document) := do
  let table ← tableIn (← ws.findFile path (.tableMissing path.text))
  if !Table.isReadable table.header then .error (.fieldTooLong Table.fieldLimit)
  else if !table.hasColumns required then .error (.invalid (.columnsMissing path.text required))
  else if !table.rows.all Table.isReadable then .error (.fieldTooLong Table.fieldLimit)
  else .ok table.entries

def saveTable (path : Path) (overwrite : Bool) (table : Table) : FilesM Unit :=
  save path overwrite (.text table.text)

/-- Saves the rows that could be made. The fault that ended them leaves a table of those. -/
def saveRows (path : Path) (overwrite : Bool) (header : List String)
    (made : List (List String) × Option Fault) : FilesM Unit := do
  saveTable path overwrite ⟨header, made.1⟩
  match made.2 with
  | none => pure ()
  | some fault => throw fault

end Workspace

end EvoSched
