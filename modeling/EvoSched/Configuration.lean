import EvoSched.Settings
import EvoSched.Workspace.Tables

set_option autoImplicit false

namespace EvoSched.Configuration

def requireKey (key : String) (config : Document) : Except Fault Unit := do
  if ← config.hasKey key then .ok () else .error (.invalid (.fieldMissing key))

/-- The files that a problem section names. The check looks for a path first, as loading does, but
it works with the section itself. -/
def problemPaths (section_ : Document) : Except Fault (List Document) :=
  match section_ with
  | .text _ => .ok [section_]
  | .map entries =>
    if let some path := entries.lookup "path" then .ok [path]
    else if let (some jobs, some nodes) := (entries.lookup "jobs_csv", entries.lookup "nodes_csv")
    then .ok [jobs, nodes]
    else .error (.invalid .problemSource)
  | _ => .error (.invalid .problemShape)

def checkPath (ws : Workspace) (given : Document) : Except Fault Unit := do
  let path ← Path.ofDocument given
  if ← ws.contains path then .ok ()
  else .error (.invalid (.problemFileMissing given.shown))

def checkPaths (ws : Workspace) : List Document → Except Fault Unit
  | [] => .ok ()
  | given :: rest => do
    checkPath ws given
    checkPaths ws rest

/-- Finds every file of a problem section. -/
def checkProblem (ws : Workspace) (section_ : Document) : Except Fault Unit :=
  problemPaths section_ >>= checkPaths ws

def checkOutput : Document → Except Fault Unit
  | .map entries =>
    if (entries.lookup "root").isSome then .ok ()
    else .error (.invalid (.fieldMissing "output.root"))
  | _ => .error (.invalid (.notMap "output"))

def checkSettings (settings : Document) : Except Fault Unit := do
  match settings with
  | .null | .map _ => discard (Settings.ofDocument settings)
  | _ => .error (.invalid (.notMap "ga"))

/-- Checks a run configuration: both sections, the files of the problem, and the settings. -/
def check (ws : Workspace) (config : Document) : Except Fault Unit := do
  requireKey "problem" config
  requireKey "output" config
  checkProblem ws (← config.valueAt "problem")
  let output ← config.valueAt "output"
  checkOutput output
  checkSettings (config.getOrNull "ga")

end EvoSched.Configuration
