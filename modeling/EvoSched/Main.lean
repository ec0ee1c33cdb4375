import EvoSched.Chart.Sheet
import EvoSched.Command.Generate
import EvoSched.Command.Run
import Std.Time.Format

set_option autoImplicit false

namespace EvoSched.CommandLine

def probe (path : String) : IO (Option Entry) := do
  try
    let s ← IO.FS.readFile path
    return some (.text s)
  catch fault =>
    match fault with
    | .inappropriateType .. => return some .directory
    | _ => return none

/-- Loads the entries on the way along a path, up to one that is missing. -/
def loadAlong (path : Path) : Nat → Nat → Workspace → IO Workspace
  | _, 0, ws => return ws
  | count, more + 1, ws => do
    let here : Path := { path with parts := path.parts.take (count + 1) }
    match ws.locate here, ← probe here.text with
    | .place names, some entry =>
      let ws := if Workspace.isStart names then ws else ws.put names entry
      match entry with
      | .directory => loadAlong path (count + 1) more ws
      | _ => return ws
    | _, _ => return ws

def load (ws : Workspace) (paths : List Path) : IO Workspace :=
  paths.foldlM (fun ws path => loadAlong path 0 path.parts.length ws) ws

def store (place : List String) (entry : Entry) : IO Unit := do
  let path := Workspace.placeText place
  match entry with
  | .directory => IO.FS.createDirAll path
  | .text s => IO.FS.writeFile path s
  | .document d => IO.FS.writeFile path (Flow.writeFile d)
  | .figure f => IO.FS.writeFile path f.sheet.text

/-- Puts out what is left of a command's output and writes what it changed. -/
def finish (before : Workspace) (shown : String) (ended : Ending) : IO UInt32 := do
  IO.print (ended.shell.output.drop shown.length)
  for (place, entry) in Workspace.changes before ended.shell.files do
    store place entry
  return UInt32.ofNat ended.exitCode

def seconds : IO Float := do
  return Float.ofNat (← IO.monoNanosNow) / 1000000000

def entropy : IO Nat := do
  return (← IO.getRandomBytes 16).foldl (fun n byte => 256 * n + byte.toNat) 0

def stamp : IO String := do
  return (← Std.Time.PlainDateTime.now).format "uuuu-MM-dd'T'HH:mm:ss.SSSSSS"

abbrev Stepped (β : Type) := EStateM.Result Fault (Search Stream Float) β

def relay {β : Type} (result : Stepped β) : IO (Stepped β) := do
  match result with
  | .ok x s =>
    IO.print s.printed
    return .ok x { s with printed := "" }
  | .error fault s =>
    IO.print s.printed
    return .error fault { s with printed := "" }

/-- A step of a search with the clock at its present reading. -/
def stepNow {β : Type} (act : (Nat → Float) → SearchM Stream Float β) (s : Search Stream Float) :
    IO (Stepped β) := do
  let t ← seconds
  relay (act (fun _ => t) s)

/-- Evolves until there is a reason to stop, with `more` generations left. -/
def evolve (plan : Plan Float) (problem : Problem Float) :
    Nat → Progress Float → Search Stream Float → IO (Stepped (RunResult Float))
  | more, progress, s => do
    match ← stepNow (Run.verdict plan · progress.started more) s with
    | .error fault s => return .error fault s
    | .ok (some reason) s => stepNow (Run.conclude plan · progress reason) s
    | .ok none s =>
      match more, ← relay (Search.evolve Wheel.spin plan problem s) with
      | _, .error fault s => return .error fault s
      | 0, .ok _ s => stepNow (Run.conclude plan · progress .maxGenerations) s
      | more + 1, .ok _ s =>
        match ← stepNow (Run.note plan · progress) s with
        | .error fault s => return .error fault s
        | .ok progress s => evolve plan problem more progress s

def search (task : Task Stream) : IO (Stepped (RunResult Float)) := do
  let plan := task.settings.plan
  let started ← seconds
  let begin : SearchM Stream Float Unit := do
    ofResult task.problem.check
    Run.begin plan task.problem
  match ← relay (begin (Search.start task.source)) with
  | .error fault s => return .error fault s
  | .ok _ s =>
    match ← stepNow (fun clock => Run.first plan clock started) s with
    | .error fault s => return .error fault s
    | .ok progress s => evolve plan task.problem plan.maxGenerations progress s

def runCommand (arguments : List String) : IO UInt32 := do
  match Command.dispatch arguments Workspace.empty with
  | .inl ended => finish Workspace.empty "" ended
  | .inr given =>
    let own ← load Workspace.empty [Path.ofText given]
    let before ← match own.loadEntries given with
      | .ok config => load own (Schedule.watched config)
      | .error _ => pure own
    match Command.openRun (← entropy) given (.start before) with
    | .error fault shell => finish before "" (Command.ending (.error fault shell))
    | .ok task shell =>
      IO.print shell.output
      match ← search task with
      | .error fault _ => finish before shell.output (Command.ending (.error fault shell))
      | .ok result _ =>
        finish before shell.output
          (Command.ending (Command.closeRun (← stamp) task result shell))

def generateCommand (arguments : List String) : IO UInt32 := do
  let before ← match Generate.read arguments with
    | .request r => load Workspace.empty [Path.ofText r.path]
    | _ => pure Workspace.empty
  match Generate.run (← entropy) arguments before with
  | .ok ended => finish before "" ended
  | .error fault => throw (IO.userError fault.message)

end EvoSched.CommandLine

def main (arguments : List String) : IO UInt32 :=
  match arguments with
  | "generate" :: rest => EvoSched.CommandLine.generateCommand rest
  | _ => EvoSched.CommandLine.runCommand arguments
