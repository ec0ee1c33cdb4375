import EvoSched.Assignment
import EvoSched.Chart.Course
import EvoSched.Chart.Load
import EvoSched.Configuration
import EvoSched.History
import EvoSched.Metadata
import EvoSched.Problem.Source
import EvoSched.Shell

/-!
Schedules: a run as its configuration describes it, from reading the problem to saving what came
of it. A schedule is prepared, searched for and published.
-/

set_option autoImplicit false

namespace EvoSched

/-- A run that is prepared: its output directory is there. -/
structure Task (σ : Type) where
  settings : Settings
  problem : Problem Float
  source : σ
  root : Path
  overwrite : Bool
  plots : Bool

namespace Schedule

open Shell

def rule : String := String.ofList (List.replicate 70 '=')

def heading (title : String) : List String := [rule, title, rule]

/-- Puts out the settings. The rates and the weight are numbers in [0, 1] and always have a text. -/
def describeSettings (s : Settings) : ShellM Unit := do
  say ("Strategy: " ++ s.strategy.text)
  let size ← lift (Document.whole s.populationSize).toText
  let target ← lift (Document.whole s.targetSize).toText
  let elitism ← lift (Document.whole s.elitism).toText
  say ("Population: " ++ size ++ " (target " ++ target ++ "), elitism " ++ elitism)
  say ("Rates: crossover " ++ s.crossoverRate.toDocument.shown ++ ", mutation " ++
    s.mutationRate.toDocument.shown)
  say ("Time weight: " ++ s.timeWeight.toDocument.shown)
  let seed ← lift s.randomSeed.toText
  say ("Random seed: " ++ seed)

def valueOf (key : String) (entries : List (String × Document)) : Except Fault Document :=
  match entries.lookup key with
  | some value => .ok value
  | none => .error (.keyMissing key)

def entriesIn : Document → Except Fault (List (String × Document))
  | .map entries => .ok entries
  | d => .error (.noKeys d.kind)

/-- A switch is on if its value says anything. -/
def switch (key : String) (entries : List (String × Document)) : Bool :=
  !((Document.map entries).getOrNull key).isEmptyLike

variable {σ : Type} [Source σ Float]

/-- Reads settings and problem and makes the output directory. -/
def prepare (seeding : Seeding σ) (entropy : Nat) (config : List (String × Document)) :
    ShellM (Task σ) := do
  sayEach (heading "GA SCHEDULER")
  let settings ← lift (Settings.ofDocument ((Document.map config).getOrNull "ga"))
  describeSettings settings
  let section_ ← lift (valueOf "problem" config)
  let problem ← read fun files => ProblemSource.loadSection files section_
  say ("Problem: " ++ toString problem.jobs.length ++ " jobs on " ++
    toString problem.nodes.length ++ " nodes")
  let output ← lift (valueOf "output" config >>= entriesIn)
  let overwrite := switch "overwrite" output
  let root ← lift (valueOf "root" output >>= Path.ofDocument)
  onFiles (Workspace.createRoot root overwrite)
  say ("Output directory: " ++ root.text ++ "\n")
  let most ← lift (Document.whole settings.maxGenerations).toText
  say ("Evolving for up to " ++ most ++ " generations...")
  let source ← lift (seeding.start entropy settings.randomSeed)
  pure ⟨settings, problem, source, root, overwrite, switch "plots" output⟩

/-- A search on its own; what it reports is put out. -/
def onSearch {β : Type} (act : SearchM σ Float β) (s : Search σ Float) : ShellM β :=
  fun shell =>
    match act s with
    | .ok x t => .ok x { shell with output := shell.output ++ t.printed }
    | .error fault t => .error fault { shell with output := shell.output ++ t.printed }

def search (clock : Nat → Float) (task : Task σ) : ShellM (RunResult Float) :=
  onSearch (Run.run task.settings.plan task.problem clock) (Search.start task.source)

/-- A search of a problem in memory, from a source that the settings seed. -/
def searchInMemory (seeding : Seeding σ) (entropy : Nat) (clock : Nat → Float)
    (settings : Settings) (problem : Problem Float) : Except Fault (RunResult Float) := do
  let source ← seeding.start entropy settings.randomSeed
  match Run.run settings.plan problem clock (Search.start source) with
  | .ok result _ => .ok result
  | .error fault _ => .error fault

def assignmentPath (root : Path) : Path := root.child "assignment.csv"

def historyPath (root : Path) : Path := root.child "history.csv"

def metadataPath (root : Path) : Path := root.child "run_metadata.yaml"

def coursePath (root : Path) : Path := root.child "fitness_history.png"

def loadPath (root : Path) : Path := root.child "node_load.png"

/-- Every file that a run may write. -/
def exports (root : Path) : List Path :=
  [assignmentPath root, historyPath root, metadataPath root, coursePath root, loadPath root]

/-- The paths that a run of a configuration looks at. -/
def watched (config : List (String × Document)) : List Path :=
  let sources :=
    match ProblemSource.ofSection ((Document.map config).getOrNull "problem") with
    | .ok source => source.paths.filterMap fun given => (Path.ofDocument given).toOption
    | .error _ => []
  match Path.ofDocument (((Document.map config).getOrNull "output").getOrNull "root") with
  | .ok root => sources ++ exports root
  | .error _ => sources

def drawFigure (path : Path) (figure : Figure Float) : ShellM Unit := do
  onFiles (Workspace.write path (.figure figure))
  say ("  Saved visualization: " ++ path.text)

def drawFigures (task : Task σ) (result : RunResult Float) : ShellM Unit := do
  say "\nGenerating visualization plots..."
  drawFigure (coursePath task.root) (.lines (courseCharts result.history))
  let charts ← lift (task.problem.loadCharts result.best.genes)
  drawFigure (loadPath task.root) (.bars charts)

def summary (task : Task σ) (result : RunResult Float) : List String :=
  heading "SUMMARY" ++ [
    "Generations: " ++ toString result.generations ++
      " (stopped: " ++ result.stopReason.text ++ ")",
    "Elapsed: " ++ Scalar.fixed 3 result.elapsed ++ "s",
    "Lower bounds: time " ++ Scalar.fixed 4 result.bounds.minTime ++ ", cost " ++
      Scalar.fixed 4 result.bounds.minCost,
    "Best fitness: " ++ Scalar.fixed 6 result.best.fitness,
    "Best makespan: " ++ Scalar.fixed 4 result.best.time,
    "Best cost: " ++ Scalar.fixed 4 result.best.cost,
    "Assignment: " ++ (assignmentPath task.root).text,
    "History log: " ++ (historyPath task.root).text,
    "Metadata: " ++ (metadataPath task.root).text]

/-- Saves a result and reports it. The metadata is saved at the time `now`. -/
def publish (now : String) (task : Task σ) (result : RunResult Float) : ShellM Unit := do
  onFiles (Assignment.save (assignmentPath task.root) task.overwrite task.problem
    result.best.genes)
  onFiles (History.save (historyPath task.root) task.overwrite result.history)
  onFiles (Metadata.save (metadataPath task.root) task.overwrite now
    (Metadata.ofRun task.settings task.problem result))
  if task.plots then drawFigures task result
  say ""
  sayEach (summary task result)

/-- The whole run of a configuration. Where it names no seed, `entropy` stands in. -/
def run (seeding : Seeding σ) (entropy : Nat) (clock : Nat → Float) (now : String)
    (config : List (String × Document)) : ShellM (RunResult Float) := do
  let task ← prepare seeding entropy config
  let result ← search clock task
  publish now task result
  pure result

end Schedule

end EvoSched
