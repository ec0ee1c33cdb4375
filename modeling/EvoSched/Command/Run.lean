import EvoSched.Command
import EvoSched.Random.Stream
import EvoSched.Schedule

set_option autoImplicit false

namespace EvoSched.Command

open Shell

def usage : String := "GA Scheduler CLI

Assigns independent jobs to heterogeneous nodes with a genetic algorithm.
All configuration is specified in a YAML run config.

Usage:
    ga-sched run_config.yaml
    ga-sched --config run_config.yaml
    ga-sched --help

Example run config:
    problem: configs/example_problem.yaml
    ga:
      population_size: 30
      strategy: replace
      max_generations: 200
      random_seed: 42
    output:
      root: runs/example
      overwrite: true
      plots: true
"

def isHelp (argument : String) : Bool :=
  argument == "-h" || argument == "--help" || argument == "help"

/-- The rest of a text behind a beginning that it may have. -/
def dropStart? : List Char → List Char → Option (List Char)
  | [], rest => some rest
  | _ :: _, [] => none
  | c :: start, d :: rest => if c = d then dropStart? start rest else none

/-- The path among the arguments: the first one, or the value of `--config`. None where help is
asked for or nothing is given. -/
def configPath : List String → Except Fault (Option String)
  | [] => .ok none
  | first :: rest =>
    if isHelp first then .ok none
    else
      match dropStart? "--config=".toList first.toList with
      | some path => .ok (some (String.ofList path))
      | none =>
        if first = "--config" then
          match rest with
          | [] => .error (.invalid .configArgument)
          | path :: _ => .ok (some path)
        else .ok (some first)

/-- Loads and checks a configuration file, and prepares its run. -/
def openRun (entropy : Nat) (path : String) : ShellM (Task Stream) := do
  say ("Loading configuration from: " ++ path)
  let config ← read (·.loadEntries path)
  say "Validating configuration..."
  read (Configuration.check · (.map config))
  Schedule.prepare Stream.seeding entropy config

def closeRun (now : String) (task : Task Stream) (result : RunResult Float) : ShellM Unit := do
  Schedule.publish now task result
  say "\nRun completed successfully!"

def runFile (entropy : Nat) (clock : Nat → Float) (now path : String) : ShellM Unit := do
  let task ← openRun entropy path
  let result ← Schedule.search clock task
  closeRun now task result

/-- How a command ends whose last step had this result. -/
def ending : EStateM.Result Fault Shell Unit → Ending
  | .ok _ shell => ⟨0, shell, none⟩
  | .error fault shell => .failing shell fault "\nError: " "\n"

/-- What the arguments alone decide: the path to go on with, or how the command ends. -/
def dispatch (arguments : List String) (files : Workspace) : Ending ⊕ String :=
  match configPath arguments with
  | .error fault => .inl (.failing (start files) fault "Error: " ("\n" ++ usage ++ "\n"))
  | .ok none => .inl (.saying (if arguments.isEmpty then 1 else 0) (start files) (usage ++ "\n"))
  | .ok (some path) => .inr path

def run (entropy : Nat) (clock : Nat → Float) (now : String) (arguments : List String)
    (files : Workspace) : Ending :=
  match dispatch arguments files with
  | .inl ended => ended
  | .inr path => ending (runFile entropy clock now path (start files))

end EvoSched.Command
