import EvoSched.Run
import EvoSched.Workspace

set_option autoImplicit false

namespace EvoSched.Metadata

def ofRun (settings : Settings) (problem : Problem Float) (result : RunResult Float) :
    List (String × Document) := [
  ("ga", settings.toDocument),
  ("jobs", .whole problem.jobs.length),
  ("nodes", .whole problem.nodes.length),
  ("min_time", .real result.bounds.minTime),
  ("min_cost", .real result.bounds.minCost),
  ("best_fitness", .real result.best.fitness),
  ("best_time", .real result.best.time),
  ("best_cost", .real result.best.cost),
  ("generations", .whole result.generations),
  ("stop_reason", .text result.stopReason.text),
  ("total_mutations", .whole result.totalMutations),
  ("elapsed", .real result.elapsed)]

/-- Entries with the time of saving, unless they have one. -/
def stamped (now : String) (entries : List (String × Document)) : List (String × Document) :=
  match entries.lookup "saved_at" with
  | some _ => entries
  | none => entries ++ [("saved_at", .text now)]

/-- Saves metadata at the time `now`. -/
def save (path : Path) (overwrite : Bool) (now : String) (entries : List (String × Document)) :
    FilesM Unit :=
  Workspace.save path overwrite (.document (.map (stamped now entries)))

end EvoSched.Metadata
