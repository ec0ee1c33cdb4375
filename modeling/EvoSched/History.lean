import EvoSched.Run
import EvoSched.Workspace.Tables

set_option autoImplicit false

namespace EvoSched.History

def columns : List String :=
  ["generation", "best_fitness", "mean_fitness", "best_time", "best_cost", "population_size",
    "elapsed"]

/-- The row of a record: measures with ten decimal places, seconds with six. -/
def row {α : Type} [Scalar α] (r : Record α) : List String :=
  [toString r.generation, Scalar.fixed 10 r.bestFitness, Scalar.fixed 10 r.meanFitness,
    Scalar.fixed 10 r.bestTime, Scalar.fixed 10 r.bestCost, toString r.populationSize,
    Scalar.fixed 6 r.elapsed]

/-- A record whose whole numbers have few enough digits to be written. -/
def isWritable {α : Type} (r : Record α) : Bool :=
  Decimal.isWritable r.generation && Decimal.isWritable r.populationSize

/-- The rows of records, up to the first that cannot be written. -/
def rows {α : Type} [Scalar α] : List (Record α) → List (List String) × Option Fault
  | [] => ([], none)
  | r :: rest =>
    if isWritable r then
      let (others, fault) := rows rest
      (row r :: others, fault)
    else ([], some .wholeTooLong)

def table {α : Type} [Scalar α] (records : List (Record α)) : Table :=
  ⟨columns, records.map row⟩

/-- The record in a row. How many mutations there were is not written. -/
def recordOf (d : Document) : Except Fault (Record Float) := do
  let generation ← (d.getOrNull "generation").toWhole
  let bestFitness ← (d.getOrNull "best_fitness").toReal
  let meanFitness ← (d.getOrNull "mean_fitness").toReal
  let bestTime ← (d.getOrNull "best_time").toReal
  let bestCost ← (d.getOrNull "best_cost").toReal
  let populationSize ← (d.getOrNull "population_size").toWhole
  let elapsed ← (d.getOrNull "elapsed").toReal
  pure ⟨generation, bestFitness, meanFitness, bestTime, bestCost, populationSize, elapsed, none⟩

def save {α : Type} [Scalar α] (path : Path) (overwrite : Bool) (records : List (Record α)) :
    FilesM Unit :=
  Workspace.saveRows path overwrite columns (rows records)

def load (ws : Workspace) (path : Path) : Except Fault (List (Record Float)) := do
  let rows ← ws.loadTable path columns
  rows.mapM recordOf

end EvoSched.History
