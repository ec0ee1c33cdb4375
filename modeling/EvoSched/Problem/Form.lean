import EvoSched.Document.Reading
import EvoSched.Problem
import EvoSched.Scalar.Double

set_option autoImplicit false

namespace EvoSched

def requireField (item field : String) (d : Document) (index : Int) : Except Fault Document := do
  match ← d.field? field with
  | none => .error (.invalid (.missingField item index field))
  | some value =>
    if value.isMissing then .error (.invalid (.missingField item index field)) else .ok value

/-- Names the item in front of a reading fault. A number out of all bounds stays as it is. -/
def inItem {β : Type} (item : String) (index : Int) (result : Except Fault β) : Except Fault β :=
  match result with
  | .error (.unreadable why) => .error (.invalid (.unreadableItem item index why))
  | _ => result

/-- A real value under a key, zero by default. -/
def realField (d : Document) (key : String) : Except Fault Float :=
  ((d.getOrNull key).orElse (.whole 0)).toReal

def idField (d : Document) (default : String) : Except Fault String :=
  let id := d.getOrNull "id"
  if id.isMissing then .ok default
  else if id.isWritable then .ok id.shown
  else .error (.unreadable .wholeTooLong)

namespace Job

def readMeasures (d : Document) (length : Document) (index : Int) : Except Fault (Job Float) := do
  let length ← length.toReal
  let memory ← realField d "mem_required"
  let input ← realField d "input_size"
  let output ← realField d "output_size"
  let pes ← ((d.getOrNull "pes").orElse (.whole 1)).toWhole
  let id ← idField d ("job_" ++ toString index)
  pure ⟨length, memory, input, output, pes, some id⟩

/-- The job in a document, at position `index` of its list. -/
def ofDocument (d : Document) (index : Int) : Except Fault (Job Float) := do
  let length ← requireField "Job" "length" d index
  inItem "job" index (readMeasures d length index)

def idDocument : Option String → Document
  | none => .null
  | some id => .text id

def toDocument (job : Job Float) : Document := .map [
  ("length", .real job.length),
  ("mem_required", .real job.memory),
  ("input_size", .real job.input),
  ("output_size", .real job.output),
  ("pes", .whole job.pes),
  ("id", idDocument job.id)]

end Job

namespace Node

def readMeasures (d : Document) (capacity : Document) (index : Int) :
    Except Fault (Node Float) := do
  let capacity ← capacity.toReal
  let perSecond ← realField d "cost_per_second"
  let perMemory ← realField d "cost_per_mem"
  let perTransfer ← realField d "cost_per_bw"
  let id ← idField d ("node_" ++ toString index)
  pure ⟨capacity, perSecond, perMemory, perTransfer, some id⟩

/-- The node in a document, at position `index` of its list. -/
def ofDocument (d : Document) (index : Int) : Except Fault (Node Float) := do
  let capacity ← requireField "Node" "capacity" d index
  inItem "node" index (readMeasures d capacity index)

def toDocument (node : Node Float) : Document := .map [
  ("capacity", .real node.capacity),
  ("cost_per_second", .real node.perSecond),
  ("cost_per_mem", .real node.perMemory),
  ("cost_per_bw", .real node.perTransfer),
  ("id", Job.idDocument node.id)]

end Node

def readEach {β : Type} (read : Document → Int → Except Fault β) :
    Nat → List Document → Except Fault (List β)
  | _, [] => .ok []
  | index, d :: rest => do
    let item ← read d index
    let others ← readEach read (index + 1) rest
    pure (item :: others)

namespace Problem

def listField (path key : String) (entries : List (String × Document)) :
    Except Fault (List Document) :=
  match entries.lookup key with
  | none => .error (.invalid (.sectionMissing path key))
  | some (.list items) => .ok items
  | some _ => .error (.invalid (.sectionNotList path key))

/-- The problem in the entries of a file at `path`. -/
def ofEntries (path : String) (entries : List (String × Document)) :
    Except Fault (Problem Float) := do
  let jobs ← listField path "jobs" entries
  let nodes ← listField path "nodes" entries
  let jobs ← readEach Job.ofDocument 0 jobs
  let nodes ← readEach Node.ofDocument 0 nodes
  pure ⟨jobs, nodes⟩

def toDocument (problem : Problem Float) : Document := .map [
  ("jobs", .list (problem.jobs.map Job.toDocument)),
  ("nodes", .list (problem.nodes.map Node.toDocument))]

end Problem

end EvoSched
