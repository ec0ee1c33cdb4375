import EvoSched.Proofs.Assignment
import EvoSched.Proofs.History
import EvoSched.Proofs.Run.Account
import EvoSched.Proofs.Run.Extent
import EvoSched.Proofs.Schedule.Frame
import EvoSched.Proofs.Settings
import EvoSched.Proofs.Settings.Acceptance

set_option autoImplicit false

namespace EvoSched

open Workspace (Spares)
open Shell

namespace Metadata

variable {ws ws' : Workspace} {path : Path} {entries : List (String × Document)}

theorem save_eq_ok {overwrite : Bool} {now : String}
    (success : save path overwrite now entries ws = .ok () ws') :
    ws'.Holds path (.document (.map (stamped now entries))) :=
  Workspace.holds_of_save nofun success

/-- The time of saving changes nothing else. -/
theorem lookup_stamped (now : String) {key : String} {value : Document}
    (found : entries.lookup key = some value) : (stamped now entries).lookup key = some value := by
  unfold stamped
  split
  · exact found
  · rw [List.lookup_append, found]
    rfl

/-- Metadata tell the numbers of a result. -/
structure Tells (problem : Problem Float) (result : RunResult Float)
    (entries : List (String × Document)) : Prop where
  fitness : entries.lookup "best_fitness" = some (.real result.best.fitness)
  time : entries.lookup "best_time" = some (.real result.best.time)
  cost : entries.lookup "best_cost" = some (.real result.best.cost)
  jobs : entries.lookup "jobs" = some (.whole problem.jobs.length)
  nodes : entries.lookup "nodes" = some (.whole problem.nodes.length)
  generations : entries.lookup "generations" = some (.whole result.generations)
  stopReason : entries.lookup "stop_reason" = some (.text result.stopReason.text)
  mutations : entries.lookup "total_mutations" =
    some (.whole ((result.history.map fun r => r.mutations.getD 0).sum : Nat))

end Metadata

namespace History

/-- Records tell the course of a search that ended after some generations: there is one for each,
with the size of its population. -/
structure Tells {σ : Type} [Source σ Float] (plan : Plan Float) (problem : Problem Float)
    (clock : Nat → Float) (start : Search σ Float) (result : RunResult Float)
    (records : List (Record Float)) : Prop where
  numbered : records.map (·.generation) =
    (List.range (result.generations + 1)).map (fun n : Nat => (n : Int))
  sizes : records.map (·.populationSize) = result.history.map (·.populationSize)
  states (g : Nat) (r : Record Float) : records[g]? = some r →
    ∃ progress s, Run.Reaches Wheel.spin plan problem clock start progress s ∧
      progress.generation = g ∧ r.populationSize = s.population.size

end History

namespace Schedule

section

variable {σ : Type}

/-- The three files of a result are in the output directory. -/
structure Saved (settings : Settings) (problem : Problem Float) (root : Path) (now : String)
    (result : RunResult Float) (files : Workspace) : Prop where
  assignment : ∃ lines, Assignment.rows problem 0 result.best.genes = (lines, none) ∧
    files.Holds (assignmentPath root) (.text (Assignment.table lines).text)
  writable : ∀ r ∈ result.history, History.isWritable r = true
  history : files.Holds (historyPath root) (.text (History.table result.history).text)
  metadata : files.Holds (metadataPath root) (.document (.map (Metadata.stamped now
    (Metadata.ofRun settings problem result))))

/-- What is saved first is not touched by what is saved later. -/
theorem saved_of_publish {now : String} {task : Task σ} {result : RunResult Float}
    {shell shell' : Shell} (there : shell.files.Holds task.root .directory)
    (success : publish now task result shell = .ok () shell') :
    Saved task.settings task.problem task.root now result shell'.files := by
  obtain ⟨_, s₁, first, rest⟩ := bind_eq_ok.1 success
  obtain ⟨_, s₂, second, rest⟩ := bind_eq_ok.1 rest
  obtain ⟨_, s₃, third, rest⟩ := bind_eq_ok.1 rest
  have spares₁ : Spares [assignmentPath task.root] shell.files s₁.files :=
    (moves_onFiles (Workspace.moves_saveRows _ _ _ _)).of_eq_ok first
  have spares₂ : Spares [historyPath task.root] s₁.files s₂.files :=
    (moves_onFiles (Workspace.moves_saveRows _ _ _ _)).of_eq_ok second
  have spares₃ : Spares [metadataPath task.root] s₂.files s₃.files :=
    (moves_onFiles (moves_saveMetadata _ _ _ _)).of_eq_ok third
  have spares₄ : Spares [coursePath task.root, loadPath task.root] s₃.files shell'.files :=
    (moves_closing (fun _ => by simp) result).of_eq_ok rest
  have there₁ := there.directory spares₁
  have there₂ := there₁.directory spares₂
  have there₃ := there₂.directory spares₃
  obtain ⟨lines, complete, assignment⟩ := Assignment.save_eq_ok (onFiles_eq_ok first)
  obtain ⟨writable, history⟩ := History.save_eq_ok (onFiles_eq_ok second)
  have metadata := Metadata.save_eq_ok (onFiles_eq_ok third)
  have assignment₂ : s₂.files.Holds (assignmentPath task.root) _ :=
    assignment.kept ["history.csv"] (by decide) (by decide) there₁ spares₂
  have assignment₃ : s₃.files.Holds (assignmentPath task.root) _ :=
    assignment₂.kept ["run_metadata.yaml"] (by decide) (by decide) there₂ spares₃
  have history₃ : s₃.files.Holds (historyPath task.root) _ :=
    history.kept ["run_metadata.yaml"] (by decide) (by decide) there₂ spares₃
  have last {name : String} {entry : Entry} (down : name ≠ "..")
      (aside : ∀ other ∈ ["fitness_history.png", "node_load.png"], other ≠ ".." ∧ other ≠ name)
      (holds : s₃.files.Holds (task.root.child name) entry) :
      shell'.files.Holds (task.root.child name) entry := holds.kept _ down aside there₃ spares₄
  exact ⟨⟨lines, complete, last (by decide) (by decide) assignment₃⟩, writable,
    last (by decide) (by decide) history₃, last (by decide) (by decide) metadata⟩

variable [Source σ Float] {seeding : Seeding σ} {source : σ}

/-- A run with a result has its files in the output directory. -/
theorem saved_of_run {entropy : Nat} {clock : Nat → Float} {now : String}
    {config : List (String × Document)} {shell shell' : Shell} {result : RunResult Float}
    (success : run seeding entropy clock now config shell = .ok result shell') :
    ∃ (input : Input) (source : σ) (t : Search σ Float),
      input.Describes config shell.files ∧
      seeding.start entropy input.settings.randomSeed = .ok source ∧
      Run.run input.settings.plan input.problem clock (Search.start source) = .ok result t ∧
      Saved input.settings input.problem input.root now result shell'.files := by
  rw [run_eq] at success
  obtain ⟨input, s₁, loaded, rest⟩ := bind_eq_ok.1 success
  obtain ⟨same, describes, -⟩ := readInput_eq_ok loaded
  obtain ⟨task, s₂, occupied, rest⟩ := bind_eq_ok.1 rest
  obtain ⟨made, -, seeded, described⟩ := occupy_eq_ok occupied
  obtain ⟨found, s₃, searched, rest⟩ := bind_eq_ok.1 rest
  obtain ⟨_, s₄, published, rest⟩ := bind_eq_ok.1 rest
  cases rest
  obtain ⟨same₃, t, ran⟩ := search_eq_ok searched
  have there : s₃.files.Holds task.root .directory := by
    rw [same₃, described]
    exact Workspace.holds_of_createRoot made
  have saved := saved_of_publish there published
  rw [described] at ran saved
  exact ⟨input, task.source, t, describes, seeded, ran, saved⟩

/-- What the three files say, all of it of one result. -/
structure Exports (input : Input) (clock : Nat → Float) (source : σ)
    (result : RunResult Float) (files : Workspace) : Prop where
  /-- The assignment is loaded as the genes of the best candidate. -/
  genes : Assignment.load files (assignmentPath input.root) (input.problem.nodes.length - 1) =
    .ok (Candidate.fresh result.best.genes (input.problem.nodes.length - 1) : Candidate Float)
  jobs : ∃ rows, files.loadTable (assignmentPath input.root) ["node_index"] = .ok rows ∧
    rows.length = input.problem.jobs.length ∧
    ∀ (i : Nat) (job : Job Float), input.problem.jobs[i]? = some job →
      ∃ row, rows[i]? = some row ∧ Assignment.Shows input.problem result.best.genes i job row
  history : ∃ records, History.load files (historyPath input.root) = .ok records ∧
    History.Tells input.settings.plan input.problem clock (Search.start source) result records
  metadata : ∃ entries, files.loadFile (metadataPath input.root) = .ok (.document (.map entries)) ∧
    Metadata.Tells input.problem result entries
  /-- The last row of the history shows the best fitness. -/
  last : ∃ rows row, files.loadTable (historyPath input.root) History.columns = .ok rows ∧
    rows.getLast? = some row ∧
    row.getOrNull "best_fitness" = .text (Scalar.fixed 10 result.best.fitness)

section

variable {input : Input} {clock : Nat → Float} {now : String} {result : RunResult Float}
  {t : Search σ Float} {files : Workspace}

theorem assigns_of_run
    (ran : Run.run input.settings.plan input.problem clock (Search.start source) = .ok result t) :
    input.problem.Assigns result.best.genes := by
  obtain ⟨-, selected, front, -⟩ := Run.settled_of_run ran
  obtain ⟨outcome, same, -⟩ := selected.coherent.scored _ (Population.mem_of_front front)
  exact (Problem.outcome_eq_ok_iff.1 same).1

theorem nodes_le_of_run {entropy : Nat}
    (configured : ∃ d, Settings.ofDocument d = .ok input.settings)
    (seeded : seeding.start entropy input.settings.randomSeed = .ok source)
    (ran : Run.run input.settings.plan input.problem clock (Search.start source) = .ok result t) :
    input.problem.nodes.length ≤ 2 ^ 63 := by
  obtain ⟨d, accepted⟩ := configured
  obtain ⟨entries, -, -, valid⟩ := Settings.ofDocument_eq_ok_iff.1 accepted
  exact Run.nodes_le seeded (Settings.valid_plan valid).populationSize ran

/-- What is recalled of the history of a run tells its course. -/
theorem tells_of_recalled {records : List (Record Float)}
    (recalls : List.Forall₂ History.Recalls result.history records)
    (ran : Run.run input.settings.plan input.problem clock (Search.start source) = .ok result t) :
    History.Tells input.settings.plan input.problem clock (Search.start source) result records where
  numbered := by
    obtain ⟨last, s, u, reached, -, history, generations, -⟩ := Run.end_of_run ran
    rw [History.map_generation recalls, history, generations]
    exact (Run.counted_of_reaches reached).numbered
  sizes := History.map_populationSize recalls
  states g r read := by
    obtain ⟨saved, written, same⟩ := History.exists_recalled recalls read
    obtain ⟨-, -, progress, s, reached, numbered, size, -⟩ := Run.extent_of_record ran written
    exact ⟨progress, s, reached, numbered, same.populationSize.trans size⟩

/-- The last record of a run has the fitness of its result. -/
theorem exists_last_of_run
    (ran : Run.run input.settings.plan input.problem clock (Search.start source) = .ok result t) :
    ∃ r, result.history.getLast? = some r ∧ r.bestFitness = result.best.fitness := by
  obtain ⟨last, s, u, reached, -, history, -, -, front, -⟩ := Run.end_of_run ran
  obtain ⟨r, latest, best, same, fitness, -⟩ := Run.last_of_reaches reached
  cases front.symm.trans same
  rw [history]
  exact ⟨r, latest, fitness⟩

theorem metadata_tell
    (ran : Run.run input.settings.plan input.problem clock (Search.start source) = .ok result t) :
    Metadata.Tells input.problem result
      (Metadata.stamped now (Metadata.ofRun input.settings input.problem result)) := by
  obtain ⟨last, s, u, -, -, -, -, -, -, -, total, -⟩ := Run.end_of_run ran
  have kept {key : String} {value : Document} :=
    @Metadata.lookup_stamped (Metadata.ofRun input.settings input.problem result) now key value
  refine ⟨kept rfl, kept rfl, kept rfl, kept rfl, kept rfl, kept rfl, kept rfl, ?_⟩
  rw [← total]
  exact kept rfl

end

/-- A run that has a result leaves three files that agree with it and with one another: the
assignment of the best candidate, row by row with the labels of its jobs and nodes, a history with
a record for each generation, and the metadata. The labels may be of any characters, as long as
none is longer than a field that can be read. -/
theorem run_exports {entropy : Nat} {clock : Nat → Float} {now : String}
    {config : List (String × Document)} {shell shell' : Shell} {input : Input}
    {result : RunResult Float} (describes : input.Describes config shell.files)
    (short : ∀ label ∈ input.problem.labels, label.length ≤ Table.fieldLimit)
    (success : run seeding entropy clock now config shell = .ok result shell') :
    ∃ source, seeding.start entropy input.settings.randomSeed = .ok source ∧
      Exports input clock source result shell'.files := by
  obtain ⟨input', source, t, described, seeded, ran, saved⟩ := saved_of_run success
  obtain rfl := described.unique describes
  have assigns := assigns_of_run ran
  have nodes := (nodes_le_of_run ⟨_, describes.settings⟩ seeded ran).trans
    (by decide +kernel : 2 ^ 63 ≤ 10 ^ Decimal.maxDigits)
  obtain ⟨lines, complete, assignment⟩ := saved.assignment
  have lists := Assignment.lists_of_rows complete fun gene member => (assigns.named gene member).1
  have within : ∀ gene ∈ result.best.genes,
      inRange (input'.problem.nodes.length - 1) gene = true := by
    intro gene member
    have named := assigns.named gene member
    simp only [inRange, Bool.and_eq_true, decide_eq_true_eq]
    omega
  obtain ⟨records, loaded, recalls⟩ := History.exists_load saved.history saved.writable
  obtain ⟨r, latest, fitness⟩ := exists_last_of_run ran
  refine ⟨source, seeded, ?_⟩
  exact
    { genes := lists.load assignment short nodes within
      jobs := by
        refine ⟨_, lists.loadTable assignment short nodes,
          lists.length_entries.trans assigns.length, fun i job asked => lists.entry asked ?_⟩
        rw [assigns.length]
        exact (List.getElem?_eq_some_iff.1 asked).1
      history := ⟨records, loaded, tells_of_recalled recalls ran⟩
      metadata := ⟨_, saved.metadata.loadFile (by simp), metadata_tell ran⟩
      last := by
        refine ⟨_, Table.entry History.columns (History.row r),
          History.loadTable saved.history saved.writable, ?_, ?_⟩
        · rw [List.getLast?_map, latest]
          rfl
        · rw [History.getOrNull_row (i := 1) rfl rfl]
          exact congrArg (fun x => Document.text (Scalar.fixed 10 x)) fitness }

end

/-- A workspace with a problem whose labels need quotes in a table. -/
def quotedFiles : Workspace where
  entries := [(["order.yaml"], .document (.map [
    ("jobs", .list [.map [("id", .text "first, \"urgent\""), ("length", .whole 1)]]),
    ("nodes", .list [.map [("id", .text "rack 1\r\nslot 2"), ("capacity", .whole 1)]])]))]
  parse _ := none

def quotedConfig : List (String × Document) :=
  [("problem", .text "order.yaml"),
    ("ga", .map [("random_seed", .whole 1), ("population_size", .whole 1),
      ("elitism_count", .whole 0)]),
    ("output", .map [("root", .text "out")])]

theorem run_exports_quoted :
    ∃ input result shell', run Stream.seeding 0 (fun _ => 0) "2024-01-01T00:00:00" quotedConfig
        (Shell.start quotedFiles) = .ok result shell' ∧
      input.problem.labels = ["first, \"urgent\"", "rack 1\r\nslot 2"] ∧
      ∃ stream, Stream.seeding.start 0 input.settings.randomSeed = .ok stream ∧
        Exports input (fun _ => 0) stream result shell'.files := by
  have ends : (EvoSched.valueOf (run Stream.seeding 0 (fun _ => 0) "2024-01-01T00:00:00"
      quotedConfig (Shell.start quotedFiles))).isSome = true := by decide +kernel
  have reads : (EvoSched.valueOf (readInput quotedConfig (Shell.start quotedFiles))).any
      (fun input => input.problem.labels = ["first, \"urgent\"", "rack 1\r\nslot 2"]) = true := by
    decide +kernel
  obtain ⟨result, ended⟩ := Option.isSome_iff_exists.1 ends
  obtain ⟨fits, given⟩ := (Option.any_eq_true_iff_get _ _).1 reads
  have labels := of_decide_eq_true given
  obtain ⟨-, describes, -⟩ := readInput_eq_ok (eq_ok_of_valueOf (Option.some_get fits).symm)
  refine ⟨_, result, _, eq_ok_of_valueOf ended, labels, ?_⟩
  refine run_exports describes ?_ (eq_ok_of_valueOf ended)
  rw [labels]
  decide

end Schedule

end EvoSched
