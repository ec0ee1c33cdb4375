import EvoSched.Proofs.Workspace.Writing
import EvoSched.Random.Stream
import EvoSched.Schedule

set_option autoImplicit false

namespace EvoSched

open Workspace (Paves Spares)

namespace Shell

variable {β : Type} {rel rel' : Workspace → Workspace → Prop}

/-- The files of two shells stand in a relation. -/
def OnFiles (rel : Workspace → Workspace → Prop) (s t : Shell) : Prop := rel s.files t.files

instance [Std.Refl rel] : Std.Refl (OnFiles rel) where
  refl s := refl s.files

instance [IsTrans Workspace rel] : IsTrans Shell (OnFiles rel) where
  trans s t u first second := IsTrans.trans s.files t.files u.files first second

theorem moves_onFiles {act : FilesM β} (moves : Moves rel act) :
    Moves (OnFiles rel) (onFiles act) := by
  intro shell
  have effect := moves shell.files
  unfold onFiles
  cases result : act shell.files with
  | ok x files => rwa [result] at effect
  | error fault files => rwa [result] at effect

theorem onFiles_eq_ok {act : FilesM β} {shell shell' : Shell} {x : β}
    (success : onFiles act shell = .ok x shell') : act shell.files = .ok x shell'.files := by
  unfold onFiles at success
  split at success
  · rename_i result
    cases success
    exact result
  · cases success

theorem onFiles_eq_error {act : FilesM β} {shell shell' : Shell} {fault : Fault}
    (failed : onFiles act shell = .error fault shell') :
    act shell.files = .error fault shell'.files := by
  unfold onFiles at failed
  split at failed
  · cases failed
  · rename_i result
    cases failed
    exact result

theorem read_eq_ok {reading : Workspace → Except Fault β} {shell shell' : Shell} {x : β} :
    read reading shell = .ok x shell' ↔ reading shell.files = .ok x ∧ shell' = shell := by
  unfold read
  cases reading shell.files with
  | ok y => simp [eq_comm]
  | error fault => simp

theorem read_bind_eq_ok {γ : Type} {reading : Workspace → Except Fault β} {next : β → ShellM γ}
    {shell shell' : Shell} {y : γ} :
    (read reading >>= next) shell = .ok y shell' ↔
      ∃ x, reading shell.files = .ok x ∧ next x shell = .ok y shell' := by
  rw [bind_eq_ok]
  constructor
  · rintro ⟨x, t, first, rest⟩
    obtain ⟨success, rfl⟩ := read_eq_ok.1 first
    exact ⟨x, success, rest⟩
  · rintro ⟨x, success, rest⟩
    exact ⟨x, shell, read_eq_ok.2 ⟨success, rfl⟩, rest⟩

theorem lift_bind_eq_ok {γ : Type} {result : Except Fault β} {next : β → ShellM γ}
    {shell shell' : Shell} {y : γ} :
    (lift result >>= next) shell = .ok y shell' ↔
      ∃ x, result = .ok x ∧ next x shell = .ok y shell' := read_bind_eq_ok

variable [Std.Refl rel]

theorem moves_say (line : String) : Moves (OnFiles rel) (say line) :=
  fun shell => refl shell.files

theorem moves_sayEach [IsTrans Workspace rel] (lines : List String) :
    Moves (OnFiles rel) (sayEach lines) := by
  induction lines with
  | nil => exact .pure
  | cons line rest ih => exact (moves_say line).bind fun _ => ih

theorem moves_read (reading : Workspace → Except Fault β) :
    Moves (OnFiles rel) (read reading) := by
  intro shell
  unfold read
  split
  · exact refl shell.files
  · exact refl shell.files

theorem moves_lift (result : Except Fault β) : Moves (OnFiles rel) (lift result) :=
  moves_read fun _ => result

end Shell

open Shell

namespace Schedule

/-- What a run reads before it writes anything. -/
structure Input where
  settings : Settings
  problem : Problem Float
  output : List (String × Document)
  root : Path

def readInput (config : List (String × Document)) : ShellM Input := do
  sayEach (heading "GA SCHEDULER")
  let settings ← lift (Settings.ofDocument ((Document.map config).getOrNull "ga"))
  describeSettings settings
  let section_ ← lift (valueOf "problem" config)
  let problem ← read fun files => ProblemSource.loadSection files section_
  say ("Problem: " ++ toString problem.jobs.length ++ " jobs on " ++
    toString problem.nodes.length ++ " nodes")
  let output ← lift (valueOf "output" config >>= entriesIn)
  let root ← lift (valueOf "root" output >>= Path.ofDocument)
  pure ⟨settings, problem, output, root⟩

section

variable {σ : Type} [Source σ Float] (seeding : Seeding σ)

/-- Seeds the source. -/
def seed (entropy : Nat) (input : Input) : ShellM (Task σ) := do
  say ("Output directory: " ++ input.root.text ++ "\n")
  let most ← lift (Document.whole input.settings.maxGenerations).toText
  say ("Evolving for up to " ++ most ++ " generations...")
  let source ← lift (seeding.start entropy input.settings.randomSeed)
  pure ⟨input.settings, input.problem, source, input.root, switch "overwrite" input.output,
    switch "plots" input.output⟩

/-- Makes the output directory and seeds the source. -/
def occupy (entropy : Nat) (input : Input) : ShellM (Task σ) := do
  onFiles (Workspace.createRoot input.root (switch "overwrite" input.output))
  seed seeding entropy input

theorem prepare_eq (entropy : Nat) (config : List (String × Document)) :
    prepare seeding entropy config = readInput config >>= occupy seeding entropy := by
  unfold prepare readInput occupy seed
  simp only [bind_assoc, pure_bind]

theorem moves_seed {rel : Workspace → Workspace → Prop} [Std.Refl rel] [IsTrans Workspace rel]
    (entropy : Nat) (input : Input) : Moves (OnFiles rel) (seed seeding entropy input) := by
  refine (moves_say _).bind fun _ => (moves_lift _).bind fun most => ?_
  exact (moves_say _).bind fun _ => (moves_lift _).bind fun source => .pure

theorem moves_occupy (entropy : Nat) (input : Input) :
    Moves (OnFiles (Paves input.root)) (occupy seeding entropy input) :=
  (moves_onFiles (Workspace.moves_createRoot input.root _)).bind fun _ =>
    moves_seed seeding entropy input

end

theorem writable_of_toText {d : Document} {text : String} (success : d.toText = .ok text) :
    d.isWritable = true := by
  unfold Document.toText at success
  split at success
  · assumption
  · cases success

theorem describeSettings_eq_ok {settings : Settings} {shell shell' : Shell}
    (success : describeSettings settings shell = .ok () shell') :
    Decimal.isWritable settings.targetSize = true := by
  obtain ⟨_, s₁, -, rest⟩ := bind_eq_ok.1 success
  obtain ⟨size, -, rest⟩ := lift_bind_eq_ok.1 rest
  obtain ⟨target, shown, -⟩ := lift_bind_eq_ok.1 rest
  exact writable_of_toText shown

theorem moves_describeSettings {rel : Workspace → Workspace → Prop} [Std.Refl rel]
    [IsTrans Workspace rel] (settings : Settings) :
    Moves (OnFiles rel) (describeSettings settings) := by
  refine (moves_say _).bind fun _ => (moves_lift _).bind fun size => ?_
  refine (moves_lift _).bind fun target => (moves_lift _).bind fun elitism => ?_
  refine (moves_say _).bind fun _ => (moves_say _).bind fun _ => (moves_say _).bind fun _ => ?_
  exact (moves_lift _).bind fun seed => moves_say _

theorem moves_readInput {rel : Workspace → Workspace → Prop} [Std.Refl rel]
    [IsTrans Workspace rel] (config : List (String × Document)) :
    Moves (OnFiles rel) (readInput config) := by
  refine (moves_sayEach _).bind fun _ => (moves_lift _).bind fun settings => ?_
  refine (moves_describeSettings _).bind fun _ => (moves_lift _).bind fun section_ => ?_
  refine (moves_read _).bind fun problem => (moves_say _).bind fun _ => ?_
  exact (moves_lift _).bind fun output => (moves_lift _).bind fun root => .pure

theorem valueOf_eq_ok {key : String} {entries : List (String × Document)} {value : Document}
    (success : valueOf key entries = .ok value) : (Document.map entries).getOrNull key = value := by
  change (entries.lookup key).getD .null = value
  unfold valueOf at success
  split at success
  · rename_i found
    cases success
    rw [found]
    rfl
  · cases success

theorem entriesIn_eq_ok {value : Document} {entries : List (String × Document)}
    (success : entriesIn value = .ok entries) : value = .map entries := by
  unfold entriesIn at success
  split at success
  · cases success
    rfl
  · cases success

/-- The input is what the configuration describes. -/
structure Input.Describes (config : List (String × Document)) (files : Workspace)
    (input : Input) : Prop where
  settings : Settings.ofDocument ((Document.map config).getOrNull "ga") = .ok input.settings
  problem : ∃ source, ProblemSource.ofSection ((Document.map config).getOrNull "problem") =
    .ok source ∧ source.load files = .ok input.problem
  output : (Document.map config).getOrNull "output" = .map input.output
  root : Path.ofDocument ((Document.map input.output).getOrNull "root") = .ok input.root

theorem readInput_eq_ok {config : List (String × Document)} {input : Input} {shell shell' : Shell}
    (success : readInput config shell = .ok input shell') :
    shell'.files = shell.files ∧ input.Describes config shell.files ∧
      Decimal.isWritable input.settings.targetSize = true := by
  have same : OnFiles Eq shell shell' := (moves_readInput config).of_eq_ok success
  refine ⟨same.symm, ?_⟩
  unfold readInput at success
  obtain ⟨_, s₁, said, rest⟩ := bind_eq_ok.1 success
  obtain ⟨settings, configured, rest⟩ := lift_bind_eq_ok.1 rest
  obtain ⟨_, s₂, told, rest⟩ := bind_eq_ok.1 rest
  obtain ⟨section_, described, rest⟩ := lift_bind_eq_ok.1 rest
  obtain ⟨problem, loaded, rest⟩ := read_bind_eq_ok.1 rest
  obtain ⟨_, s₃, -, rest⟩ := bind_eq_ok.1 rest
  obtain ⟨output, written, rest⟩ := lift_bind_eq_ok.1 rest
  obtain ⟨root, rooted, rest⟩ := lift_bind_eq_ok.1 rest
  cases rest
  have unchanged : OnFiles Eq shell s₂ := IsTrans.trans (r := OnFiles Eq) shell s₁ s₂
    ((moves_sayEach _).of_eq_ok said) ((moves_describeSettings _).of_eq_ok told)
  rw [← show shell.files = s₂.files from unchanged] at loaded
  obtain ⟨value, named, entries⟩ := result_bind_eq_ok.1 written
  obtain ⟨place, given, path⟩ := result_bind_eq_ok.1 rooted
  refine ⟨?_, describeSettings_eq_ok told⟩
  exact {
    settings := configured
    problem := by
      rw [valueOf_eq_ok described]
      exact result_bind_eq_ok.1 loaded
    output := by rw [valueOf_eq_ok named, entriesIn_eq_ok entries]
    root := by rwa [valueOf_eq_ok given] }

/-- A configuration describes one input. -/
theorem Input.Describes.unique {config : List (String × Document)} {files : Workspace}
    {input input' : Input} (first : input.Describes config files)
    (second : input'.Describes config files) : input = input' := by
  obtain ⟨settings, ⟨source, sourced, problem⟩, output, root⟩ := first
  obtain ⟨settings', ⟨source', sourced', problem'⟩, output', root'⟩ := second
  cases sourced.symm.trans sourced'
  have same_settings := Except.ok.inj (settings.symm.trans settings')
  have same_problem := Except.ok.inj (problem.symm.trans problem')
  have same_output := Document.map.inj (output.symm.trans output')
  rw [same_output] at root
  have same_root := Except.ok.inj (root.symm.trans root')
  cases input
  cases input'
  simp only at same_settings same_problem same_output same_root
  rw [same_settings, same_problem, same_output, same_root]

/-- The files that a run writes, two figures among them if it plots. -/
def written (plots : Bool) (root : Path) : List Path :=
  [assignmentPath root, historyPath root, metadataPath root] ++
    if plots then [coursePath root, loadPath root] else []

theorem moves_drawFigure {path : Path} {paths : List Path} (member : path ∈ paths)
    (figure : Figure Float) : Moves (OnFiles (Spares paths)) (drawFigure path figure) := by
  have file : Entry.figure figure ≠ .directory := nofun
  refine (moves_onFiles ?_).bind fun _ => moves_say _
  exact Workspace.moves_of_mem (Workspace.moves_write file) member

section

variable {σ : Type} {task : Task σ} {paths : List Path}

theorem moves_saveMetadata (path : Path) (overwrite : Bool) (now : String)
    (entries : List (String × Document)) :
    Moves (Spares [path]) (Metadata.save path overwrite now entries) :=
  Workspace.moves_save path overwrite nofun

theorem moves_drawFigures (course : coursePath task.root ∈ paths)
    (load : loadPath task.root ∈ paths) (result : RunResult Float) :
    Moves (OnFiles (Spares paths)) (drawFigures task result) := by
  refine (moves_say _).bind fun _ => (moves_drawFigure course _).bind fun _ => ?_
  exact (moves_lift _).bind fun charts => moves_drawFigure load _

/-- After its tables and its metadata, a run writes nothing but figures. -/
theorem moves_closing
    (figures : task.plots = true → coursePath task.root ∈ paths ∧ loadPath task.root ∈ paths)
    (result : RunResult Float) :
    Moves (OnFiles (Spares paths)) (do
      if task.plots then drawFigures task result
      say ""
      sayEach (summary task result)) := by
  have told : Moves (OnFiles (Spares paths)) (do say ""; sayEach (summary task result)) :=
    (moves_say _).bind fun _ => moves_sayEach _
  dsimp only
  split
  · rename_i plots
    obtain ⟨course, load⟩ := figures plots
    exact (moves_drawFigures course load result).bind fun _ => told
  · exact told

theorem moves_publish (now : String) (subset : written task.plots task.root ⊆ paths)
    (result : RunResult Float) : Moves (OnFiles (Spares paths)) (publish now task result) := by
  have assignment : assignmentPath task.root ∈ paths := subset (by simp [written])
  have history : historyPath task.root ∈ paths := subset (by simp [written])
  have metadata : metadataPath task.root ∈ paths := subset (by simp [written])
  unfold publish
  refine (moves_onFiles (Workspace.moves_of_mem (Workspace.moves_saveRows _ _ _ _) assignment)).bind
    fun _ => ?_
  refine (moves_onFiles (Workspace.moves_of_mem (Workspace.moves_saveRows _ _ _ _) history)).bind
    fun _ => ?_
  refine (moves_onFiles (Workspace.moves_of_mem (moves_saveMetadata _ _ _ _) metadata)).bind
    fun _ => ?_
  refine moves_closing (fun plots => ?_) result
  rw [plots] at subset
  exact ⟨subset (by simp [written]), subset (by simp [written])⟩

variable [Source σ Float] {seeding : Seeding σ}

theorem moves_search {rel : Workspace → Workspace → Prop} [Std.Refl rel] (clock : Nat → Float)
    (task : Task σ) : Moves (OnFiles rel) (search clock task) := by
  intro shell
  unfold search onSearch
  split
  · exact refl shell.files
  · exact refl shell.files

theorem search_eq_ok {clock : Nat → Float} {shell shell' : Shell}
    {result : RunResult Float} (success : search clock task shell = .ok result shell') :
    shell'.files = shell.files ∧
      ∃ t, Run.run task.settings.plan task.problem clock (Search.start task.source) =
        .ok result t := by
  unfold search onSearch at success
  split at success
  · rename_i found t ran
    cases success
    exact ⟨rfl, t, ran⟩
  · cases success

theorem occupy_eq_ok {entropy : Nat} {input : Input} {shell shell' : Shell}
    (success : occupy seeding entropy input shell = .ok task shell') :
    Workspace.createRoot input.root (switch "overwrite" input.output) shell.files =
        .ok () shell'.files ∧
      Decimal.isWritable input.settings.maxGenerations = true ∧
      seeding.start entropy input.settings.randomSeed = .ok task.source ∧
      task = ⟨input.settings, input.problem, task.source, input.root,
        switch "overwrite" input.output, switch "plots" input.output⟩ := by
  obtain ⟨_, s₁, made, seeded⟩ := bind_eq_ok.1 success
  have kept : s₁.files = shell'.files := (moves_seed seeding entropy input).of_eq_ok seeded
  obtain ⟨_, s₂, -, rest⟩ := bind_eq_ok.1 seeded
  obtain ⟨most, shown, rest⟩ := lift_bind_eq_ok.1 rest
  obtain ⟨_, s₃, -, rest⟩ := bind_eq_ok.1 rest
  obtain ⟨source, drawn, rest⟩ := lift_bind_eq_ok.1 rest
  cases rest
  rw [← kept]
  exact ⟨onFiles_eq_ok made, writable_of_toText shown, drawn, rfl⟩

variable (seeding)

/-- What a run does with its input. -/
def finish (entropy : Nat) (clock : Nat → Float) (now : String) (input : Input) :
    ShellM (RunResult Float) := do
  let task ← occupy seeding entropy input
  let result ← search clock task
  publish now task result
  pure result

theorem run_eq (entropy : Nat) (clock : Nat → Float) (now : String)
    (config : List (String × Document)) :
    run seeding entropy clock now config =
      readInput config >>= finish seeding entropy clock now := by
  unfold run finish
  rw [prepare_eq, bind_assoc]

variable (entropy : Nat) (clock : Nat → Float) (now : String) {input : Input}

theorem moves_complete (task : Task σ) :
    Moves (OnFiles (Spares (written task.plots task.root)))
      (search clock task >>= fun result => publish now task result >>= fun _ => pure result) :=
  (moves_search clock task).bind fun result =>
    (moves_publish now (List.Subset.refl _) result).bind fun _ => .pure

theorem moves_finish (input : Input) :
    Moves (OnFiles (Spares (written (switch "plots" input.output) input.root)))
      (finish seeding entropy clock now input) := by
  refine ((moves_occupy seeding entropy input).mono fun _ _ => Spares.of_paves).bind_of_ok ?_
  intro s task t occupied
  obtain ⟨-, -, -, same⟩ := occupy_eq_ok occupied
  have effect := moves_complete clock now task t
  rw [same] at effect ⊢
  exact effect

/-- Every file that a run writes is in its output directory. -/
theorem exists_child_of_written {plots : Bool} {root path : Path}
    (member : path ∈ written plots root) :
    ∃ name, path = root.child name ∧ name ≠ ".." ∧ name ≠ "/" := by
  have exported : path ∈ exports root := by
    cases plots with
    | true => exact member
    | false => exact List.mem_append_left _ member
  simp only [exports, List.mem_cons, List.not_mem_nil, or_false] at exported
  rcases exported with rfl | rfl | rfl | rfl | rfl
  · exact ⟨_, rfl, by decide, by decide⟩
  · exact ⟨_, rfl, by decide, by decide⟩
  · exact ⟨_, rfl, by decide, by decide⟩
  · exact ⟨_, rfl, by decide, by decide⟩
  · exact ⟨_, rfl, by decide, by decide⟩

/-- Without leave to overwrite, all that was there stays as it was. -/
theorem kept_of_finish (guarded : switch "overwrite" input.output = false) {shell : Shell}
    (grounded : shell.files.Grounded) {place : List String} {entry : Entry}
    (present : shell.files.entryAt? place = some entry) :
    (endOf (finish seeding entropy clock now input shell)).files.entryAt? place = some entry := by
  unfold finish
  cases occupied : occupy seeding entropy input shell with
  | error fault t =>
      rw [bind_error occupied]
      have paves : Paves input.root shell.files t.files :=
        (moves_occupy seeding entropy input).of_eq_error occupied
      exact paves.kept place entry present
  | ok task t =>
      rw [bind_of_ok occupied]
      have paves : Paves input.root shell.files t.files :=
        (moves_occupy seeding entropy input).of_eq_ok occupied
      obtain ⟨made, -, -, same⟩ := occupy_eq_ok occupied
      obtain ⟨here, found, directory, fresh⟩ := Workspace.createRoot_eq_ok made
      have spares : Spares _ t.files _ := moves_complete clock now task t
      refine spares.kept (paves.kept place entry present) ?_
      -- A file that is written is in the new directory, where nothing was before.
      intro path member leads
      rw [same] at member
      obtain ⟨name, rfl, down, named⟩ := exists_child_of_written member
      obtain rfl := Workspace.locate_child down (spares.locate found) (spares.directory directory)
        leads
      rw [grounded.absent (Workspace.isStart_append here down named) (fresh guarded)] at present
      cases present

/-- Where the output directory is there already, nothing is done. -/
theorem finish_of_found (guarded : switch "overwrite" input.output = false) {shell : Shell}
    (found : shell.files.contains input.root = .ok true) :
    finish seeding entropy clock now input shell = .error (.rootExists input.root.text) shell := by
  have refused : Workspace.createRoot input.root (switch "overwrite" input.output) shell.files =
      .error (.rootExists input.root.text) shell.files := by
    rw [guarded]
    exact bind_error (Workspace.refuse_of_found found) _
  have stopped : onFiles (Workspace.createRoot input.root (switch "overwrite" input.output)) shell =
      .error (.rootExists input.root.text) shell := by
    unfold onFiles
    rw [refused]
  exact bind_error (bind_error stopped _) _

/-- What a run of a configuration leaves of the files, however it ends. Without leave to overwrite,
all that was there stays as it was, and where the output directory is there already, the run faults
and changes nothing at all. With leave, the files that change are among those that the run writes
in its output directory. -/
theorem run_spares (config : List (String × Document)) {shell : Shell}
    (grounded : shell.files.Grounded) :
    let output := (Document.map config).getOrNull "output"
    let after := (endOf (run seeding entropy clock now config shell)).files
    after.Grounded ∧
    ((output.getOrNull "overwrite").isEmptyLike = true →
      (∀ place entry, shell.files.entryAt? place = some entry →
        after.entryAt? place = some entry) ∧
      ∀ root, Path.ofDocument (output.getOrNull "root") = .ok root →
        shell.files.contains root = .ok true →
        ∃ fault shell', run seeding entropy clock now config shell = .error fault shell' ∧
          shell'.files = shell.files) ∧
    ((output.getOrNull "overwrite").isEmptyLike = false →
      ∀ place entry, shell.files.entryAt? place = some entry →
        after.entryAt? place = some entry ∨
          shell.files.HasFile place ∧ after.HasFile place ∧
            ∃ root, Path.ofDocument (output.getOrNull "root") = .ok root ∧
              ∃ path ∈ written (!(output.getOrNull "plots").isEmptyLike) root,
                after.locate path = .place place) := by
  intro output after
  cases result : readInput config shell with
  | error fault t =>
      have ended : run seeding entropy clock now config shell = .error fault t := by
        rw [run_eq, bind_error result]
      have same : shell.files = t.files := (moves_readInput config).of_eq_error result
      have unchanged : after = shell.files :=
        (congrArg (fun ending => (endOf ending).files) ended).trans same.symm
      rw [unchanged]
      exact ⟨grounded,
        fun _ => ⟨fun _ _ present => present, fun _ _ _ => ⟨fault, t, ended, same.symm⟩⟩,
        fun _ _ _ present => .inl present⟩
  | ok input t =>
      obtain ⟨same, describes, -⟩ := readInput_eq_ok result
      have ended : run seeding entropy clock now config shell =
          finish seeding entropy clock now input t := by
        rw [run_eq, bind_of_ok result]
      have goes : after = (endOf (finish seeding entropy clock now input t)).files :=
        congrArg (fun ending => (endOf ending).files) ended
      have described : output = .map input.output := describes.output
      rw [goes, ended, described, ← same]
      have spares : Spares _ t.files _ :=
        moves_finish seeding entropy clock now input t
      refine ⟨spares.grounded (same ▸ grounded), fun empty => ?_, fun _ place entry present => ?_⟩
      · have guarded : switch "overwrite" input.output = false := by
          rw [switch, empty]
          rfl
        refine ⟨fun place entry present => ?_, fun root given found => ?_⟩
        · exact kept_of_finish seeding entropy clock now guarded (same ▸ grounded) present
        · cases given.symm.trans describes.root
          exact ⟨_, t, finish_of_found seeding entropy clock now guarded found, rfl⟩
      · rcases spares.spared place entry present with kept | ⟨before, still, changed⟩
        · exact .inl kept
        · exact .inr ⟨before, still, input.root, describes.root, changed⟩

end

/-- The message of a run that faults. -/
def messageOf? {σ β : Type} : EStateM.Result Fault σ β → Option String
  | .ok .. => none
  | .error fault _ => some fault.message

/-- A workspace with a problem, and with the output of an earlier run. -/
def usedFiles : Workspace where
  entries := [(["problem.yaml"], .document (.map [("jobs", .list [.map [("length", .whole 1)]]),
      ("nodes", .list [.map [("capacity", .whole 1)]])])),
    (["out"], .directory), (["out", "assignment.csv"], .text "job_id,node_index\r\n")]
  parse _ := none

def usedConfig : List (String × Document) :=
  [("problem", .text "problem.yaml"), ("output", .map [("root", .text "out")])]

theorem grounded_usedFiles : usedFiles.Grounded := by
  refine Workspace.grounded_of_entries fun item member inner => ?_
  simp only [usedFiles, List.mem_cons, List.not_mem_nil, or_false] at member
  rcases member with rfl | rfl | rfl
  · rfl
  · rfl
  · rfl

/-- The output directory is what stands in the way here. -/
theorem run_spares_usedFiles :
    ∃ fault shell', run Stream.seeding 0 (fun _ => 0) "2024-01-01T00:00:00" usedConfig
        (Shell.start usedFiles) = .error fault shell' ∧
      fault.message = (Fault.rootExists "out").message ∧ shell'.files = usedFiles := by
  have grounded : (Shell.start usedFiles).files.Grounded := grounded_usedFiles
  obtain ⟨-, guarded, -⟩ := run_spares Stream.seeding 0 (fun _ => 0) "2024-01-01T00:00:00"
    usedConfig grounded
  obtain ⟨-, refused⟩ := guarded rfl
  obtain ⟨fault, shell', failed, same⟩ := refused ⟨0, ["out"]⟩ rfl (by decide +kernel)
  have message : messageOf? (run Stream.seeding 0 (fun _ => 0) "2024-01-01T00:00:00" usedConfig
      (Shell.start usedFiles)) = some (Fault.rootExists "out").message := by decide +kernel
  rw [failed] at message
  exact ⟨fault, shell', failed, Option.some.inj message, same⟩

end Schedule

end EvoSched
