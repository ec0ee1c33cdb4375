import EvoSched.Configuration
import EvoSched.Problem.Source
import EvoSched.Proofs.Problem.Malformed

set_option autoImplicit false

namespace EvoSched

namespace Fault

/-- The problem section is of a form that describes no source. -/
def isShapeless : Fault → Bool
  | invalid .problemShape | invalid .problemSource => true
  | _ => false

/-- No file is where one is looked for. -/
def isMissingFile : Fault → Bool
  | configMissing _ | tableMissing _ | fileMissing _ => true
  | _ => false

end Fault

/-- Whatever the result faults for, it is not for want of a source. -/
def Sourced {β : Type} (result : Except Fault β) : Prop :=
  ∀ fault, result = .error fault → fault.isShapeless = false ∧ fault.isMissingFile = false

namespace Sourced

variable {β γ : Type}

theorem ok {x : β} : Sourced (.ok x : Except Fault β) := nofun

theorem error {fault : Fault} (other : fault.isShapeless = false ∧ fault.isMissingFile = false) :
    Sourced (.error fault : Except Fault β) := by
  intro _ same
  cases same
  exact other

theorem bind {result : Except Fault β} {next : β → Except Fault γ} (first : Sourced result)
    (rest : ∀ x, Sourced (next x)) : Sourced (result >>= next) := by
  intro fault failed
  rcases result_bind_eq_error.1 failed with failed | ⟨x, -, failed⟩
  · exact first fault failed
  · exact rest x fault failed

/-- A fault that says why a value cannot be read is none for want of a source. -/
theorem of_stray {result : Except Fault β}
    (others : ∀ fault, (∀ why, fault ≠ .unreadable why) → result = .error fault →
      fault.isShapeless = false ∧ fault.isMissingFile = false) : Sourced result := by
  intro fault failed
  by_cases reported : ∃ why, fault = .unreadable why
  · obtain ⟨why, rfl⟩ := reported
    exact ⟨rfl, rfl⟩
  · exact others fault (not_exists.1 reported) failed

end Sourced

namespace Document

theorem sourced_field? (key : String) (d : Document) : Sourced (d.field? key) := by
  intro fault failed
  have baffles : d.Baffles key fault := field?_eq_error_iff.1 failed
  cases baffles with
  | scalar plain => exact ⟨rfl, rfl⟩
  | text occurs => exact ⟨rfl, rfl⟩
  | list inside => exact ⟨rfl, rfl⟩

theorem sourced_toReal (d : Document) : Sourced d.toReal := by
  apply Sourced.of_stray
  intro fault stray failed
  obtain ⟨n, -, -, rfl⟩ := (toReal_eq_error_iff stray).1 failed
  exact ⟨rfl, rfl⟩

theorem sourced_toWhole (d : Document) : Sourced d.toWhole := by
  apply Sourced.of_stray
  intro fault stray failed
  obtain ⟨x, negative, -, -, rfl⟩ := (toWhole_eq_error_iff stray).1 failed
  exact ⟨rfl, rfl⟩

end Document

section

variable {β : Type}

theorem sourced_realField (d : Document) (key : String) : Sourced (realField d key) :=
  Document.sourced_toReal _

theorem sourced_idField (d : Document) (default : String) : Sourced (idField d default) := by
  apply Sourced.of_stray
  intro fault stray failed
  obtain ⟨why, same⟩ := idField_eq_error failed
  exact absurd same (stray why)

theorem sourced_requireField (item field : String) (d : Document) (index : Int) :
    Sourced (requireField item field d index) := by
  refine (Document.sourced_field? field d).bind fun found => ?_
  cases found with
  | none => exact .error ⟨rfl, rfl⟩
  | some value =>
      dsimp only
      split
      · exact .error ⟨rfl, rfl⟩
      · exact .ok

theorem sourced_inItem {result : Except Fault β} (sourced : Sourced result) (item : String)
    (index : Int) : Sourced (inItem item index result) := by
  unfold inItem
  split
  · exact .error ⟨rfl, rfl⟩
  · exact sourced

theorem Job.sourced_ofDocument (d : Document) (index : Int) : Sourced (ofDocument d index) := by
  refine (sourced_requireField _ _ d index).bind fun given => sourced_inItem ?_ _ index
  refine (Document.sourced_toReal given).bind fun length => ?_
  refine (sourced_realField d _).bind fun memory => (sourced_realField d _).bind fun input => ?_
  refine (sourced_realField d _).bind fun output => (Document.sourced_toWhole _).bind fun pes => ?_
  exact (sourced_idField d _).bind fun id => .ok

theorem Node.sourced_ofDocument (d : Document) (index : Int) : Sourced (ofDocument d index) := by
  refine (sourced_requireField _ _ d index).bind fun given => sourced_inItem ?_ _ index
  refine (Document.sourced_toReal given).bind fun capacity => ?_
  refine (sourced_realField d _).bind fun perSecond => ?_
  refine (sourced_realField d _).bind fun perMemory => ?_
  refine (sourced_realField d _).bind fun perTransfer => ?_
  exact (sourced_idField d _).bind fun id => .ok

theorem sourced_readEach {read : Document → Int → Except Fault β}
    (each : ∀ d index, Sourced (read d index)) (index : Nat) (ds : List Document) :
    Sourced (readEach read index ds) := by
  intro fault failed
  obtain ⟨front, d, rest, items, -, -, failing⟩ := readEach_eq_error_iff.1 failed
  exact each _ _ fault failing

theorem Problem.sourced_listField (path key : String) (entries : List (String × Document)) :
    Sourced (listField path key entries) := by
  unfold listField
  split
  · exact .error ⟨rfl, rfl⟩
  · exact .ok
  · exact .error ⟨rfl, rfl⟩

theorem Problem.sourced_ofEntries (path : String) (entries : List (String × Document)) :
    Sourced (ofEntries path entries) := by
  refine (sourced_listField path _ entries).bind fun jobs => ?_
  refine (sourced_listField path _ entries).bind fun nodes => ?_
  refine (sourced_readEach Job.sourced_ofDocument 0 jobs).bind fun _ => ?_
  exact (sourced_readEach Node.sourced_ofDocument 0 nodes).bind fun _ => .ok

end

namespace Workspace

variable {ws : Workspace} {path : Path} {missing : Fault}

theorem contains_iff : ws.contains path = .ok true ↔ ∃ entry, ws.Holds path entry := by
  constructor
  · intro found
    unfold contains lookup at found
    split at found
    · rename_i names leads
      obtain ⟨entry, present⟩ := Option.isSome_iff_exists.1 (Except.ok.inj found)
      exact ⟨entry, names, leads, present⟩
    · cases found
    · cases found
    · cases found
    · cases found
  · rintro ⟨entry, names, leads, present⟩
    exact contains_of_entry leads present

theorem contains_of_findFile {entry : Entry} (success : ws.findFile path missing = .ok entry) :
    ws.contains path = .ok true := by
  obtain ⟨found, looked, rest⟩ := result_bind_eq_ok.1 success
  cases found with
  | true => exact looked
  | false => cases rest

theorem Holds.findFile_of_directory (holds : ws.Holds path .directory) (missing : Fault) :
    ws.findFile path missing = .error (.directoryInTheWay path.text) := by
  have ⟨names, leads, present⟩ := holds
  unfold Workspace.findFile
  rw [contains_of_entry leads present]
  change ws.loadFile path = _
  unfold Workspace.loadFile
  rw [leads]
  simp only [present]

/-- At most a directory is in the way of reading a file that is there. -/
theorem sourced_findFile (found : ws.contains path = .ok true) (missing : Fault) :
    Sourced (ws.findFile path missing) := by
  obtain ⟨entry, holds⟩ := contains_iff.1 found
  by_cases file : entry = .directory
  · rw [file] at holds
    rw [holds.findFile_of_directory]
    exact .error ⟨rfl, rfl⟩
  · rw [holds.findFile file]
    exact .ok

theorem sourced_documentIn (entry : Entry) : Sourced (ws.documentIn entry) := by
  cases entry with
  | figure f => exact .error ⟨rfl, rfl⟩
  | _ => exact .ok

theorem sourced_tableIn (entry : Entry) : Sourced (tableIn entry) := by
  cases entry with
  | figure f => exact .error ⟨rfl, rfl⟩
  | _ => exact .ok

theorem sourced_loadEntries {given : String} (found : ws.contains (Path.ofText given) = .ok true) :
    Sourced (ws.loadEntries given) := by
  refine (sourced_findFile found _).bind fun entry => (sourced_documentIn entry).bind fun d => ?_
  split
  · exact .error ⟨rfl, rfl⟩
  · exact .error ⟨rfl, rfl⟩
  · exact .ok
  · exact .error ⟨rfl, rfl⟩

theorem sourced_loadTable (found : ws.contains path = .ok true) (required : List String) :
    Sourced (ws.loadTable path required) := by
  refine (sourced_findFile found _).bind fun entry => (sourced_tableIn entry).bind fun table => ?_
  split
  · exact .error ⟨rfl, rfl⟩
  · split
    · exact .error ⟨rfl, rfl⟩
    · split
      · exact .error ⟨rfl, rfl⟩
      · exact .ok

/-- A value names a file that is there. -/
def Finds (ws : Workspace) (given : Document) : Prop :=
  ∃ path, Path.ofDocument given = .ok path ∧ ws.contains path = .ok true

end Workspace

namespace ProblemSource

variable {ws : Workspace} {given section_ : Document} {source : ProblemSource}

/-- A section describes a source. Under a path, tables are passed over; one table alone is no
source. -/
inductive Describes : Document → ProblemSource → Prop where
  | text (s : String) : Describes (.text s) (.document (.text s))
  | document {entries : List (String × Document)} {given : Document}
      (path : entries.lookup "path" = some given) : Describes (.map entries) (.document given)
  | tables {entries : List (String × Document)} {jobs nodes : Document}
      (pathless : entries.lookup "path" = none) (jobsFound : entries.lookup "jobs_csv" = some jobs)
      (nodesFound : entries.lookup "nodes_csv" = some nodes) :
      Describes (.map entries) (.tables jobs nodes)

theorem ofSection_eq_ok_iff : ofSection section_ = .ok source ↔ Describes section_ source := by
  constructor
  · intro success
    unfold ofSection at success
    split at success
    · cases success
      exact .text _
    · split at success
      · rename_i path
        cases success
        exact .document path
      · rename_i pathless
        split at success
        · rename_i jobsFound nodesFound
          cases success
          exact .tables pathless jobsFound nodesFound
        · cases success
    · cases success
  · intro describes
    cases describes with
    | text s => rfl
    | document path => simp only [ofSection, path]
    | tables pathless jobsFound nodesFound =>
        simp only [ofSection, pathless, jobsFound, nodesFound]

/-- The two tables of a source are loaded one after the other. -/
theorem load_tables {jobs nodes : Document} {jobsPath nodesPath : Path}
    (jobsNamed : Path.ofDocument jobs = .ok jobsPath)
    (nodesNamed : Path.ofDocument nodes = .ok nodesPath) :
    (tables jobs nodes).load ws = (do
      let jobs ← Job.loadTable ws jobsPath
      let nodes ← Node.loadTable ws nodesPath
      pure ⟨jobs, nodes⟩) := by
  unfold load
  simp only [jobsNamed, nodesNamed]
  rfl

/-- A source that was found does not fault for want of a file. -/
theorem sourced_load (found : ∀ given ∈ source.paths, ws.Finds given) :
    Sourced (source.load ws) := by
  cases source with
  | document given =>
      obtain ⟨path, named, contains⟩ := List.forall_mem_singleton.1 found
      cases given with
      | text s =>
          cases named
          exact (Workspace.sourced_loadEntries contains).bind fun entries =>
            Problem.sourced_ofEntries s entries
      | _ => cases named
  | tables jobs nodes =>
      obtain ⟨⟨jobsPath, jobsNamed, jobsFound⟩, others⟩ := List.forall_mem_cons.1 found
      obtain ⟨nodesPath, nodesNamed, nodesFound⟩ := List.forall_mem_singleton.1 others
      rw [load_tables jobsNamed nodesNamed]
      refine Sourced.bind ?_ fun jobs => Sourced.bind ?_ fun nodes => .ok
      · exact (Workspace.sourced_loadTable jobsFound _).bind fun rows =>
          sourced_readEach Job.sourced_ofDocument 0 rows
      · exact (Workspace.sourced_loadTable nodesFound _).bind fun rows =>
          sourced_readEach Node.sourced_ofDocument 0 rows

/-- A source that can be loaded is found. -/
theorem finds_of_load {problem : Problem Float} (loaded : source.load ws = .ok problem) :
    ∀ given ∈ source.paths, ws.Finds given := by
  cases source with
  | document given =>
      cases given with
      | text s =>
          obtain ⟨_, -, rest⟩ := result_bind_eq_ok.1 loaded
          obtain ⟨entries, opened, -⟩ := result_bind_eq_ok.1 rest
          obtain ⟨entry, read, -⟩ := result_bind_eq_ok.1 opened
          have found : ws.Finds (.text s) := ⟨_, rfl, Workspace.contains_of_findFile read⟩
          exact List.forall_mem_singleton.2 found
      | _ => cases loaded
  | tables jobs nodes =>
      obtain ⟨jobsPath, jobsNamed, rest⟩ := result_bind_eq_ok.1 loaded
      obtain ⟨_, jobsLoaded, rest⟩ := result_bind_eq_ok.1 rest
      obtain ⟨nodesPath, nodesNamed, rest⟩ := result_bind_eq_ok.1 rest
      obtain ⟨_, nodesLoaded, -⟩ := result_bind_eq_ok.1 rest
      obtain ⟨_, jobsOpened, -⟩ := result_bind_eq_ok.1 jobsLoaded
      obtain ⟨_, nodesOpened, -⟩ := result_bind_eq_ok.1 nodesLoaded
      obtain ⟨_, jobsRead, -⟩ := result_bind_eq_ok.1 jobsOpened
      obtain ⟨_, nodesRead, -⟩ := result_bind_eq_ok.1 nodesOpened
      refine List.forall_mem_cons.2 ⟨?_, List.forall_mem_singleton.2 ?_⟩
      · exact ⟨jobsPath, jobsNamed, Workspace.contains_of_findFile jobsRead⟩
      · exact ⟨nodesPath, nodesNamed, Workspace.contains_of_findFile nodesRead⟩

end ProblemSource

namespace Configuration

variable {ws : Workspace} {given section_ : Document}

/-- The check and the loading read a section alike: they refuse the same sections, in the same way,
and of the others they look at the same files. -/
theorem problemPaths_eq (section_ : Document) :
    problemPaths section_ = (ProblemSource.ofSection section_).map ProblemSource.paths := by
  cases section_ with
  | text s => rfl
  | map entries =>
      unfold problemPaths ProblemSource.ofSection
      dsimp only
      cases entries.lookup "path" with
      | some path => rfl
      | none =>
          cases entries.lookup "jobs_csv" with
          | none => rfl
          | some jobs =>
              cases entries.lookup "nodes_csv" with
              | none => rfl
              | some nodes => rfl
  | _ => rfl

theorem checkPath_eq_ok_iff : checkPath ws given = .ok () ↔ ws.Finds given := by
  unfold checkPath Workspace.Finds
  rw [result_bind_eq_ok]
  apply exists_congr
  intro path
  apply and_congr_right
  intro _
  rw [result_bind_eq_ok]
  constructor
  · rintro ⟨found, looked, rest⟩
    cases found with
    | true => exact looked
    | false => cases rest
  · intro found
    exact ⟨true, found, rfl⟩

theorem checkPaths_eq_ok_iff {givens : List Document} :
    checkPaths ws givens = .ok () ↔ ∀ given ∈ givens, ws.Finds given := by
  induction givens with
  | nil => exact ⟨fun _ => nofun, fun _ => rfl⟩
  | cons given rest ih =>
      rw [List.forall_mem_cons, ← ih, ← checkPath_eq_ok_iff]
      exact result_then_eq_ok

theorem checkProblem_eq_ok_iff :
    checkProblem ws section_ = .ok () ↔ ∃ source,
      ProblemSource.Describes section_ source ∧ ∀ given ∈ source.paths, ws.Finds given := by
  unfold checkProblem
  rw [problemPaths_eq, result_bind_eq_ok]
  simp only [checkPaths_eq_ok_iff, ← ProblemSource.ofSection_eq_ok_iff]
  cases ProblemSource.ofSection section_ with
  | error fault => simp [Except.map]
  | ok source => simp [Except.map]

/-- A section that passes the check leads a load no further than to what its files hold. -/
theorem sourced_loadSection (checked : checkProblem ws section_ = .ok ()) :
    Sourced (ProblemSource.loadSection ws section_) := by
  obtain ⟨source, describes, found⟩ := checkProblem_eq_ok_iff.1 checked
  unfold ProblemSource.loadSection
  rw [ProblemSource.ofSection_eq_ok_iff.2 describes]
  exact ProblemSource.sourced_load found

theorem checkProblem_of_load {problem : Problem Float}
    (loaded : ProblemSource.loadSection ws section_ = .ok problem) :
    checkProblem ws section_ = .ok () := by
  obtain ⟨source, described, loaded⟩ := result_bind_eq_ok.1 loaded
  exact checkProblem_eq_ok_iff.2
    ⟨source, ProblemSource.ofSection_eq_ok_iff.1 described, ProblemSource.finds_of_load loaded⟩

end Configuration

end EvoSched
