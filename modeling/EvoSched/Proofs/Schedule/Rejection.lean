import EvoSched.Proofs.Schedule.Frame

set_option autoImplicit false

namespace EvoSched

namespace Workspace

variable {ws ws' : Workspace} {path : Path}

/-- Where a new directory cannot be made, nothing is done or only some of the way is. -/
theorem createRoot_eq_error {fault : Fault}
    (failed : createRoot path false ws = .error fault ws') :
    ws' = ws ∨ ws.contains path = .ok false ∧ makeDirectory path false ws = .error fault ws' := by
  unfold createRoot at failed
  cases free : refuse path false (.rootExists path.text) ws with
  | error other ws₁ =>
      rw [bind_error free] at failed
      cases failed
      have same : ws = ws' := (moves_refuse path false _).of_eq_error free
      exact .inl same.symm
  | ok x ws₁ =>
      rw [bind_of_ok free] at failed
      obtain ⟨rfl, found, looked, guarded⟩ := refuse_eq_ok.1 free
      cases found with
      | false => exact .inr ⟨looked, failed⟩
      | true => cases guarded rfl

theorem contains_of_createRoot {overwrite : Bool}
    (success : createRoot path overwrite ws = .ok () ws') : ws'.contains path = .ok true := by
  obtain ⟨names, found, directory, -⟩ := createRoot_eq_ok success
  exact contains_of_entry found directory

theorem absent_of_createRoot (success : createRoot path false ws = .ok () ws') :
    ws.contains path = .ok false := by
  obtain ⟨_, _, free, -⟩ := bind_eq_ok.1 success
  obtain ⟨-, found, looked, guarded⟩ := refuse_eq_ok.1 free
  cases found with
  | false => exact looked
  | true => cases guarded rfl

end Workspace

open Workspace (Paves)
open Shell

namespace Schedule

variable {σ : Type} [Source σ Float] {seeding : Seeding σ} {entropy : Nat} {clock : Nat → Float}
  {config : List (String × Document)} {input : Input} {shell shell' : Shell} {fault : Fault}

/-- What a rejected run leaves behind of an output directory that was not there: directories on the
way to it, and the directory itself if it could be made. -/
structure LeavesRoot (root : Path) (fault : Fault) (files files' : Workspace) : Prop where
  absent : files.contains root = .ok false
  paves : Paves root files files'
  cause : Workspace.makeDirectory root false files = .error fault files' ∨
    files'.contains root = .ok true

theorem files_of_rejected (guarded : switch "overwrite" input.output = false)
    (failed : (occupy seeding entropy input >>= search clock) shell = .error fault shell') :
    shell'.files = shell.files ∨ LeavesRoot input.root fault shell.files shell'.files := by
  unfold occupy at failed
  rw [bind_assoc, guarded] at failed
  have paves : Moves (OnFiles (Paves input.root))
      (onFiles (Workspace.createRoot input.root false)) :=
    moves_onFiles (Workspace.moves_createRoot input.root false)
  cases made : onFiles (Workspace.createRoot input.root false) shell with
  | error other t =>
      rw [bind_error made] at failed
      cases failed
      rcases Workspace.createRoot_eq_error (onFiles_eq_error made) with same | ⟨absent, cause⟩
      · exact .inl same
      · exact .inr ⟨absent, paves.of_eq_error made, .inl cause⟩
  | ok x t =>
      rw [bind_of_ok made] at failed
      have goes_on : Moves (OnFiles Eq) (seed seeding entropy input >>= search clock) :=
        (moves_seed seeding entropy input).bind fun task => moves_search clock task
      have same : t.files = shell'.files := goes_on.of_eq_error failed
      have created := onFiles_eq_ok made
      have there := Workspace.contains_of_createRoot created
      have effect : Paves input.root shell.files t.files := paves.of_eq_ok made
      rw [same] at there effect
      exact .inr ⟨Workspace.absent_of_createRoot created, effect, .inr there⟩

/-- A run without leave to overwrite that faults before its search has a result. If the settings,
the problem, or the output section cannot be read, or if the output directory is there already, the
files are as they were. Otherwise nothing is changed either, but directories may have been added:
those on the way to the output directory, and that directory itself, which is in the way of the
next run. -/
theorem run_rejects (now : String)
    (guarded : (((Document.map config).getOrNull "output").getOrNull "overwrite").isEmptyLike =
      true)
    (failed : (prepare seeding entropy config >>= search clock) shell = .error fault shell') :
    run seeding entropy clock now config shell = .error fault shell' ∧
      (shell'.files = shell.files ∨
        ∃ input : Input, input.Describes config shell.files ∧
          LeavesRoot input.root fault shell.files shell'.files) := by
  have stopped : run seeding entropy clock now config shell = .error fault shell' := by
    unfold run
    cases prepared : prepare seeding entropy config shell with
    | error other t =>
        rw [bind_error prepared] at failed ⊢
        cases failed
        rfl
    | ok task t =>
        rw [bind_of_ok prepared] at failed ⊢
        exact bind_error failed _
  refine ⟨stopped, ?_⟩
  rw [prepare_eq, bind_assoc] at failed
  cases result : readInput config shell with
  | error other t =>
      rw [bind_error result] at failed
      cases failed
      have same : shell.files = shell'.files := (moves_readInput config).of_eq_error result
      exact .inl same.symm
  | ok input t =>
      rw [bind_of_ok result] at failed
      obtain ⟨same, describes, -⟩ := readInput_eq_ok result
      have closed : switch "overwrite" input.output = false := by
        rw [describes.output] at guarded
        rw [switch, guarded]
        rfl
      rw [← same]
      exact (files_of_rejected closed failed).imp_right fun leaves =>
        ⟨input, same ▸ describes, leaves⟩

theorem exists_error_of_messageOf? {σ β : Type} {result : EStateM.Result Fault σ β}
    {message : String} (failed : messageOf? result = some message) :
    ∃ fault, result = .error fault (endOf result) ∧ fault.message = message := by
  cases result with
  | ok x s => cases failed
  | error fault s => exact ⟨fault, rfl, Option.some.inj failed⟩

/-- A workspace with the problem of one job and one node. -/
def orderFiles : Workspace where
  entries := [(["order.yaml"], .document (.map [("jobs", .list [.map [("length", .whole 1)]]),
    ("nodes", .list [.map [("capacity", .whole 1)]])]))]
  parse _ := none

def orderConfig (seed : Int) : List (String × Document) :=
  [("problem", .text "order.yaml"), ("ga", .map [("random_seed", .whole seed)]),
    ("output", .map [("root", .text "out")])]

theorem exists_fault_order :
    ∃ fault, (prepare Stream.seeding 0 (orderConfig (-1)) >>= search fun _ => 0)
        (Shell.start orderFiles) = .error fault (endOf
          ((prepare Stream.seeding 0 (orderConfig (-1)) >>= search fun _ => 0)
            (Shell.start orderFiles))) ∧
      fault.message = "expected non-negative integer" :=
  exists_error_of_messageOf? (by decide +kernel)

/-- A configuration with a negative seed is accepted, the search rejects it, and by then the output
directory is there: the files have changed, and a run with a better seed is refused. -/
theorem search_leaves_root :
    Configuration.check orderFiles (.map (orderConfig (-1))) = .ok () ∧
      (((Document.map (orderConfig (-1))).getOrNull "output").getOrNull "overwrite").isEmptyLike =
        true ∧
      orderFiles.contains ⟨0, ["out"]⟩ = .ok false ∧
      ∃ fault shell', (prepare Stream.seeding 0 (orderConfig (-1)) >>= search fun _ => 0)
          (Shell.start orderFiles) = .error fault shell' ∧
        fault.message = "expected non-negative integer" ∧
        shell'.files.contains ⟨0, ["out"]⟩ = .ok true ∧
        ∃ fault' shell'', run Stream.seeding 0 (fun _ => 0) "2024-01-01T00:00:00" (orderConfig 1)
            shell' = .error fault' shell'' ∧
          fault'.message = "Output directory already exists: out\n" ++
            "Set 'output.overwrite: true' in config to overwrite" := by
  refine ⟨by decide +kernel, by rfl, by decide +kernel, ?_⟩
  obtain ⟨fault, failed, message⟩ := exists_fault_order
  refine ⟨fault, _, failed, message, by decide +kernel, ?_⟩
  obtain ⟨fault', refused, message'⟩ := exists_error_of_messageOf?
    (by decide +kernel : messageOf? (run Stream.seeding 0 (fun _ => 0) "2024-01-01T00:00:00"
      (orderConfig 1) (endOf ((prepare Stream.seeding 0 (orderConfig (-1)) >>= search fun _ => 0)
        (Shell.start orderFiles)))) =
      some ("Output directory already exists: out\n" ++
        "Set 'output.overwrite: true' in config to overwrite"))
  exact ⟨fault', _, refused, message'⟩

theorem run_rejects_order :
    ∃ fault shell', run Stream.seeding 0 (fun _ => 0) "2024-01-01T00:00:00" (orderConfig (-1))
        (Shell.start orderFiles) = .error fault shell' ∧
      (shell'.files = orderFiles ∨
        ∃ input : Input, input.Describes (orderConfig (-1)) orderFiles ∧
          LeavesRoot input.root fault orderFiles shell'.files) := by
  obtain ⟨fault, failed, -⟩ := exists_fault_order
  exact ⟨fault, _, run_rejects "2024-01-01T00:00:00" rfl failed⟩

end Schedule

end EvoSched
