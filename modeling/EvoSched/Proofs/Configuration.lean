import EvoSched.Proofs.Problem.Source
import EvoSched.Proofs.Schedule.Rejection

set_option autoImplicit false

namespace EvoSched

theorem Document.valueAt_eq_ok_iff {d value : Document} {key : String} :
    d.valueAt key = .ok value ↔ ∃ entries, d = .map entries ∧ entries.lookup key = some value := by
  constructor
  · intro found
    unfold valueAt at found
    split at found
    · rename_i entries
      split at found
      · rename_i inside
        cases found
        exact ⟨entries, rfl, inside⟩
      · cases found
    · cases found
    · cases found
  · rintro ⟨entries, rfl, inside⟩
    simp only [valueAt, inside]

theorem Schedule.valueOf_of_lookup {entries : List (String × Document)} {key : String}
    {value : Document} (found : entries.lookup key = some value) :
    valueOf key entries = .ok value := by
  unfold valueOf
  rw [found]

theorem result_discard_eq_ok {ε β : Type} {result : Except ε β} :
    discard result = .ok () ↔ ∃ x, result = .ok x := by
  cases result with
  | error fault => exact ⟨nofun, nofun⟩
  | ok x => exact ⟨fun _ => ⟨x, rfl⟩, fun _ => rfl⟩

namespace Configuration

variable {ws : Workspace} {config : Document} {entries : List (String × Document)}

/-- What a configuration that is accepted has: a section whose problem is found, an output section
with a root, and settings, which may be missing or null. -/
structure Accepted (ws : Workspace) (entries : List (String × Document)) : Prop where
  problem : ∃ section_, entries.lookup "problem" = some section_ ∧
    checkProblem ws section_ = .ok ()
  output : ∃ output, entries.lookup "output" = some (.map output) ∧
    (output.lookup "root").isSome = true
  shape : (Document.map entries).getOrNull "ga" = .null ∨
    ∃ ga, (Document.map entries).getOrNull "ga" = .map ga
  settings : ∃ settings, Settings.ofDocument ((Document.map entries).getOrNull "ga") = .ok settings

theorem checkOutput_eq_ok_iff {d : Document} :
    checkOutput d = .ok () ↔ ∃ output, d = .map output ∧ (output.lookup "root").isSome = true := by
  constructor
  · intro checked
    unfold checkOutput at checked
    split at checked
    · split at checked
      · rename_i root
        exact ⟨_, rfl, root⟩
      · cases checked
    · cases checked
  · rintro ⟨output, rfl, root⟩
    simp only [checkOutput, root, if_true]

theorem checkSettings_eq_ok_iff {d : Document} :
    checkSettings d = .ok () ↔
      (d = .null ∨ ∃ ga, d = .map ga) ∧ ∃ settings, Settings.ofDocument d = .ok settings := by
  unfold checkSettings
  split
  · simp [result_discard_eq_ok]
  · simp [result_discard_eq_ok]
  · rename_i not_null not_map
    constructor
    · exact nofun
    · rintro ⟨null | ⟨ga, map⟩, -⟩
      · exact absurd null not_null
      · exact absurd map (not_map ga)

theorem requireKey_of_lookup {key : String} {value : Document}
    (found : entries.lookup key = some value) : requireKey key (.map entries) = .ok () := by
  have there : (Document.map entries).hasKey key = .ok true := by rw [Document.hasKey, found]; rfl
  exact result_bind_eq_ok.2 ⟨true, there, rfl⟩

/-- The check passes exactly for the configurations that have all of this. -/
theorem check_eq_ok_iff :
    check ws config = .ok () ↔ ∃ entries, config = .map entries ∧ Accepted ws entries := by
  constructor
  · intro checked
    obtain ⟨-, rest⟩ := result_then_eq_ok.1 checked
    obtain ⟨-, rest⟩ := result_then_eq_ok.1 rest
    obtain ⟨section_, given, rest⟩ := result_bind_eq_ok.1 rest
    obtain ⟨found, rest⟩ := result_then_eq_ok.1 rest
    obtain ⟨value, written, rest⟩ := result_bind_eq_ok.1 rest
    obtain ⟨rooted, settled⟩ := result_then_eq_ok.1 rest
    obtain ⟨entries, rfl, inside⟩ := Document.valueAt_eq_ok_iff.1 given
    obtain ⟨_, same, outside⟩ := Document.valueAt_eq_ok_iff.1 written
    cases same
    obtain ⟨output, rfl, root⟩ := checkOutput_eq_ok_iff.1 rooted
    obtain ⟨shape, settings⟩ := checkSettings_eq_ok_iff.1 settled
    exact ⟨entries, rfl, {
      problem := ⟨section_, inside, found⟩
      output := ⟨output, outside, root⟩
      shape, settings }⟩
  · rintro ⟨entries, rfl, accepted⟩
    obtain ⟨section_, inside, found⟩ := accepted.problem
    obtain ⟨output, outside, root⟩ := accepted.output
    have settled := checkSettings_eq_ok_iff.2 ⟨accepted.shape, accepted.settings⟩
    have rooted := checkOutput_eq_ok_iff.2 ⟨output, rfl, root⟩
    have written := Document.valueAt_eq_ok_iff.2 ⟨entries, rfl, outside⟩
    have given := Document.valueAt_eq_ok_iff.2 ⟨entries, rfl, inside⟩
    refine result_then_eq_ok.2 ⟨requireKey_of_lookup inside, ?_⟩
    refine result_then_eq_ok.2 ⟨requireKey_of_lookup outside, ?_⟩
    refine result_bind_eq_ok.2 ⟨section_, given, ?_⟩
    refine result_then_eq_ok.2 ⟨found, result_bind_eq_ok.2 ⟨.map output, written, ?_⟩⟩
    exact result_then_eq_ok.2 ⟨rooted, settled⟩

/-- Settings that are missing are those of an empty map and those of null. -/
theorem ofDocument_missing (config : Document) :
    Settings.ofDocument ((config.get? "ga").getD (.map [])) =
      Settings.ofDocument (config.getOrNull "ga") := by
  unfold Document.getOrNull
  cases config.get? "ga" with
  | none => rfl
  | some ga => rfl

end Configuration

open Shell

namespace Schedule

variable {σ : Type} [Source σ Float] (seeding : Seeding σ) (entropy : Nat)
  (clock : Nat → Float) (now : String)

/-- A run from where its settings and its problem were read. -/
def proceed (config : List (String × Document)) (settings : Settings) (problem : Problem Float) :
    ShellM (RunResult Float) := do
  say ("Problem: " ++ toString problem.jobs.length ++ " jobs on " ++
    toString problem.nodes.length ++ " nodes")
  let output ← lift (valueOf "output" config >>= entriesIn)
  let root ← lift (valueOf "root" output >>= Path.ofDocument)
  finish seeding entropy clock now ⟨settings, problem, output, root⟩

theorem lift_ok_bind {β γ : Type} (x : β) (next : β → ShellM γ) : lift (.ok x) >>= next = next x :=
  rfl

theorem read_eq_lift {β : Type} (reading : Workspace → Except Fault β) (shell : Shell) :
    Shell.read reading shell = lift (reading shell.files) shell := rfl

theorem run_eq_proceed (config : List (String × Document)) :
    run seeding entropy clock now config = (do
      sayEach (heading "GA SCHEDULER")
      let settings ← lift (Settings.ofDocument ((Document.map config).getOrNull "ga"))
      describeSettings settings
      let section_ ← lift (valueOf "problem" config)
      let problem ← Shell.read fun files => ProblemSource.loadSection files section_
      proceed seeding entropy clock now config settings problem) := by
  rw [run_eq]
  unfold readInput proceed
  simp only [bind_assoc, pure_bind]

/-- A run with settings and with a problem section puts out its settings and loads the problem that
the section describes, from the files as they were at its beginning. -/
theorem run_of_sections {config : List (String × Document)} {settings : Settings}
    {section_ : Document}
    (made : Settings.ofDocument ((Document.map config).getOrNull "ga") = .ok settings)
    (given : config.lookup "problem" = some section_) (shell : Shell) :
    run seeding entropy clock now config shell = (do
      sayEach (heading "GA SCHEDULER")
      describeSettings settings
      let problem ← lift (ProblemSource.loadSection shell.files section_)
      proceed seeding entropy clock now config settings problem) shell := by
  rw [run_eq_proceed, made, valueOf_of_lookup given]
  simp only [lift_ok_bind]
  apply bind_congr_of_ok
  intro _ s₁ said
  apply bind_congr_of_ok
  intro _ s₂ told
  have first : OnFiles Eq shell s₁ := (moves_sayEach _).of_eq_ok said
  have second : OnFiles Eq s₁ s₂ := (moves_describeSettings _).of_eq_ok told
  rw [show shell.files = s₂.files from first.trans second]
  exact bind_congr_of_eq (read_eq_lift _ s₂)

end Schedule

/-- A check and a run read a configuration alike. Where the check passes, a run on the same files
makes the settings that the check made, from a section that may be missing or null; and loading its
problem faults neither for the form of the section nor for a file that is not there. And a section
from which a problem can be loaded passes the check. -/
theorem Configuration.check_anticipates_run :
    (∀ (ws : Workspace) (config : Document), check ws config = .ok () →
      ∃ entries settings section_, config = .map entries ∧
        Settings.ofDocument ((config.get? "ga").getD (.map [])) = .ok settings ∧
        Settings.ofDocument (config.getOrNull "ga") = .ok settings ∧
        Schedule.valueOf "problem" entries = .ok section_ ∧
        (∀ fault, ProblemSource.loadSection ws section_ = .error fault →
          fault.isShapeless = false ∧ fault.isMissingFile = false) ∧
        ∀ {σ : Type} [Source σ Float] (seeding : Seeding σ) (entropy : Nat) (clock : Nat → Float)
          (now : String) (shell : Shell), shell.files = ws →
          Schedule.run seeding entropy clock now entries shell = (do
            sayEach (Schedule.heading "GA SCHEDULER")
            Schedule.describeSettings settings
            let problem ← lift (ProblemSource.loadSection ws section_)
            Schedule.proceed seeding entropy clock now entries settings problem) shell) ∧
    ∀ (ws : Workspace) (section_ : Document) (problem : Problem Float),
      ProblemSource.loadSection ws section_ = .ok problem → checkProblem ws section_ = .ok () := by
  constructor
  · intro ws config checked
    obtain ⟨entries, rfl, accepted⟩ := check_eq_ok_iff.1 checked
    obtain ⟨section_, given, found⟩ := accepted.problem
    obtain ⟨settings, made⟩ := accepted.settings
    refine ⟨entries, settings, section_, rfl, ?_, made, Schedule.valueOf_of_lookup given,
      sourced_loadSection found, ?_⟩
    · rw [ofDocument_missing]
      exact made
    · rintro σ _ seeding entropy clock now shell rfl
      exact Schedule.run_of_sections seeding entropy clock now made given shell
  · intro ws section_ problem loaded
    exact checkProblem_of_load loaded

/-- A problem section with a path, and a table of jobs that is not there. -/
def mixedSection : Document := .map [("jobs_csv", .text "jobs.csv"), ("path", .text "order.yaml")]

def mixedConfig : List (String × Document) :=
  [("problem", mixedSection), ("ga", .null), ("output", .map [("root", .text "out")])]

theorem Configuration.check_anticipates_run_mixed :
    check Schedule.orderFiles (.map mixedConfig) = .ok () ∧
      (∃ settings, Settings.ofDocument .null = .ok settings ∧
        ∀ (entropy : Nat) (clock : Nat → Float) (now : String),
          Schedule.run Stream.seeding entropy clock now mixedConfig
              (Shell.start Schedule.orderFiles) = (do
            sayEach (Schedule.heading "GA SCHEDULER")
            Schedule.describeSettings settings
            let problem ← lift (ProblemSource.loadSection Schedule.orderFiles mixedSection)
            Schedule.proceed Stream.seeding entropy clock now mixedConfig settings problem)
              (Shell.start Schedule.orderFiles)) ∧
      checkProblem Schedule.orderFiles mixedSection = .ok () := by
  have checked : check Schedule.orderFiles (.map mixedConfig) = .ok () := by decide +kernel
  have loads : (ProblemSource.loadSection Schedule.orderFiles mixedSection).isOk = true := by
    decide +kernel
  obtain ⟨anticipates, passes⟩ := check_anticipates_run
  refine ⟨checked, ?_, ?_⟩
  · obtain ⟨entries, settings, section_, same, made, -, given, -, runs⟩ := anticipates _ _ checked
    cases same
    cases given
    exact ⟨settings, made, fun entropy clock now => runs Stream.seeding entropy clock now _ rfl⟩
  · cases loaded : ProblemSource.loadSection Schedule.orderFiles mixedSection with
    | ok problem => exact passes _ _ problem loaded
    | error fault =>
        rw [loaded] at loads
        cases loads

end EvoSched
