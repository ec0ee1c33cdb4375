import EvoSched.Proofs.Schedule.Exports
import EvoSched.Proofs.Settings.Restoring

set_option autoImplicit false

namespace EvoSched

namespace Schedule

section

variable {σ : Type} [Source σ Float] {seeding : Seeding σ} {entropy : Nat} {clock : Nat → Float}
  {settings : Settings} {problem : Problem Float} {result : RunResult Float}

theorem searchInMemory_of_run {source : σ} {t : Search σ Float}
    (seeded : seeding.start entropy settings.randomSeed = .ok source)
    (ran : Run.run settings.plan problem clock (Search.start source) = .ok result t) :
    searchInMemory seeding entropy clock settings problem = .ok result := by
  unfold searchInMemory
  apply result_bind_eq_ok.2
  refine ⟨source, seeded, ?_⟩
  simp only [ran]

/-- With a seed, how a search ends does not hang on the entropy. -/
theorem searchInMemory_of_seed (some_seed : settings.randomSeed ≠ .null) (first second : Nat) :
    searchInMemory seeding first clock settings problem =
      searchInMemory seeding second clock settings problem := by
  unfold searchInMemory
  rw [seeding.start_of_seed some_seed first second]

/-- The metadata of a run hold settings, and a search under these settings has the result of the
run, whatever the entropy. -/
structure Replays (seeding : Seeding σ) (clock : Nat → Float) (input : Input)
    (result : RunResult Float)
    (files : Workspace) : Prop where
  settings : ∃ entries ga, files.loadFile (metadataPath input.root) =
      .ok (.document (.map entries)) ∧ entries.lookup "ga" = some ga ∧
    Settings.ofDocument ga = .ok input.settings
  result (entropy : Nat) :
    searchInMemory seeding entropy clock input.settings input.problem = .ok result

end

/-- Settings are written with what they were made of, and the same ones are read from that. So a run
that has a seed and a result can be replayed: the settings in its metadata are those of the run, and
with them a search of the same problem under the same clock has the same result. -/
theorem run_replays :
    (∀ (d : Document) (settings : Settings), Settings.ofDocument d = .ok settings →
      ∃ entries written, d.toEntries = .ok entries ∧ settings.toDocument = .map written ∧
        Settings.Restates entries written ∧ Settings.ofDocument (.map written) = .ok settings) ∧
    ∀ {σ : Type} [Source σ Float] (seeding : Seeding σ) (entropy : Nat) (clock : Nat → Float)
      (now : String) (config : List (String × Document)) (shell shell' : Shell)
      (result : RunResult Float),
      run seeding entropy clock now config shell = .ok result shell' →
      ∃ input : Input, input.Describes config shell.files ∧
        (input.settings.randomSeed ≠ .null → Replays seeding clock input result shell'.files) := by
  constructor
  · intro d settings accepted
    exact Settings.restored accepted
  · intro σ _ seeding entropy clock now config shell shell' result success
    obtain ⟨input, source, t, describes, seeded, ran, saved⟩ := saved_of_run success
    refine ⟨input, describes, fun some_seed => ⟨?_, fun entropy' => ?_⟩⟩
    · obtain ⟨_, _, -, written, -, same⟩ := Settings.restored describes.settings
      rw [← written] at same
      have found : (Metadata.stamped now
          (Metadata.ofRun input.settings input.problem result)).lookup "ga" =
            some input.settings.toDocument := Metadata.lookup_stamped now rfl
      exact ⟨_, _, saved.metadata.loadFile (by simp), found, same⟩
    · rw [searchInMemory_of_seed some_seed entropy' entropy]
      exact searchInMemory_of_run seeded ran

/-- Settings with a seed, and without a target size. -/
def seededSettings : List (String × Document) :=
  [("random_seed", .whole 1), ("target_size", .null), ("population_size", .whole 1),
    ("elitism_count", .whole 0)]

def seededConfig : List (String × Document) :=
  [("problem", .text "order.yaml"), ("ga", .map seededSettings),
    ("output", .map [("root", .text "out")])]

theorem run_replays_seeded :
    ∃ input result shell', run Stream.seeding 0 (fun _ => 0) "2024-01-01T00:00:00" seededConfig
        (Shell.start quotedFiles) = .ok result shell' ∧
      input.settings.toDocument.get? "target_size" = some (.whole 1) ∧
      Replays Stream.seeding (fun _ => 0) input result shell'.files := by
  have ends : (EvoSched.valueOf (run Stream.seeding 0 (fun _ => 0) "2024-01-01T00:00:00"
      seededConfig (Shell.start quotedFiles))).isSome = true := by decide +kernel
  obtain ⟨result, ended⟩ := Option.isSome_iff_exists.1 ends
  obtain ⟨restores, replays⟩ := run_replays
  obtain ⟨input, describes, replay⟩ := replays _ _ _ _ _ _ _ _ (eq_ok_of_valueOf ended)
  obtain ⟨entries, written, stands, shown, restates, -⟩ := restores _ _ describes.settings
  obtain rfl : seededSettings = entries := Except.ok.inj stands
  have seed := restates.given "random_seed" (.whole 1) rfl nofun
  have size := restates.given "population_size" (.whole 1) rfl nofun
  have target := (restates.target rfl).trans size
  cases shown
  refine ⟨input, result, _, eq_ok_of_valueOf ended, target, replay ?_⟩
  rw [Option.some.inj seed]
  exact nofun

end Schedule

end EvoSched
