import EvoSched.Proofs.Settings.Acceptance

set_option autoImplicit false

namespace EvoSched

theorem Number.toDocument_of_ofDocument? {d : Document} {number : Number}
    (found : Number.ofDocument? d = some number) : number.toDocument = d := by
  cases d with
  | whole n => cases found; rfl
  | real x => cases found; rfl
  | _ => cases found

theorem StrategyName.text_of_ofDocument? {d : Document} {strategy : StrategyName}
    (found : StrategyName.ofDocument? d = some strategy) : .text strategy.text = d := by
  unfold StrategyName.ofDocument? at found
  split at found
  · split at found
    · rename_i same
      cases found
      rw [same]
      rfl
    · split at found
      · rename_i same
        cases found
        rw [same]
        rfl
      · cases found
  · cases found

namespace Settings

section

variable {d : Document}

theorem toDocument_of_rate {name : String} {number : Number} (passed : rate name d = .ok number) :
    number.toDocument = d := by
  unfold rate at passed
  split at passed
  · rename_i found
    split at passed
    · cases passed
      exact Number.toDocument_of_ofDocument? found
    · cases passed
  · cases passed

theorem whole_of_elite {size n : Nat} (passed : elite size d = .ok n) : .whole n = d := by
  unfold elite at passed
  split at passed
  · split at passed
    · cases passed
    · split at passed
      · cases passed
        rw [Int.toNat_of_nonneg (by omega)]
      · cases passed
  · cases passed

theorem toDocument_of_seconds {limit : Option Number} (passed : seconds d = .ok limit) :
    (limit.map Number.toDocument).getD .null = d := by
  unfold seconds at passed
  split at passed
  · cases passed
    rfl
  · split at passed
    · rename_i found
      split at passed
      · cases passed
        exact Number.toDocument_of_ofDocument? found
      · cases passed
    · cases passed

theorem text_of_strategyOf {strategy : StrategyName} (passed : strategyOf d = .ok strategy) :
    .text strategy.text = d := by
  unfold strategyOf at passed
  split at passed
  · rename_i found
    cases passed
    exact StrategyName.text_of_ofDocument? found
  · cases passed

end

section

variable {entries : List (String × Document)} {settings : Settings}

/-- What a setting comes to be where entries give it or leave it out. -/
def final (entries : List (String × Document)) (name : String) : Document :=
  if name = "target_size" then givenTarget entries else given entries name

/-- The entries that settings are written as, in the order of the defaults. -/
def restated (entries : List (String × Document)) : List (String × Document) :=
  names.map fun name => (name, final entries name)

theorem toDocument_eq (accepted : ofEntries entries = .ok settings) :
    settings.toDocument = .map (restated entries) := by
  unfold ofEntries at accepted
  simp only [result_bind_eq_ok] at accepted
  obtain ⟨populationSize, population, targetSize, target, maxGenerations, generations, workers,
    hands, reportEvery, report, mutationRate, mutation, crossoverRate, crossover, timeWeight,
    weight, elitism, elite, maxSeconds, seconds, strategy, named, same⟩ := accepted
  cases same
  simp [toDocument, restated, names, defaults, final, whole_of_positive population,
    whole_of_positive target, whole_of_positive generations, whole_of_positive hands,
    whole_of_positive report, toDocument_of_rate mutation, toDocument_of_rate crossover,
    toDocument_of_rate weight, whole_of_elite elite, toDocument_of_seconds seconds,
    text_of_strategyOf named]

theorem lookup_restated {name : String} (known : name ∈ names) :
    (restated entries).lookup name = some (final entries name) :=
  List.lookup_graph (final entries) known

/-- How accepted entries are written down. -/
structure Restates (entries written : List (String × Document)) : Prop where
  /-- Every setting is written, and nothing else. -/
  names : written.map (·.1) = Settings.names
  given (name : String) (value : Document) : entries.lookup name = some value →
    (name = "target_size" → value ≠ .null) → written.lookup name = some value
  default (name : String) (value : Document) : entries.lookup name = none →
    name ≠ "target_size" → defaults.lookup name = some value → written.lookup name = some value
  target : (entries.lookup "target_size").getD .null = .null →
    written.lookup "target_size" = written.lookup "population_size"

theorem given_of_lookup {name : String} {value : Document}
    (found : entries.lookup name = some value) : Settings.given entries name = value := by
  rw [Settings.given, found]
  rfl

theorem given_of_default {name : String} {value : Document} (absent : entries.lookup name = none)
    (default : defaults.lookup name = some value) : Settings.given entries name = value := by
  rw [Settings.given, absent, Option.orElse_none, default]
  rfl

theorem givenTarget_of_null (none : Settings.given entries "target_size" = .null) :
    givenTarget entries = Settings.given entries "population_size" := by
  rw [givenTarget, none]

theorem givenTarget_of_value (some_target : Settings.given entries "target_size" ≠ .null) :
    givenTarget entries = Settings.given entries "target_size" := by
  unfold givenTarget
  split
  · contradiction
  · rfl

theorem restates_restated (known : ∀ entry ∈ entries, entry.1 ∈ names) :
    Restates entries (restated entries) where
  names := by simp [restated, Function.comp_def]
  given name value found target := by
    obtain ⟨front, rest, split, -⟩ := List.lookup_eq_some_iff.1 found
    have inside : name ∈ names := known (name, value) (by simp [split])
    rw [lookup_restated inside, ← given_of_lookup found]
    by_cases same : name = "target_size"
    · have some_target : Settings.given entries "target_size" ≠ .null := by
        rw [← same, given_of_lookup found]
        exact target same
      simp only [final, same, if_true, givenTarget_of_value some_target]
    · simp only [final, same, if_false]
  default name value absent other default := by
    obtain ⟨front, rest, split, -⟩ := List.lookup_eq_some_iff.1 default
    have inside : name ∈ names := List.mem_map.2 ⟨(name, value), by simp [split], rfl⟩
    rw [lookup_restated inside, ← given_of_default absent default]
    simp only [final, other, if_false]
  target absent := by
    have none : Settings.given entries "target_size" = .null := by
      cases found : entries.lookup "target_size" with
      | none => exact given_of_default found rfl
      | some value =>
          rw [found] at absent
          exact (given_of_lookup found).trans absent
    rw [lookup_restated (by decide), lookup_restated (by decide)]
    exact congrArg some (givenTarget_of_null none)

/-- Settings are made of what their entries give, and of nothing else in them. -/
theorem ofEntries_congr {entries' : List (String × Document)}
    (same : ∀ name ∈ names, name ≠ "target_size" →
      Settings.given entries name = Settings.given entries' name)
    (target : givenTarget entries = givenTarget entries') :
    ofEntries entries = ofEntries entries' := by
  unfold ofEntries
  rw [target, same "population_size" (by decide) (by decide),
    same "max_generations" (by decide) (by decide), same "workers" (by decide) (by decide),
    same "report_every" (by decide) (by decide), same "mutation_rate" (by decide) (by decide),
    same "crossover_rate" (by decide) (by decide), same "time_weight" (by decide) (by decide),
    same "elitism_count" (by decide) (by decide), same "max_seconds" (by decide) (by decide),
    same "strategy" (by decide) (by decide), same "merge_parents" (by decide) (by decide),
    same "random_seed" (by decide) (by decide), same "verbose" (by decide) (by decide)]

theorem ofEntries_restated (entries : List (String × Document)) :
    ofEntries (restated entries) = ofEntries entries := by
  have read {name : String} (known : name ∈ names) :
      Settings.given (restated entries) name = final entries name :=
    given_of_lookup (lookup_restated known)
  have size : Settings.given (restated entries) "population_size" =
      Settings.given entries "population_size" := read (by decide)
  have written : Settings.given (restated entries) "target_size" = givenTarget entries :=
    read (by decide)
  apply ofEntries_congr
  · intro name known other
    rw [read known, final, if_neg other]
  · by_cases none : givenTarget entries = .null
    · -- a target that is null even so stands for a size that is null
      have size_null : Settings.given entries "population_size" = .null := by
        by_cases absent : Settings.given entries "target_size" = .null
        · rw [← givenTarget_of_null absent, none]
        · rw [givenTarget_of_value absent] at none
          contradiction
      rw [givenTarget_of_null (written.trans none), size, size_null, none]
    · rw [givenTarget_of_value (written ▸ none), written]

/-- Settings are read from what they are written as, and this says of each setting what they were
made of. -/
theorem restored {d : Document} {settings : Settings} (accepted : ofDocument d = .ok settings) :
    ∃ entries written, d.toEntries = .ok entries ∧ settings.toDocument = .map written ∧
      Restates entries written ∧ ofDocument (.map written) = .ok settings := by
  obtain ⟨entries, stands, known, made⟩ := ofDocument_eq_ok_iff.1 accepted
  have all_known : ∀ entry ∈ restated entries, entry.1 ∈ names := by simp [restated]
  refine ⟨entries, restated entries, stands, toDocument_eq made, restates_restated known, ?_⟩
  refine ofDocument_eq_ok_iff.2 ⟨restated entries, toEntries_map _, all_known, ?_⟩
  rw [ofEntries_restated, made]

end

end Settings

end EvoSched
