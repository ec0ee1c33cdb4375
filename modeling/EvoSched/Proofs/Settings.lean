import EvoSched.Proofs.Scalar.Double
import EvoSched.Proofs.Search.Safety

set_option autoImplicit false

namespace EvoSched

theorem Number.isRate_toFloat {number : Number} (rate : number.isRate = true) :
    IsRate number.toFloat := by
  cases number with
  | whole n =>
      have range : 0 ≤ n ∧ n ≤ 1 := by simpa [isRate] using rate
      rcases (by omega : n = 0 ∨ n = 1) with rfl | rfl
      · have order : (Scalar.zero : Float) ≤ Scalar.zero ∧ (Scalar.zero : Float) ≤ Scalar.one := by
          decide +kernel
        exact order
      · have order : (Scalar.zero : Float) ≤ Scalar.one ∧ (Scalar.one : Float) ≤ Scalar.one := by
          decide +kernel
        exact order
  | real x => simpa [isRate, IsRate, toFloat] using rate

namespace Settings

theorem pos_of_positive {name : String} {d : Document} {n : Nat}
    (passed : positive name d = .ok n) : 0 < n := by
  unfold positive at passed
  split at passed
  · split at passed
    · cases passed
      omega
    · cases passed
  · cases passed

theorem isRate_of_rate {name : String} {d : Document} {number : Number}
    (passed : rate name d = .ok number) : IsRate number.toFloat := by
  unfold rate at passed
  split at passed
  · split at passed
    · rename_i within
      cases passed
      exact Number.isRate_toFloat within
    · cases passed
  · cases passed

theorem lt_of_elite {size n : Nat} {d : Document} (passed : elite size d = .ok n) : n < size := by
  unfold elite at passed
  split at passed
  · split at passed
    · cases passed
    · split at passed
      · cases passed
        omega
      · cases passed
  · cases passed

/-- Settings are made of entries only if every check is passed. -/
theorem valid_plan {entries : List (String × Document)} {settings : Settings}
    (configured : ofEntries entries = .ok settings) : settings.plan.Valid := by
  unfold ofEntries at configured
  simp only [result_bind_eq_ok] at configured
  obtain ⟨populationSize, population, targetSize, target, maxGenerations, generations, workers,
    hands, reportEvery, report, mutationRate, mutation, crossoverRate, crossover, timeWeight,
    weight, elitism, elite, _, -, _, -, same⟩ := configured
  cases same
  exact
    { populationSize := pos_of_positive population
      targetSize := pos_of_positive target
      maxGenerations := pos_of_positive generations
      workers := pos_of_positive hands
      reportEvery := pos_of_positive report
      mutationRate := isRate_of_rate mutation
      crossoverRate := isRate_of_rate crossover
      timeWeight := isRate_of_rate weight
      elitism := lt_of_elite elite }

/-- The default settings, but for how long to search, on how many workers, and what to report. -/
def standard (generations workers : Nat) (verbose : Bool) (reportEvery : Nat) : Settings where
  populationSize := 30
  mutationRate := .real 0.1
  crossoverRate := .real 0.9
  elitism := 2
  timeWeight := .real 0.5
  targetSize := 30
  maxGenerations := generations
  maxSeconds := none
  strategy := .replace
  mergeParents := .truth true
  randomSeed := .null
  workers
  verbose := .truth verbose
  reportEvery

theorem isRate_standard : (Number.real 0.1).isRate = true ∧ (Number.real 0.9).isRate = true ∧
    (Number.real 0.5).isRate = true := by
  decide +kernel

theorem ofEntries_standard {generations workers reportEvery : Nat}
    (some_generation : 0 < generations) (some_worker : 0 < workers) (due : 0 < reportEvery)
    (verbose : Bool) :
    ofEntries [("max_generations", .whole generations), ("workers", .whole workers),
        ("verbose", .truth verbose), ("report_every", .whole reportEvery)] =
      .ok (standard generations workers verbose reportEvery) := by
  obtain ⟨mutation, crossover, weight⟩ := isRate_standard
  simp [ofEntries, given, givenTarget, defaults, List.lookup, positive, rate, Number.ofDocument?,
    mutation, crossover, weight, elite, seconds, strategyOf, StrategyName.ofDocument?, standard,
    some_generation, some_worker, due, pure, Except.pure, bind, Except.bind]

end Settings

end EvoSched
