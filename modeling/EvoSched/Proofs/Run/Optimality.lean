import EvoSched.Proofs.Cost.Fitness
import EvoSched.Proofs.Random
import EvoSched.Proofs.Run.Course

set_option autoImplicit false

namespace EvoSched.Run

variable {σ : Type} [Source σ ℚ] {plan : Plan ℚ} {problem : Problem ℚ}

/-- No outcome of an acceptable problem has a fitness above one. -/
theorem fitness_le_one {bounds : Bounds ℚ} {genes : List Int} {outcome : Outcome ℚ} {w : ℚ}
    (known : problem.bounds = .ok bounds) (success : problem.outcome genes = .ok outcome)
    (nonneg : 0 ≤ w) (atMost : w ≤ 1) :
    bounds.fitness w outcome.makespan outcome.totalCost ≤ 1 :=
  ((Problem.meets_bounds known success).fitness_mem nonneg atMost).2

/-- In a selected population with an optimum, the member in front is one. -/
theorem front_optimal {p : Population ℚ} {bounds : Bounds ℚ} {best : Candidate ℚ} {w : ℚ}
    (known : problem.bounds = .ok bounds) (nonneg : 0 ≤ w) (atMost : w ≤ 1)
    (selected : p.Selected problem bounds w) (front : p.member 0 = .ok best)
    (optimum : p.hasOptimum = true) : best.fitness = 1 := by
  have scored := selected.coherent.scored best (Population.mem_of_front front)
  obtain ⟨pool, position, -, rfl⟩ := selected
  obtain ⟨c, member, full⟩ := List.any_eq_true.1 optimum
  rw [Scalar.one_rat, beq_iff_eq] at full
  obtain ⟨outcome, success, -, -, fitness⟩ := scored
  apply le_antisymm
  · rw [fitness]
    exact fitness_le_one known success nonneg atMost
  · rw [← full]
    have comparable : ∀ c ∈ pool.members, Population.isComparable c = true :=
      fun c _ => beq_self_eq_true c.fitness
    exact Population.le_front comparable front (Population.mem_truncate member)

/-- Fitness one means that each bound is met or has no weight: all nodes work for the time bound,
every job is on a cheapest node. A run that stops with an optimum returns fitness one, and no
assignment is fitter. -/
theorem run_optimal (accepted : problem.check = .ok ()) (nonneg : 0 ≤ plan.timeWeight)
    (atMost : plan.timeWeight ≤ 1) :
    (∀ genes, problem.Assigns genes → ∃ bounds outcome, problem.bounds = .ok bounds ∧
      problem.outcome genes = .ok outcome ∧
      (bounds.fitness plan.timeWeight outcome.makespan outcome.totalCost = 1 ↔
        (plan.timeWeight = 0 ∨ ∀ time ∈ outcome.nodeTimes, time = bounds.minTime) ∧
          (plan.timeWeight = 1 ∨
            ∀ placed ∈ genes.zip problem.jobs, problem.Cheapest placed.1 placed.2))) ∧
    (∀ (clock : Nat → ℚ) (start t : Search σ ℚ) (result : RunResult ℚ),
      run plan problem clock start = .ok result t → result.stopReason = .optimal →
      result.best.fitness = 1 ∧ result.best.Scored problem result.bounds plan.timeWeight ∧
        ∀ genes outcome, problem.outcome genes = .ok outcome →
          result.bounds.fitness plan.timeWeight outcome.makespan outcome.totalCost ≤
            result.best.fitness) := by
  constructor
  · intro genes assigns
    have fine := Problem.check_eq_ok_iff.1 accepted
    obtain ⟨bounds, known⟩ := Problem.exists_bounds fine
    obtain ⟨outcome, success⟩ := Problem.exists_outcome fine assigns
    exact ⟨bounds, outcome, known, success,
      (Problem.meets_bounds known success).fitness_eq_one_iff nonneg atMost⟩
  · intro clock start t result success optimal
    obtain ⟨known, selected, front, -, reached⟩ := settled_of_run success
    have full := front_optimal known nonneg atMost selected front (reached optimal)
    refine ⟨full, selected.coherent.scored _ (Population.mem_of_front front), ?_⟩
    intro genes outcome found
    rw [full]
    exact fitness_le_one known found nonneg atMost

/-- A plan of one generation of one candidate, by which cost alone counts. -/
def thrifty : Plan ℚ where
  populationSize := 1
  targetSize := 1
  maxGenerations := 1
  maxSeconds := none
  mutationRate := 0
  crossoverRate := 0
  timeWeight := 0
  elitism := 0
  strategy := .replace
  workers := 1
  verbose := false
  reportEvery := 1

theorem run_optimal_thrifty :
    ∃ result t, run thrifty Problem.pair (fun _ => 0) (Search.start (⟨⟩ : Steady ℚ)) =
        .ok result t ∧
      result.best.fitness = 1 ∧
      ∀ genes outcome, Problem.pair.outcome genes = .ok outcome →
        result.bounds.fitness 0 outcome.makespan outcome.totalCost ≤ result.best.fitness := by
  have stops : (match run thrifty Problem.pair (fun _ => 0) (Search.start (⟨⟩ : Steady ℚ)) with
      | .ok result _ => decide (result.stopReason = .optimal)
      | .error .. => false) = true := by decide +kernel
  cases ended : run thrifty Problem.pair (fun _ => 0) (Search.start (⟨⟩ : Steady ℚ)) with
  | error fault t =>
      rw [ended] at stops
      cases stops
  | ok result t =>
      rw [ended] at stops
      obtain ⟨-, optimal⟩ := @run_optimal (Steady ℚ) _ thrifty Problem.pair
        (by decide +kernel) (le_refl 0) zero_le_one
      obtain ⟨full, -, best⟩ := optimal _ _ _ _ ended (of_decide_eq_true stops)
      exact ⟨result, t, rfl, full, best⟩

end EvoSched.Run
