import EvoSched.Proofs.Run.History
import EvoSched.Proofs.Run.Optimality
import EvoSched.Proofs.Run.Safety

set_option autoImplicit false

namespace EvoSched

variable {σ α : Type} [Scalar α] {plan : Plan α}

/-- The size of the population of a generation. -/
def Plan.sizeAt (plan : Plan α) (generation : Nat) : Nat :=
  if plan.strategy = .grow true then
    min plan.targetSize (2 ^ generation * plan.populationSize)
  else min plan.populationSize plan.targetSize

namespace Search

/-- Up to the target size, the pairs are counted as by exact arithmetic on a rate. -/
def ExactPairs (plan : Plan α) (rate : ℚ) : Prop :=
  ∀ size ≤ plan.targetSize, pairCount plan size = .ok ⌊(size : ℚ) * rate / 2⌋

theorem ExactPairs.fit {rate : ℚ} (exact : ExactPairs plan rate) (nonneg : 0 ≤ rate)
    (atMost : rate ≤ 1) {size : Nat} (small : size ≤ plan.targetSize) : PairsFit plan size := by
  intro pairs counted
  obtain rfl := Except.ok.inj ((exact size small).symm.trans counted)
  exact ⟨Int.floor_nonneg.2 (by positivity), two_mul_floor_le atMost⟩

/-- On rationals the pairs are counted exactly. -/
theorem exactPairs_rat {plan : Plan ℚ} (nonneg : 0 ≤ plan.crossoverRate) :
    ExactPairs plan plan.crossoverRate :=
  fun size _ => pairCount_rat nonneg size

end Search

namespace Run

variable [Source σ α] {wheel : Wheel σ α} {problem : Problem α} {clock : Nat → α}
  {start : Search σ α}

theorem size_of_begin {s t : Search σ α} (success : begin plan problem s = .ok () t) :
    t.population.size = min plan.targetSize plan.populationSize := by
  obtain ⟨u, assembled, rest⟩ := begin_eq_ok_iff.1 success
  obtain ⟨bounds, members, source, -, drawn, rfl⟩ := assemble_eq_ok assembled
  rw [Search.size_evaluate_select rest]
  exact congrArg (min plan.targetSize) (Search.length_drawCandidates drawn)

omit [Source σ α] [Scalar α] in
/-- A generation takes the size of one population to the size of the next. -/
theorem sizeAt_succ (plan : Plan α) (generation : Nat) :
    min plan.targetSize (Search.poolSize plan (plan.sizeAt generation)) =
      plan.sizeAt (generation + 1) := by
  unfold Search.poolSize Plan.sizeAt
  split
  · have doubled : 2 ^ (generation + 1) * plan.populationSize =
        2 * (2 ^ generation * plan.populationSize) := by ring
    omega
  · omega

theorem size_of_reaches (fits : ∀ size ≤ plan.targetSize, Search.PairsFit plan size)
    {progress : Progress α} {s : Search σ α}
    (reached : Reaches wheel plan problem clock start progress s) :
    s.population.size = plan.sizeAt progress.generation ∧
      s.population.size ≤ plan.targetSize := by
  induction reached with
  | launched success =>
      obtain ⟨-, u, r, printed, begun, -, rfl, rfl⟩ := launch_eq_ok success
      have size := size_of_begin begun
      unfold Plan.sizeAt
      simp only
      refine ⟨?_, by omega⟩
      split <;> omega
  | evolved reached decided evolved noted ih =>
      obtain ⟨⟨readings, rfl⟩, -⟩ := verdict_eq_ok decided
      have size := Search.size_evolve (by exact fits _ ih.2) evolved
      obtain ⟨r, printed, -, rfl, rfl⟩ := note_eq_ok noted
      refine ⟨?_, by simp only; omega⟩
      simp only at size ⊢
      rw [size, ih.1]
      exact sizeAt_succ plan _

theorem size_of_record (fits : ∀ size ≤ plan.targetSize, Search.PairsFit plan size)
    {progress : Progress α} {s : Search σ α}
    (reached : Reaches wheel plan problem clock start progress s) {g : Nat} {r : Record α}
    (found : progress.history[g]? = some r) : r.populationSize = plan.sizeAt g := by
  obtain ⟨earlier, u, passed, rfl, best, -, -, -, -, -, size⟩ := reaches_of_getElem? reached found
  rw [size, (size_of_reaches fits passed).1]

/-- The sizes of a run from `start`: of its populations wherever it decides whether to go on, of
what it breeds from them, and of the populations that it records. -/
structure Sized (wheel : Wheel σ α) (plan : Plan α) (problem : Problem α) (clock : Nat → α)
    (start : Search σ α) : Prop where
  reached (progress : Progress α) (s : Search σ α) :
    Reaches wheel plan problem clock start progress s →
      s.population.size = plan.sizeAt progress.generation ∧ s.population.size ≤ plan.targetSize
  /-- The copies and two children for each pair are as many as the members were. -/
  bred (p bred : Population α) (source source' : σ) : p.size ≤ plan.targetSize →
    Search.breed wheel plan p source = .ok bred source' →
      ∃ (pairs : Nat) (kept children : List (Candidate α)),
        Search.pairCount plan p.size = .ok pairs ∧ bred.members = kept ++ children ∧
          kept.length + 2 * pairs = p.size ∧ children.length = 2 * pairs
  recorded (result : RunResult α) (t : Search σ α) :
    runOn wheel plan problem clock start = .ok result t →
      result.history.length = result.generations + 1 ∧
      (∀ (g : Nat) (r : Record α), result.history[g]? = some r →
        r.populationSize = plan.sizeAt g) ∧
      result.population.size = plan.sizeAt result.generations

theorem sized (fits : ∀ size ≤ plan.targetSize, Search.PairsFit plan size) :
    Sized wheel plan problem clock start where
  reached _ _ reached := size_of_reaches fits reached
  bred p _ _ _ small success := Search.slots_of_breed (fits p.size small) success
  recorded result t success := by
    refine ⟨length_history success, ?_⟩
    obtain ⟨last, s, u, reached, -, history, generations, population, -⟩ := end_of_run success
    rw [history, generations, population]
    exact ⟨fun g r found => size_of_record fits reached found, (size_of_reaches fits reached).1⟩

/-- Where the pairs are counted exactly, on a crossover rate between zero and one, a run keeps to
its sizes. -/
theorem run_sizes {rate : ℚ} (exact : Search.ExactPairs plan rate) (nonneg : 0 ≤ rate)
    (atMost : rate ≤ 1) : Sized Wheel.spin plan problem clock start :=
  sized fun _ small => exact.fit nonneg atMost small

/-- A plan of two generations that merges, from one candidate to three. -/
def doubling : Plan ℚ :=
  { thrifty with targetSize := 3, maxGenerations := 2, crossoverRate := 1, strategy := .grow true }

theorem run_sizes_doubling :
    ∃ result t, run doubling Problem.pair (fun _ => 0) (Search.start (⟨⟩ : Steady ℚ)) =
        .ok result t ∧
      ∀ (g : Nat) (r : Record ℚ), result.history[g]? = some r →
        r.populationSize = (min 3 (2 ^ g * 1) : ℕ) := by
  have lawful : LawfulSource (Steady ℚ) ℚ := Steady.lawful (le_refl 0) zero_lt_one
  have zero : IsRate (0 : ℚ) := ⟨le_refl 0, zero_le_one⟩
  have one : IsRate (1 : ℚ) := ⟨zero_le_one, le_refl 1⟩
  have valid : doubling.Valid :=
    ⟨one_pos, by decide, two_pos, one_pos, one_pos, zero, one, zero, one_pos⟩
  have fine : Problem.pair.Acceptable := Problem.check_eq_ok_iff.1 (by decide +kernel)
  obtain ⟨result, t, success, -⟩ := exists_result valid fine (by decide) (fun _ => 0)
    (Search.start (⟨⟩ : Steady ℚ))
  have sized := @run_sizes (Steady ℚ) ℚ _ doubling _ Problem.pair (fun _ => 0) (Search.start ⟨⟩) 1
    (Search.exactPairs_rat (by decide : (0 : ℚ) ≤ doubling.crossoverRate)) zero_le_one (le_refl 1)
  exact ⟨result, t, success, (sized.recorded result t success).2.1⟩

/-- Rounding does not change that, as long as the target size is a whole number that doubles hold
exactly. -/
theorem run_sizes_rounded [LawfulScalar α] [MonotoneScalar α] (rate : IsRate plan.crossoverRate)
    (small : plan.targetSize < 2 ^ 53) : Sized Wheel.spin plan problem clock start :=
  sized fun _ below => Search.pairsFit rate (below.trans_lt small)

end Run

end EvoSched
