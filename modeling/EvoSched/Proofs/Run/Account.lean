import EvoSched.Proofs.Run.History
import EvoSched.Proofs.Run.Safety
import EvoSched.Proofs.Scalar.Place

set_option autoImplicit false

namespace EvoSched

variable {σ α : Type} [Scalar α]

theorem Population.hasOptimum_eq_true {p : Population α} :
    p.hasOptimum = true ↔ ∃ c ∈ p.members, (c.fitness == Scalar.one) = true :=
  List.any_eq_true

theorem Population.hasOptimum_eq_false {p : Population α} :
    p.hasOptimum = false ↔ ∀ c ∈ p.members, (c.fitness == Scalar.one) = false := by
  simp only [hasOptimum, List.any_eq_false, Bool.not_eq_true]

theorem Limit.reached_mono [OrderedScalar α] [MonotoneScalar α] {limit : Limit α} {x y : α}
    (reached : limit.reached x = true) (below : x ≤ y) : limit.reached y = true := by
  cases limit with
  | whole n => exact MonotoneScalar.intLe_mono reached below
  | scalar z => exact decide_eq_true (OrderedScalar.le_trans (of_decide_eq_true reached) below)

namespace Run

variable [Source σ α] {wheel : Wheel σ α} {plan : Plan α} {problem : Problem α} {clock : Nat → α}
  {start : Search σ α}

/-- What a result that a run from `start` has returned in `t` says of the run. -/
structure Accounts (wheel : Wheel σ α) (plan : Plan α) (problem : Problem α) (clock : Nat → α)
    (start : Search σ α) (result : RunResult α) (t : Search σ α) : Prop where
  within : result.generations ≤ plan.maxGenerations
  numbered : result.history.map (·.generation) =
    (List.range (result.generations + 1)).map fun n : Nat => (n : Int)
  optimal : result.stopReason = .optimal ↔
    ∃ c ∈ result.population.members, (c.fitness == Scalar.one) = true
  spent : result.stopReason = .maxGenerations ↔
    (∀ c ∈ result.population.members, (c.fitness == Scalar.one) = false) ∧
      result.generations = plan.maxGenerations
  /-- The last reading of the clock before the final one had reached the limit. -/
  late : result.stopReason = .maxSeconds →
    (∀ c ∈ result.population.members, (c.fitness == Scalar.one) = false) ∧
      result.generations < plan.maxGenerations ∧
      ∃ limit k, plan.maxSeconds = some limit ∧ t.readings = k + 2 ∧
        limit.reached (clock k - clock start.readings) = true ∧
        result.elapsed = clock (k + 1) - clock start.readings
  /-- Every record was made of a population on the course. -/
  passed (g : Nat) : g ≤ result.generations → ∃ r progress s, result.history[g]? = some r ∧
    Reaches wheel plan problem clock start progress s ∧ progress.generation = g ∧
    r.Describes s.population
  earlier (progress : Progress α) (s : Search σ α) :
    Reaches wheel plan problem clock start progress s → progress.generation < result.generations →
      ∀ c ∈ s.population.members, (c.fitness == Scalar.one) = false
  last : ∃ r, result.history.getLast? = some r ∧ r.Describes result.population
  best : result.population.member 0 = .ok result.best
  opening : ∃ r, result.history[0]? = some r ∧ r.mutations = some 0
  /-- Doubles count the pairs of children well up to `2 ^ 53`. -/
  mutations : result.history.IsChain fun r r' => r.populationSize < 2 ^ 53 →
    ∃ n : Nat, r'.mutations = some n ∧
      (n : Int) ≤ max 0 (r.populationSize - (plan.elitism : Int))
  total : result.totalMutations = (result.history.map fun r => r.mutations.getD 0).sum
  times : Forward clock → Scalar.isFinite (clock start.readings) = true →
    (result.history.map (·.elapsed) ++ [result.elapsed]).Pairwise (· ≤ ·) ∧
      (result.stopReason = .maxSeconds →
        ∃ limit, plan.maxSeconds = some limit ∧ limit.reached result.elapsed = true)

/-- Before its last generation, a run has no reason to stop. -/
theorem short_of_finish {progress : Progress α} {s v : Search σ α} {result : RunResult α}
    (success : finish wheel plan problem clock progress s = .ok result v)
    (before : progress.generation < result.generations) : s.population.hasOptimum = false := by
  obtain ⟨⟨last, reason⟩, u, looped, concluded⟩ := bind_eq_ok.1 success
  obtain ⟨-, -, -, -, -, generations, -⟩ := conclude_eq_ok concluded
  cases left : plan.maxGenerations - progress.generation with
  | zero =>
      rw [left] at looped
      obtain ⟨decision, w, -, rest⟩ := bind_eq_ok.1 looped
      cases rest
      omega
  | succ more =>
      rw [left] at looped
      obtain ⟨decision, w, decided, rest⟩ := bind_eq_ok.1 looped
      cases decision with
      | some reason =>
          cases rest
          omega
      | none => exact (verdict_eq_none decided).1

omit [Source σ α] in
/-- The reason to stop tells whether there is an optimum, and whether a generation is left. -/
theorem reason_iff {started : α} {more : Nat} {s t : Search σ α} {reason : StopReason}
    (decided : verdict plan clock started more s = .ok (some reason) t) :
    s.readings ≤ t.readings ∧
      (reason = .optimal ↔ s.population.hasOptimum = true) ∧
      (reason = .maxGenerations ↔ s.population.hasOptimum = false ∧ more = 0) ∧
      (reason = .maxSeconds → s.population.hasOptimum = false ∧ more ≠ 0 ∧
        t.readings = s.readings + 1 ∧ ∃ limit, plan.maxSeconds = some limit ∧
          limit.reached (clock s.readings - started) = true) := by
  rcases verdict_eq_some decided with ⟨rfl, optimum, rfl⟩ | ⟨rfl, short, none, rfl⟩ |
    ⟨rfl, short, left, rfl, limited⟩
  · simp [optimum]
  · simp [short, none]
  · simp [short, left, limited]

theorem last_of_reaches {progress : Progress α} {s : Search σ α}
    (reached : Reaches wheel plan problem clock start progress s) :
    ∃ r, progress.history.getLast? = some r ∧ r.Describes s.population := by
  obtain ⟨bounds, known⟩ := exists_bounds_of_reaches reached
  exact (settled_of_reaches known reached).latest

theorem accounts_of_run [OrderedScalar α] [LawfulScalar α] [MonotoneScalar α]
    (rate : IsRate plan.crossoverRate) {result : RunResult α} {t : Search σ α}
    (success : runOn wheel plan problem clock start = .ok result t) :
    Accounts wheel plan problem clock start result t := by
  obtain ⟨last, s, u, reached, decided, history, generations, population, front, elapsed, total,
    read⟩ := end_of_run success
  have counted := counted_of_reaches reached
  have within := counted.within
  have fits (size : Nat) (small : size < 2 ^ 53) := Search.pairsFit rate small
  obtain ⟨onward, optimal, spent, late⟩ := reason_iff decided
  obtain ⟨⟨readings, rfl⟩, -⟩ := verdict_eq_ok decided
  rw [counted.started] at elapsed late
  rw [Population.hasOptimum_eq_true] at optimal
  rw [Population.hasOptimum_eq_false] at spent late
  refine
    { within := generations ▸ within
      numbered := by rw [history, generations]; exact counted.numbered
      optimal := by rw [population]; exact optimal
      spent := by
        rw [population, generations, spent]
        exact and_congr_right fun _ => by omega
      late := ?_
      passed := ?_
      earlier := ?_
      last := by rw [history, population]; exact last_of_reaches reached
      best := by rw [population]; exact front
      opening := by rw [history]; exact opening_of_reaches reached
      mutations := by rw [history]; exact mutations_of_reaches fits reached
      total
      times := ?_ }
  · intro stopped
    obtain ⟨short, left, again, limit, limited, reached⟩ := late stopped
    rw [population, generations, read, elapsed]
    simp only at again ⊢
    subst again
    exact ⟨short, by omega, limit, s.readings, limited, rfl, reached, rfl⟩
  · intro g inside
    have some_record : g < last.history.length := by
      rw [counted.length]
      omega
    have found := List.getElem?_eq_getElem some_record
    obtain ⟨earlier, u, passed, numbered, describes⟩ := reaches_of_getElem? reached found
    exact ⟨_, earlier, u, (congrArg (·[g]?) history).trans found, passed, numbered, describes⟩
  · intro progress u passed before
    exact Population.hasOptimum_eq_false.1
      (short_of_finish (finish_of_reaches success passed) before)
  · intro forward finite
    rw [history, elapsed]
    refine ⟨counted.elapsed forward finite onward, ?_⟩
    intro stopped
    obtain ⟨-, -, again, limit, limited, reached⟩ := late stopped
    have later : s.readings < readings := by
      simp only at again
      omega
    exact ⟨limit, limited,
      Limit.reached_mono reached (MonotoneScalar.sub_le_sub finite (forward.le later))⟩

/-- Whatever a run on doubles returns, with settings that passed their checks, is a true account of
it. With an accepted problem and a source that keeps its promises there is such a result. -/
theorem run_accounts {σ : Type} [Source σ Float] {entries : List (String × Document)}
    {settings : Settings} {problem : Problem Float}
    (configured : Settings.ofEntries entries = .ok settings) (clock : Nat → Float)
    (start : Search σ Float) :
    (∀ result t, run settings.plan problem clock start = .ok result t →
      Accounts Wheel.spin settings.plan problem clock start result t) ∧
    (LawfulSource σ Float → settings.targetSize < 2 ^ 53 → problem.check = .ok () →
      ∃ result t, run settings.plan problem clock start = .ok result t) := by
  constructor
  · intro result t success
    exact accounts_of_run (Settings.valid_plan configured).crossoverRate success
  · exact exists_result_of_settings configured clock start

theorem run_accounts_errand :
    ∃ result t, run (Settings.standard 100 1 false 10).plan errand (fun _ => 0)
        (Search.start (⟨⟩ : Steady Float)) = .ok result t ∧
      Accounts Wheel.spin (Settings.standard 100 1 false 10).plan errand (fun _ => 0)
        (Search.start (⟨⟩ : Steady Float)) result t := by
  have configured := Settings.ofEntries_standard (by decide : 0 < 100) one_pos
    (by decide : 0 < 10) false
  obtain ⟨accounts, returns⟩ := run_accounts configured (fun _ => 0)
    (Search.start (⟨⟩ : Steady Float))
  obtain ⟨result, t, success⟩ :=
    returns lawful_steady (by decide) check_errand
  exact ⟨result, t, success, accounts result t success⟩

end Run

end EvoSched
