import Mathlib.Tactic.NormNum
import Mathlib.Tactic.Ring
import EvoSched.Proofs.Cost.LowerBound

set_option autoImplicit false

namespace EvoSched

theorem boundRatio_rat (bound value : ℚ) :
    boundRatio bound value = if value = 0 then 1 else bound / value := by
  unfold boundRatio
  rw [Scalar.zero_rat, Scalar.one_rat]
  by_cases none : value = 0
  · rw [if_pos none, if_pos (beq_iff_eq.2 none)]
  · rw [if_neg none, if_neg (mt beq_iff_eq.1 none)]

theorem boundRatio_mem {bound value : ℚ} (nonneg : 0 ≤ bound) (below : bound ≤ value) :
    0 ≤ boundRatio bound value ∧ boundRatio bound value ≤ 1 := by
  rw [boundRatio_rat]
  split
  · exact ⟨zero_le_one, le_refl 1⟩
  · exact ⟨div_nonneg nonneg (nonneg.trans below), div_le_one_of_le₀ below (nonneg.trans below)⟩

theorem boundRatio_eq_one_iff {bound value : ℚ} (nonneg : 0 ≤ bound) (below : bound ≤ value) :
    boundRatio bound value = 1 ↔ bound = value := by
  rw [boundRatio_rat]
  split
  · rename_i none
    exact ⟨fun _ => by linarith, fun _ => rfl⟩
  · rename_i some_value
    exact div_eq_one_iff_eq some_value

theorem boundRatio_pos {bound value : ℚ} (nonneg : 0 ≤ bound) (below : bound ≤ value)
    (zero : bound = 0 → value = 0) : 0 < boundRatio bound value := by
  rw [boundRatio_rat]
  split
  · exact zero_lt_one
  · rename_i some_value
    have positive : 0 < bound := lt_of_le_of_ne nonneg fun none => some_value (zero none.symm)
    exact div_pos positive (positive.trans_le below)

theorem Bounds.fitness_rat (bounds : Bounds ℚ) (w makespan totalCost : ℚ) :
    bounds.fitness w makespan totalCost =
      w * boundRatio bounds.minTime makespan + (1 - w) * boundRatio bounds.minCost totalCost := by
  unfold Bounds.fitness
  rw [Scalar.one_rat]

namespace Problem

variable {problem : Problem ℚ} {genes : List Int} {outcome : Outcome ℚ} {bounds : Bounds ℚ} {w : ℚ}

/-- How an outcome compares with the bounds of an acceptable problem. -/
structure Meets (problem : Problem ℚ) (genes : List Int) (bounds : Bounds ℚ)
    (outcome : Outcome ℚ) : Prop where
  minTime_nonneg : 0 ≤ bounds.minTime
  minTime_le : bounds.minTime ≤ outcome.makespan
  no_work : bounds.minTime = 0 → outcome.makespan = 0
  minTime_eq_iff :
    bounds.minTime = outcome.makespan ↔ ∀ time ∈ outcome.nodeTimes, time = bounds.minTime
  minCost_nonneg : 0 ≤ bounds.minCost
  minCost_le : bounds.minCost ≤ outcome.totalCost
  minCost_eq_iff :
    bounds.minCost = outcome.totalCost ↔
      ∀ placed ∈ genes.zip problem.jobs, problem.Cheapest placed.1 placed.2

theorem meets_bounds (known : problem.bounds = .ok bounds)
    (success : problem.outcome genes = .ok outcome) : problem.Meets genes bounds outcome := by
  obtain ⟨passed, time, cost⟩ := bounds_eq_ok_iff.1 known
  have fine := check_eq_ok_iff.1 passed
  obtain ⟨assigns, -, yields⟩ := outcome_eq_ok_iff.1 success
  exact
    { minTime_nonneg := minTime_nonneg fine time
      minTime_le := minTime_le fine assigns yields time
      no_work := makespan_eq_zero fine assigns yields time
      minTime_eq_iff := minTime_eq_iff fine assigns yields time
      minCost_nonneg := minCost_nonneg fine cost
      minCost_le := minCost_le fine assigns yields cost
      minCost_eq_iff := minCost_eq_iff fine assigns yields cost }

namespace Meets

theorem fitness_mem (meets : problem.Meets genes bounds outcome) (nonneg : 0 ≤ w) (atMost : w ≤ 1) :
    0 ≤ bounds.fitness w outcome.makespan outcome.totalCost ∧
      bounds.fitness w outcome.makespan outcome.totalCost ≤ 1 := by
  obtain ⟨time_low, time_high⟩ := boundRatio_mem meets.minTime_nonneg meets.minTime_le
  obtain ⟨cost_low, cost_high⟩ := boundRatio_mem meets.minCost_nonneg meets.minCost_le
  rw [Bounds.fitness_rat]
  constructor
  · exact add_nonneg (mul_nonneg nonneg time_low) (mul_nonneg (sub_nonneg.2 atMost) cost_low)
  · calc w * boundRatio bounds.minTime outcome.makespan +
          (1 - w) * boundRatio bounds.minCost outcome.totalCost
        ≤ w * 1 + (1 - w) * 1 := add_le_add (mul_le_mul_of_nonneg_left time_high nonneg)
          (mul_le_mul_of_nonneg_left cost_high (sub_nonneg.2 atMost))
      _ = 1 := by ring

theorem fitness_pos (meets : problem.Meets genes bounds outcome) (positive : 0 < w)
    (atMost : w ≤ 1) : 0 < bounds.fitness w outcome.makespan outcome.totalCost := by
  have time := boundRatio_pos meets.minTime_nonneg meets.minTime_le meets.no_work
  obtain ⟨cost, -⟩ := boundRatio_mem meets.minCost_nonneg meets.minCost_le
  rw [Bounds.fitness_rat]
  exact add_pos_of_pos_of_nonneg (mul_pos positive time) (mul_nonneg (sub_nonneg.2 atMost) cost)

/-- A fitness of one: each ratio is one, or has no weight. -/
theorem fitness_eq_one_iff (meets : problem.Meets genes bounds outcome) (nonneg : 0 ≤ w)
    (atMost : w ≤ 1) :
    bounds.fitness w outcome.makespan outcome.totalCost = 1 ↔
      (w = 0 ∨ ∀ time ∈ outcome.nodeTimes, time = bounds.minTime) ∧
        (w = 1 ∨ ∀ placed ∈ genes.zip problem.jobs, problem.Cheapest placed.1 placed.2) := by
  obtain ⟨-, time_high⟩ := boundRatio_mem meets.minTime_nonneg meets.minTime_le
  obtain ⟨-, cost_high⟩ := boundRatio_mem meets.minCost_nonneg meets.minCost_le
  rw [← meets.minTime_eq_iff, ← meets.minCost_eq_iff, Bounds.fitness_rat,
    ← boundRatio_eq_one_iff meets.minTime_nonneg meets.minTime_le,
    ← boundRatio_eq_one_iff meets.minCost_nonneg meets.minCost_le]
  generalize boundRatio bounds.minTime outcome.makespan = r at time_high ⊢
  generalize boundRatio bounds.minCost outcome.totalCost = s at cost_high ⊢
  -- what is missing to one is a sum of two shares, neither of them negative
  have missing : w * r + (1 - w) * s = 1 ↔ w * (1 - r) + (1 - w) * (1 - s) = 0 := by
    constructor <;> intro same <;> linarith
  rw [missing, add_eq_zero_iff_of_nonneg (mul_nonneg nonneg (sub_nonneg.2 time_high))
    (mul_nonneg (sub_nonneg.2 atMost) (sub_nonneg.2 cost_high)), mul_eq_zero, mul_eq_zero,
    sub_eq_zero, sub_eq_zero, sub_eq_zero]
  simp only [eq_comm]

end Meets

/-- The outcome of an assignment is bounded from below, and its fitness lies between zero and one;
a zero outcome has a zero bound. -/
theorem outcome_meets_bounds (accepted : problem.check = .ok ()) (assigns : problem.Assigns genes)
    (nonneg : 0 ≤ w) (atMost : w ≤ 1) :
    ∃ bounds outcome, problem.bounds = .ok bounds ∧ problem.minTime = .ok bounds.minTime ∧
      problem.minCost = .ok bounds.minCost ∧ problem.outcome genes = .ok outcome ∧
      bounds.minTime ≤ outcome.makespan ∧ bounds.minCost ≤ outcome.totalCost ∧
      (outcome.makespan = 0 → bounds.minTime = 0) ∧ (outcome.totalCost = 0 → bounds.minCost = 0) ∧
      0 ≤ bounds.fitness w outcome.makespan outcome.totalCost ∧
      bounds.fitness w outcome.makespan outcome.totalCost ≤ 1 ∧
      (0 < w → 0 < bounds.fitness w outcome.makespan outcome.totalCost) := by
  have fine := check_eq_ok_iff.1 accepted
  obtain ⟨bounds, known⟩ := exists_bounds fine
  obtain ⟨outcome, success⟩ := exists_outcome fine assigns
  obtain ⟨-, time, cost⟩ := bounds_eq_ok_iff.1 known
  have meets := meets_bounds known success
  obtain ⟨low, high⟩ := meets.fitness_mem nonneg atMost
  refine ⟨bounds, outcome, known, time, cost, success, meets.minTime_le, meets.minCost_le, ?_, ?_,
    low, high, fun positive => meets.fitness_pos positive atMost⟩
  · intro none
    exact le_antisymm (none ▸ meets.minTime_le) meets.minTime_nonneg
  · intro none
    exact le_antisymm (none ▸ meets.minCost_le) meets.minCost_nonneg

/-- Two jobs and two nodes that can meet both bounds. -/
def pair : Problem ℚ where
  jobs := [⟨4, 0, 0, 0, 1, none⟩, ⟨2, 0, 0, 0, 1, none⟩]
  nodes := [⟨2, 1, 0, 0, none⟩, ⟨1, 1 / 2, 0, 0, none⟩]

theorem pair_assigns {a b : Int} (first : 0 ≤ a ∧ a < 2) (second : 0 ≤ b ∧ b < 2) :
    pair.Assigns [a, b] :=
  ⟨rfl, by simpa using ⟨first, second⟩⟩

theorem outcome_meets_bounds_pair :
    ∃ bounds outcome, pair.bounds = .ok bounds ∧ pair.outcome [1, 0] = .ok outcome ∧
      bounds.minTime ≤ outcome.makespan ∧
      0 < bounds.fitness (1 / 2) outcome.makespan outcome.totalCost := by
  obtain ⟨bounds, outcome, known, -, -, success, time, -, -, -, -, -, positive⟩ :=
    outcome_meets_bounds (w := 1 / 2) (by decide +kernel : pair.check = .ok ())
      (pair_assigns (by decide) (by decide) : pair.Assigns [1, 0]) (by norm_num) (by norm_num)
  exact ⟨bounds, outcome, known, success, time, positive (by norm_num)⟩

end Problem

end EvoSched
