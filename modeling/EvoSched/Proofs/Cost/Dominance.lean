import EvoSched.Proofs.Cost.Fitness

set_option autoImplicit false

namespace EvoSched

section

variable {bound value value' : ℚ}

theorem boundRatio_anti (nonneg : 0 ≤ bound) (below : bound ≤ value) (rises : value ≤ value') :
    boundRatio bound value' ≤ boundRatio bound value := by
  by_cases none : value = 0
  · -- the greater value need not be zero, so that the two ratios come from different branches
    have top : boundRatio bound value = 1 := by rw [boundRatio_rat, if_pos none]
    rw [top]
    exact (boundRatio_mem nonneg (below.trans rises)).2
  · have positive : 0 < value := lt_of_le_of_ne (nonneg.trans below) (Ne.symm none)
    have positive' : 0 < value' := positive.trans_le rises
    rw [boundRatio_rat, boundRatio_rat, if_neg none, if_neg positive'.ne']
    exact div_le_div_of_nonneg_left nonneg positive rises

/-- With a bound above zero, no value that it bounds is zero. -/
theorem boundRatio_lt (positive : 0 < bound) (below : bound ≤ value) (rises : value < value') :
    boundRatio bound value' < boundRatio bound value := by
  have some_value : 0 < value := positive.trans_le below
  have some_value' : 0 < value' := some_value.trans rises
  rw [boundRatio_rat, boundRatio_rat, if_neg some_value.ne', if_neg some_value'.ne']
  exact div_lt_div_of_pos_left positive some_value rises

end

/-- The first outcome takes no longer and costs no more than the second. -/
structure Outcome.Dominates (outcome outcome' : Outcome ℚ) : Prop where
  makespan : outcome.makespan ≤ outcome'.makespan
  totalCost : outcome.totalCost ≤ outcome'.totalCost

namespace Problem

variable {problem : Problem ℚ} {genes : List Int} {outcome outcome' : Outcome ℚ}
  {bounds : Bounds ℚ} {w : ℚ}

theorem minTime_pos (fine : problem.Acceptable) (time : problem.minTime = .ok bounds.minTime)
    (some_work : ∃ job ∈ problem.jobs, 0 < job.length) : 0 < bounds.minTime := by
  obtain ⟨job, member, positive⟩ := some_work
  have lengths : ∀ x ∈ problem.jobs.map (·.length), 0 ≤ x :=
    List.forall_mem_map.2 fun other among => fine.length_nonneg among
  have total : 0 < problem.totalLength := by
    rw [totalLength_rat]
    exact positive.trans_le (List.single_le_sum lengths _ (List.mem_map_of_mem member))
  rw [(minTime_eq_ok_iff.1 time).2]
  exact div_pos total (totalCapacity_pos fine)

namespace Meets

theorem fitness_le_of_dominates (meets : problem.Meets genes bounds outcome) (nonneg : 0 ≤ w)
    (atMost : w ≤ 1) (dominates : outcome.Dominates outcome') :
    bounds.fitness w outcome'.makespan outcome'.totalCost ≤
      bounds.fitness w outcome.makespan outcome.totalCost := by
  have time := boundRatio_anti meets.minTime_nonneg meets.minTime_le dominates.makespan
  have cost := boundRatio_anti meets.minCost_nonneg meets.minCost_le dominates.totalCost
  rw [Bounds.fitness_rat, Bounds.fitness_rat]
  apply add_le_add
  · exact mul_le_mul_of_nonneg_left time nonneg
  · exact mul_le_mul_of_nonneg_left cost (sub_nonneg.2 atMost)

theorem fitness_lt_of_dominates (meets : problem.Meets genes bounds outcome)
    (some_time : 0 < bounds.minTime) (positive : 0 < w) (atMost : w ≤ 1)
    (dominates : outcome.Dominates outcome') (faster : outcome.makespan < outcome'.makespan) :
    bounds.fitness w outcome'.makespan outcome'.totalCost <
      bounds.fitness w outcome.makespan outcome.totalCost := by
  have time := boundRatio_lt some_time meets.minTime_le faster
  have cost := boundRatio_anti meets.minCost_nonneg meets.minCost_le dominates.totalCost
  rw [Bounds.fitness_rat, Bounds.fitness_rat]
  apply add_lt_add_of_lt_of_le
  · exact mul_lt_mul_of_pos_left time positive
  · exact mul_le_mul_of_nonneg_left cost (sub_nonneg.2 atMost)

end Meets

/-- Of two assignments of an acceptable problem, one that dominates the other is no less fit. It is
fitter where time has a weight, there is work to do, and it takes less time. -/
theorem fitness_respects_dominance {genes' : List Int} (accepted : problem.check = .ok ())
    (assigns : problem.Assigns genes) (assigns' : problem.Assigns genes') (nonneg : 0 ≤ w)
    (atMost : w ≤ 1) :
    ∃ bounds outcome outcome', problem.bounds = .ok bounds ∧
      problem.outcome genes = .ok outcome ∧ problem.outcome genes' = .ok outcome' ∧
      (outcome.makespan ≤ outcome'.makespan → outcome.totalCost ≤ outcome'.totalCost →
        bounds.fitness w outcome'.makespan outcome'.totalCost ≤
            bounds.fitness w outcome.makespan outcome.totalCost ∧
          (0 < w → (∃ job ∈ problem.jobs, 0 < job.length) →
            outcome.makespan < outcome'.makespan →
            bounds.fitness w outcome'.makespan outcome'.totalCost <
              bounds.fitness w outcome.makespan outcome.totalCost)) := by
  have fine := check_eq_ok_iff.1 accepted
  obtain ⟨bounds, known⟩ := exists_bounds fine
  obtain ⟨outcome, success⟩ := exists_outcome fine assigns
  obtain ⟨outcome', success'⟩ := exists_outcome fine assigns'
  have meets := meets_bounds known success
  refine ⟨bounds, outcome, outcome', known, success, success', fun time cost => ?_⟩
  have dominates : outcome.Dominates outcome' := ⟨time, cost⟩
  constructor
  · exact meets.fitness_le_of_dominates nonneg atMost dominates
  · intro positive some_work faster
    have some_time := minTime_pos fine (bounds_eq_ok_iff.1 known).2.1 some_work
    exact meets.fitness_lt_of_dominates some_time positive atMost dominates faster

/-- A fast node that charges nothing and a slow one that does. -/
def gratis : Problem ℚ where
  jobs := [⟨2, 0, 0, 0, 1, none⟩, ⟨1, 0, 0, 0, 1, none⟩]
  nodes := [⟨2, 0, 0, 0, none⟩, ⟨1, 1, 0, 0, none⟩]

/-- A zero cost meets its bound, while the same bound explains nothing of a cost above zero. -/
theorem fitness_respects_dominance_gratis :
    ∃ bounds outcome outcome', gratis.bounds = .ok bounds ∧
      gratis.outcome [0, 0] = .ok outcome ∧ gratis.outcome [1, 1] = .ok outcome' ∧
      outcome.totalCost = 0 ∧ outcome'.totalCost = 3 ∧
      bounds.fitness (1 / 2) outcome'.makespan outcome'.totalCost <
        bounds.fitness (1 / 2) outcome.makespan outcome.totalCost := by
  have free : gratis.outcome [0, 0] = .ok ⟨3 / 2, 0, [3 / 2, 0], [0, 0]⟩ := by decide +kernel
  have charged : gratis.outcome [1, 1] = .ok ⟨3, 3, [0, 3], [0, 3]⟩ := by decide +kernel
  obtain ⟨bounds, outcome, outcome', known, success, success', compare⟩ :=
    fitness_respects_dominance (w := 1 / 2) (by decide +kernel : gratis.check = .ok ())
      (⟨rfl, by decide⟩ : gratis.Assigns [0, 0]) (⟨rfl, by decide⟩ : gratis.Assigns [1, 1])
      (by norm_num) (by norm_num)
  obtain rfl := Except.ok.inj (free.symm.trans success)
  obtain rfl := Except.ok.inj (charged.symm.trans success')
  obtain ⟨-, fitter⟩ := compare (by norm_num) (by norm_num)
  refine ⟨bounds, _, _, known, success, success', rfl, rfl, fitter (by norm_num) ?_ (by norm_num)⟩
  exact ⟨_, List.mem_cons_self, by norm_num⟩

end Problem

end EvoSched
