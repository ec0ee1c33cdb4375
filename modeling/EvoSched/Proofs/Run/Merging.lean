import EvoSched.Proofs.Run.Elitism

set_option autoImplicit false

namespace EvoSched.Run

variable {σ α : Type} [Scalar α] [OrderedScalar α] [Source σ α]

section Merging

variable {wheel : Wheel σ α} {plan : Plan α} {problem : Problem α} {clock : Nat → α}
  {start : Search σ α} {progress : Progress α} {s t u : Search σ α}

/-- Wherever a run decides whether to go on, its population is in order and no larger than the
target size. -/
theorem ranked_of_reaches
    (compares : Compares wheel plan problem clock start)
    (reached : Reaches wheel plan problem clock start progress s) :
    Population.Descending s.population.members ∧ s.population.members.length ≤ plan.targetSize := by
  obtain ⟨v, w, gathers, evaluated, population⟩ := pool_of_reaches reached
  have ranks := Population.ranks_sorted (compares.pool gathers evaluated)
  rw [population, Population.members_truncate]
  constructor
  · exact ranks.descending.sublist (List.take_sublist _ _)
  · rw [List.length_take]
    exact Nat.min_le_left _ _

/-- The new population is the front of the ranks of all members, new and old. -/
theorem merged_of_turns (merges : plan.strategy = .grow true)
    (compares : Compares wheel plan problem clock start)
    (turns : Turns wheel plan problem clock start progress s t u) {bounds : Bounds α}
    (known : problem.bounds = .ok bounds) :
    ∃ spawned v fresh ranked, Search.spawn wheel plan { t with journal := [] } = .ok spawned v ∧
      spawned.members.mapM (Candidate.evaluate problem bounds plan.timeWeight) = .ok fresh ∧
      Population.Ranks (fresh ++ s.population.members) ranked ∧
      u.population.members = ranked.take plan.targetSize := by
  have settled := settled_of_reaches known turns.reached
  obtain ⟨pool, v, w, gathered, evaluated, -, population⟩ := turns.pool
  have gathers := Gathers.next turns.reached turns.decided gathered
  have taken := bounds_of_gathers known gathers
  have all := compares.pool gathers evaluated
  obtain ⟨spawned, born, members⟩ := Search.spawned_of_gather merges gathered
  obtain ⟨_, scored, same, each, rfl⟩ := Search.evaluate_eq_ok_iff.1 evaluated
  cases taken.symm.trans same
  -- the old members have been evaluated before, and evaluating them again changes nothing
  have unchanged := Candidate.mapM_evaluate_of_scored settled.selected.coherent.scored
  obtain ⟨⟨readings, rfl⟩, -⟩ := verdict_eq_ok turns.decided
  have joined : pool.members = spawned.members ++ s.population.members := members
  change pool.members.mapM _ = _ at each
  rw [joined] at each
  obtain ⟨fresh, old, first, second, rfl⟩ := mapM_append_eq_ok_iff.1 each
  cases unchanged.symm.trans second
  have pooled : ∀ c ∈ fresh ++ s.population.members, Population.isComparable c = true :=
    fun c member => all c (Population.mem_sorted.2 member)
  refine ⟨spawned, v, fresh, Population.sorted (fresh ++ s.population.members), born, first,
    Population.ranks_sorted pooled, ?_⟩
  rw [population, Population.members_truncate]
  exact congrArg (List.take _) (Population.sorted_sorted pooled)

/-- No rank gets worse by merging. -/
theorem rank_le_of_turns (merges : plan.strategy = .grow true)
    (compares : Compares wheel plan problem clock start)
    (turns : Turns wheel plan problem clock start progress s t u) {rank : Nat}
    (before : rank < s.population.members.length) :
    ∃ after : rank < u.population.members.length,
      s.population.members[rank].fitness ≤ u.population.members[rank].fitness := by
  obtain ⟨bounds, known⟩ := exists_bounds_of_reaches turns.reached
  obtain ⟨descending, small⟩ := ranked_of_reaches compares turns.reached
  obtain ⟨spawned, v, fresh, ranked, -, -, ranks, members⟩ :=
    merged_of_turns merges compares turns known
  have length := ranks.perm.length_eq
  rw [List.length_append] at length
  have contained : s.population.members.Subperm ranked :=
    (List.sublist_append_right fresh _).subperm.trans ranks.perm.symm.subperm
  have proper := compares _ (evaluates_of_reaches turns.reached (List.getElem_mem before))
  have better := descending.le_of_subperm ranks.descending contained before (by omega) proper
  have after : rank < u.population.members.length := by
    rw [members, List.length_take]
    omega
  refine ⟨after, ?_⟩
  simpa only [members, List.getElem_take] using better

/-- No candidate that a run evaluates is fitter than the best of its result. -/
theorem le_best_of_evaluates
    (compares : Compares wheel plan problem clock start)
    (keeps : ∀ size, Search.KeepsBest plan size) {result : RunResult α}
    (success : runOn wheel plan problem clock start = .ok result t) {c : Candidate α}
    (evaluates : Evaluates wheel plan problem clock start c) : c.fitness ≤ result.best.fitness := by
  obtain ⟨v, w, gathers, evaluated, member⟩ := evaluates
  obtain ⟨progress, s, reached, population⟩ := reaches_of_gathers success gathers evaluated
  obtain ⟨bounds, known⟩ := exists_bounds_of_reaches reached
  obtain ⟨r, ends, front, taken, fitness, -⟩ := (settled_of_reaches known reached).latest
  have onRecord : r ∈ result.history :=
    (prefix_of_run success reached).subset (List.mem_of_getLast? ends)
  rw [population] at taken
  have below : c.fitness ≤ r.bestFitness := by
    rw [fitness]
    exact Population.le_front (compares.pool gathers evaluated) taken member
  exact OrderedScalar.le_trans below (le_best_of_run compares keeps success r onRecord)

end Merging

/-- A generation that merges keeps the front of the ranks of the new members, evaluated, followed by
the old ones as they are; every rank is taken by a candidate no less fit than before, and the result
is the fittest of all candidates that the run evaluates. -/
theorem run_merging {plan : Plan α} {problem : Problem α} {clock : Nat → α} {start : Search σ α}
    (merges : plan.strategy = .grow true)
    (compares : Compares Wheel.spin plan problem clock start) :
    (∀ progress s t u, Turns Wheel.spin plan problem clock start progress s t u →
      (∃ bounds spawned v fresh ranked, problem.bounds = .ok bounds ∧
        Search.spawn Wheel.spin plan { t with journal := [] } = .ok spawned v ∧
        spawned.members.mapM (Candidate.evaluate problem bounds plan.timeWeight) = .ok fresh ∧
        Population.Ranks (fresh ++ s.population.members) ranked ∧
        u.population.members =
          ranked.take (min plan.targetSize (fresh ++ s.population.members).length)) ∧
      ∀ rank (before : rank < s.population.members.length),
        ∃ after : rank < u.population.members.length,
          s.population.members[rank].fitness ≤ u.population.members[rank].fitness) ∧
    ∀ result t, run plan problem clock start = .ok result t →
      Evaluates Wheel.spin plan problem clock start result.best ∧
      ∀ c, Evaluates Wheel.spin plan problem clock start c → c.fitness ≤ result.best.fitness := by
  constructor
  · intro progress s t u turns
    refine ⟨?_, fun rank before => rank_le_of_turns merges compares turns before⟩
    obtain ⟨bounds, known⟩ := exists_bounds_of_reaches turns.reached
    obtain ⟨spawned, v, fresh, ranked, born, evaluated, ranks, members⟩ :=
      merged_of_turns merges compares turns known
    refine ⟨bounds, spawned, v, fresh, ranked, known, born, evaluated, ranks, ?_⟩
    rw [members, ← ranks.perm.length_eq]
    exact List.take_eq_take_min
  · intro result t success
    have keeps : ∀ size, Search.KeepsBest plan size := by
      intro size
      simp only [Search.KeepsBest, merges]
    obtain ⟨last, s, r, reached, -, front, -⟩ := history_of_run success
    exact ⟨evaluates_of_reaches reached (Population.mem_of_front front),
      fun c evaluates => le_best_of_evaluates compares keeps success evaluates⟩

theorem run_merging_brief :
    ∃ result t, run (.brief (.grow true) 0.5 0) .uneven (fun _ => 0)
        (Search.start (⟨⟩ : Steady Float)) = .ok result t ∧
      ∀ c, Evaluates Wheel.spin (.brief (.grow true) 0.5 0) .uneven (fun _ => 0)
        (Search.start (⟨⟩ : Steady Float)) c → c.fitness ≤ result.best.fitness := by
  obtain ⟨result, t, success⟩ := brief_result (.grow true)
  obtain ⟨-, fittest⟩ := @run_merging (Steady Float) Float _ _ _ (.brief (.grow true) 0.5 0)
    .uneven (fun _ => 0) (Search.start ⟨⟩) rfl compares_of_brief
  exact ⟨result, t, success, (fittest result t success).2⟩

end EvoSched.Run
