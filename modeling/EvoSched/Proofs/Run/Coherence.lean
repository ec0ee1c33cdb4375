import EvoSched.Proofs.Run.Course

set_option autoImplicit false

namespace EvoSched

variable {σ α : Type} [Scalar α]

/-- Coherent with the bounds that a run of the problem measures fitness by. -/
def Population.CoherentIn (problem : Problem α) (timeWeight : α) (p : Population α) : Prop :=
  ∃ bounds, problem.bounds = .ok bounds ∧ p.Coherent problem bounds timeWeight

namespace Run

variable [Source σ α] {wheel wheel' : Wheel σ α} {plan : Plan α} {problem : Problem α}
  {clock : Nat → α}

/-- As long as two wheels agree on coherent populations, loops on them are alike. -/
theorem loop_congr {bounds : Bounds α}
    (agree : ∀ p : Population α, p.Coherent problem bounds plan.timeWeight → wheel p = wheel' p)
    (more : Nat) {progress : Progress α} {s : Search σ α}
    (settled : Settled problem bounds plan.timeWeight progress s) :
    loop wheel plan problem clock more progress s =
      loop wheel' plan problem clock more progress s := by
  induction more generalizing progress s with
  | zero => rfl
  | succ more ih =>
      apply bind_congr_of_ok
      intro decision t decided
      cases decision with
      | some reason => rfl
      | none =>
          have same : wheel t.population = wheel' t.population := by
            obtain ⟨⟨readings, rfl⟩, -⟩ := verdict_eq_ok decided
            exact agree _ settled.selected.coherent
          refine (bind_congr_of_eq (Search.evolve_congr same)).trans ?_
          apply bind_congr_of_ok
          intro _ u evolved
          apply bind_congr_of_ok
          intro later v noted
          exact ih (settled_of_generation settled decided evolved noted)

theorem runOn_congr
    (agree : ∀ p : Population α, p.CoherentIn problem plan.timeWeight → wheel p = wheel' p)
    (start : Search σ α) :
    runOn wheel plan problem clock start = runOn wheel' plan problem clock start := by
  apply bind_congr_of_ok
  intro progress s launched
  obtain ⟨bounds, known⟩ := exists_bounds_of_reaches (.launched launched : Reaches wheel ..)
  refine bind_congr_of_eq ?_
  exact loop_congr (fun p coherent => agree p ⟨bounds, known, coherent⟩) _
    (settled_of_launch known launched)

/-- A run finds parents only in coherent populations: a wheel that does anything else with all
other populations gives the same run. Coherent are also the population at the beginning of every
generation, the ones that records are made of and the one that is returned. -/
theorem run_coherent (plan : Plan α) (problem : Problem α) (clock : Nat → α)
    (start : Search σ α) :
    (∀ wheel : Wheel σ α,
      (∀ p : Population α, p.CoherentIn problem plan.timeWeight → wheel p = Wheel.spin p) →
      runOn wheel plan problem clock start = run plan problem clock start) ∧
    (∀ progress s, Reaches Wheel.spin plan problem clock start progress s →
      s.population.CoherentIn problem plan.timeWeight ∧
        (∃ r, progress.history.getLast? = some r ∧ r.Describes s.population) ∧
        ∀ r ∈ progress.history, ∃ p : Population α,
          p.CoherentIn problem plan.timeWeight ∧ r.Describes p) ∧
    (∀ result t, run plan problem clock start = .ok result t →
      problem.bounds = .ok result.bounds ∧
        result.population.Coherent problem result.bounds plan.timeWeight ∧
        result.best.Scored problem result.bounds plan.timeWeight ∧
        ∀ r ∈ result.history, ∃ p : Population α,
          p.Coherent problem result.bounds plan.timeWeight ∧ r.Describes p) := by
  refine ⟨fun wheel agree => runOn_congr agree start, ?_, ?_⟩
  · intro progress s reached
    obtain ⟨bounds, known⟩ := exists_bounds_of_reaches reached
    have settled := settled_of_reaches known reached
    refine ⟨⟨bounds, known, settled.selected.coherent⟩, settled.latest, fun r member => ?_⟩
    obtain ⟨p, selected, describes⟩ := settled.recorded r member
    exact ⟨p, ⟨bounds, known, selected.coherent⟩, describes⟩
  · intro result t success
    obtain ⟨known, selected, front, recorded, -⟩ := settled_of_run success
    have coherent := selected.coherent
    refine ⟨known, coherent, coherent.scored _ (Population.mem_of_front front), fun r member => ?_⟩
    obtain ⟨p, selected, describes⟩ := recorded r member
    exact ⟨p, selected.coherent, describes⟩

end Run

end EvoSched
