import EvoSched.Proofs.Cost.Fitness
import EvoSched.Proofs.Search.Breeding

set_option autoImplicit false

namespace EvoSched

namespace Search

variable {σ α : Type} [Scalar α]

/-- Two plans by which a population is evaluated to the same end. Without bounds neither does
anything; where all members can be evaluated, both score, sum up and sort them; else both fault as
the first member that cannot be evaluated does. Then the first plan leaves the members before that
one scored, and the second no member; the order and the total stay as they were. -/
structure EvaluatesAlike (plan plan' : Plan α) (problem : Problem α) (s : Search σ α) : Prop where
  boundless : s.bounds = none →
    evaluate plan problem s = .error .boundsMissing s ∧
    evaluate plan' problem s = .error .boundsMissing s
  scored (bounds : Bounds α) (evaluated : List (Candidate α)) : s.bounds = some bounds →
    s.population.members.mapM (Candidate.evaluate problem bounds plan.timeWeight) =
      .ok evaluated →
    ∃ t, t = { s with
        population := ({ s.population with members := evaluated } : Population α).recompute.sort } ∧
      evaluate plan problem s = .ok () t ∧ evaluate plan' problem s = .ok () t
  halted (bounds : Bounds α) (before : List (Candidate α)) (failing : Candidate α)
    (after evaluated : List (Candidate α)) (fault : Fault) : s.bounds = some bounds →
    HaltsAt problem bounds plan.timeWeight s.population.members before failing after evaluated
      fault →
    evaluate plan problem s = .error fault
      { s with population := { s.population with members := evaluated ++ failing :: after } } ∧
    evaluate plan' problem s = .error fault s
  cases (bounds : Bounds α) : s.bounds = some bounds →
    (∃ evaluated, s.population.members.mapM
      (Candidate.evaluate problem bounds plan.timeWeight) = .ok evaluated) ∨
    ∃ before failing after evaluated fault, HaltsAt problem bounds plan.timeWeight
      s.population.members before failing after evaluated fault

/-- Several workers evaluate a population as one worker does. -/
theorem workers_evaluate_alike (plan : Plan α) (problem : Problem α) (s : Search σ α)
    {workers : Nat} (alone : plan.workers ≤ 1) (several : 1 < workers) :
    EvaluatesAlike plan { plan with workers } problem s where
  boundless none := ⟨evaluate_of_boundless none, evaluate_of_boundless none⟩
  scored bounds evaluated known each :=
    ⟨_, rfl, evaluate_eq_ok_iff.2 ⟨bounds, evaluated, known, each, rfl⟩,
      evaluate_eq_ok_iff.2 ⟨bounds, evaluated, known, each, rfl⟩⟩
  halted bounds before failing after evaluated fault known halts := by
    constructor
    · exact evaluate_inOrder_of_haltsAt (by omega) known halts
    · have pooled : 1 < ({ plan with workers } : Plan α).workers := several
      exact evaluate_several_of_haltsAt pooled known halts
  cases bounds known := by
    cases each : s.population.members.mapM
      (Candidate.evaluate problem bounds plan.timeWeight) with
    | ok evaluated => exact .inl ⟨evaluated, rfl⟩
    | error fault =>
        obtain ⟨before, failing, after, evaluated, halts⟩ := exists_haltsAt each
        exact .inr ⟨before, failing, after, evaluated, fault, halts⟩

/-- Three candidates without scores; the second of them names a node that there is not. -/
def astray : Search (Steady ℚ) ℚ where
  source := ⟨⟩
  population := ⟨[.fresh [0, 1] 1, .fresh [0, 2] 2, .fresh [1, 1] 1], 0⟩
  bounds := some ⟨2, 3⟩
  journal := []
  printed := ""
  readings := 0

theorem workers_evaluate_alike_astray :
    evaluate fertile .pair astray = .error (.unknownNode 1 2)
      { astray with
        population := ⟨[⟨[0, 1], 1, 1, 2, 3⟩, .fresh [0, 2] 2, .fresh [1, 1] 1], 0⟩ } ∧
      evaluate { fertile with workers := 4 } .pair astray = .error (.unknownNode 1 2) astray := by
  have scored : [Candidate.fresh [0, 1] 1].mapM (Candidate.evaluate .pair ⟨2, 3⟩ 1) =
      .ok [⟨[0, 1], 1, 1, 2, 3⟩] := by
    decide +kernel
  have halts : HaltsAt .pair ⟨2, 3⟩ 1 astray.population.members [.fresh [0, 1] 1] (.fresh [0, 2] 2)
      [.fresh [1, 1] 1] [⟨[0, 1], 1, 1, 2, 3⟩] (.unknownNode 1 2) := ⟨rfl, scored, rfl⟩
  have alike := workers_evaluate_alike fertile .pair astray (le_refl 1) (by decide : 1 < 4)
  exact alike.halted _ _ _ _ _ _ rfl halts

end Search

end EvoSched
