import EvoSched.Proofs.Run.Pools
import EvoSched.Proofs.Run.Safety
import EvoSched.Proofs.Search.Elites

set_option autoImplicit false

namespace EvoSched.Run

variable {σ α : Type} [Scalar α] [OrderedScalar α] [Source σ α]

section Heirs

variable {wheel : Wheel σ α} {plan : Plan α} {problem : Problem α} {clock : Nat → α}
  {start : Search σ α} {progress : Progress α} {s t u : Search σ α}

theorem front_le_of_turns (compares : Compares wheel plan problem clock start)
    (turns : Turns wheel plan problem clock start progress s t u)
    (keeps : Search.KeepsBest plan s.population.size) {best next : Candidate α}
    (before : s.population.member 0 = .ok best) (after : u.population.member 0 = .ok next) :
    best.fitness ≤ next.fitness := by
  obtain ⟨bounds, known⟩ := exists_bounds_of_reaches turns.reached
  have settled := settled_of_reaches known turns.reached
  have inside := Population.mem_of_front before
  have scored := settled.selected.coherent.scored best inside
  have proper := compares best (evaluates_of_reaches turns.reached inside)
  obtain ⟨pool, v, w, gathered, evaluated, -, population⟩ := turns.pool
  have gathers := Gathers.next turns.reached turns.decided gathered
  have taken := bounds_of_gathers known gathers
  obtain ⟨⟨readings, rfl⟩, -⟩ := verdict_eq_ok turns.decided
  obtain ⟨heir, member, heirScored, fitter⟩ := Search.heir_of_gather (by exact keeps)
    (by exact settled.known) (by exact Population.member_zero_eq_ok_iff.1 before) scored
    (Population.isComparable_iff.1 proper) gathered
  have pooled := Search.mem_of_evaluate taken heirScored member evaluated
  rw [population] at after
  have above := Population.le_front (compares.pool gathers evaluated) after pooled
  exact OrderedScalar.le_trans fitter above

/-- From record to record the best does not get worse, wherever the plan keeps it. -/
theorem isChain_of_keepsBest (compares : Compares wheel plan problem clock start)
    (reached : Reaches wheel plan problem clock start progress s) :
    progress.history.IsChain fun r r' =>
      Search.KeepsBest plan r.populationSize.toNat → r.bestFitness ≤ r'.bestFitness := by
  refine isChain_of_reaches ?_ reached
  intro progress s t u r r' turns before after keeps
  obtain ⟨best, front, fitness, -, -, -, size⟩ := before
  obtain ⟨next, front', fitness', -⟩ := after.describes
  rw [fitness, fitness']
  rw [size, Int.toNat_natCast] at keeps
  exact front_le_of_turns compares turns keeps front front'

/-- Where the plan keeps the best of every population, records ascend. -/
theorem ascends_of_keepsBest (compares : Compares wheel plan problem clock start)
    (keeps : ∀ size, Search.KeepsBest plan size)
    (reached : Reaches wheel plan problem clock start progress s) :
    progress.history.Pairwise fun r r' => r.bestFitness ≤ r'.bestFitness := by
  have chain := isChain_of_keepsBest compares reached
  have steps : (progress.history.map (·.bestFitness)).IsChain (· ≤ ·) := by
    rw [List.isChain_map]
    exact chain.imp fun r r' step => step (keeps _)
  exact List.pairwise_map.1 (List.isChain_iff_pairwise.1 steps)

/-- Then no record betters the result. -/
theorem le_best_of_run (compares : Compares wheel plan problem clock start)
    (keeps : ∀ size, Search.KeepsBest plan size) {result : RunResult α}
    (success : runOn wheel plan problem clock start = .ok result t) :
    ∀ r ∈ result.history, r.bestFitness ≤ result.best.fitness := by
  obtain ⟨last, s, r, reached, history, front, ends, best⟩ := history_of_run success
  have ascends := ascends_of_keepsBest compares keeps reached
  have proper := compares _ (evaluates_of_reaches reached (Population.mem_of_front front))
  obtain ⟨earlier, split⟩ := List.getLast?_eq_some_iff.1 ends
  rw [← history, split, List.pairwise_append] at ascends
  intro other member
  rw [split, List.mem_append, List.mem_singleton] at member
  rcases member with before | rfl
  · rw [← best]
    exact ascends.2.2 other before r (List.mem_singleton_self r)
  · rw [best]
    exact Population.isComparable_iff.1 proper

end Heirs

theorem uneven_computed :
    Problem.uneven.check = .ok () ∧ Problem.uneven.bounds = .ok ⟨1.5, 0⟩ ∧
    (∀ genes ∈ ([[0, 0], [0, 1], [1, 0], [1, 1]] : List (List Int)),
      (Problem.uneven.outcome genes).toOption.all (fun outcome =>
        let x := (⟨1.5, 0⟩ : Bounds Float).fitness 1 outcome.makespan outcome.totalCost
        x == x) = true) ∧
    Search.pairCount (.brief (.grow false) 0.5 0) 2 = .ok 0 := by
  decide +kernel

/-- All assignments of the uneven jobs have a fitness that compares. -/
theorem comparable_of_uneven {c : Candidate Float} (scored : c.Scored .uneven ⟨1.5, 0⟩ 1) :
    Population.isComparable c = true := by
  obtain ⟨-, -, each, -⟩ := uneven_computed
  obtain ⟨outcome, success, -, -, fitness⟩ := scored
  obtain ⟨⟨length, inside⟩, -, -⟩ := Problem.outcome_eq_ok_iff.1 success
  have listed : c.genes ∈ ([[0, 0], [0, 1], [1, 0], [1, 1]] : List (List Int)) := by
    obtain ⟨a, b, pair⟩ := List.length_eq_two.1 length
    rw [pair] at inside ⊢
    have first := inside a (by simp)
    have second := inside b (by simp)
    simp only [Problem.uneven, List.length_cons, List.length_nil] at first second
    have zero_or_one : (a = 0 ∨ a = 1) ∧ (b = 0 ∨ b = 1) := by omega
    rcases zero_or_one with ⟨rfl | rfl, rfl | rfl⟩ <;> decide
  have compares := each c.genes listed
  rw [success] at compares
  rw [Population.isComparable, fitness]
  exact compares

theorem compares_of_brief {σ : Type} [Source σ Float] {wheel : Wheel σ Float}
    {strategy : Strategy} {crossoverRate mutationRate : Float} {clock : Nat → Float}
    {start : Search σ Float} :
    Compares wheel (.brief strategy crossoverRate mutationRate) .uneven clock start := by
  intro c evaluates
  have scored := scored_of_evaluates uneven_computed.2.1 evaluates
  have weight : (Plan.brief strategy crossoverRate mutationRate).timeWeight = 1 := rfl
  rw [weight] at scored
  exact comparable_of_uneven scored

/-- The units are all zero: one run of a plan of two candidates, whatever the strategy. -/
theorem brief_result (strategy : Strategy) :
    ∃ result t, run (.brief strategy 0.5 0) .uneven (fun _ => 0)
      (Search.start (⟨⟩ : Steady Float)) = .ok result t := by
  obtain ⟨⟨reflexive, -⟩, positive, none, half, -⟩ := Plan.brief_rates
  have lawful : LawfulSource (Steady Float) Float := Steady.lawful reflexive positive
  have small : (Plan.brief strategy 0.5 0).targetSize < 2 ^ 53 := by
    have two : 2 < 2 ^ 53 := by decide
    exact two
  obtain ⟨result, t, success, -⟩ := exists_result (Plan.valid_brief half none)
    (Problem.check_eq_ok_iff.1 uneven_computed.1) small (fun _ => 0)
    (Search.start (⟨⟩ : Steady Float))
  exact ⟨result, t, success⟩

/-- With replacing and at least one protected rank the best fitness on record never falls, and the
result has the last and greatest of them. -/
theorem run_replacing_ascends {plan : Plan α} {problem : Problem α} {clock : Nat → α}
    {start : Search σ α} (replaces : plan.strategy = .replace) (elitist : 0 < plan.elitism)
    (compares : Compares Wheel.spin plan problem clock start) :
    (∀ progress s, Reaches Wheel.spin plan problem clock start progress s →
      progress.history.Pairwise fun r r' => r.bestFitness ≤ r'.bestFitness) ∧
    ∀ result t, run plan problem clock start = .ok result t →
      (result.history.Pairwise fun r r' => r.bestFitness ≤ r'.bestFitness) ∧
      result.history.getLast?.map (·.bestFitness) = some result.best.fitness ∧
      ∀ r ∈ result.history, r.bestFitness ≤ result.best.fitness := by
  have keeps : ∀ size, Search.KeepsBest plan size := by
    intro size
    simpa only [Search.KeepsBest, replaces] using elitist
  refine ⟨fun _ _ reached => ascends_of_keepsBest compares keeps reached, ?_⟩
  intro result t success
  obtain ⟨last, s, r, reached, history, -, ends, best⟩ := history_of_run success
  have ascends := ascends_of_keepsBest compares keeps reached
  rw [← history] at ascends
  refine ⟨ascends, ?_, le_best_of_run compares keeps success⟩
  rw [ends, Option.map_some, best]

theorem run_replacing_ascends_brief :
    ∃ result t, run (.brief .replace 0.5 0) .uneven (fun _ => 0)
        (Search.start (⟨⟩ : Steady Float)) = .ok result t ∧
      (result.history.Pairwise fun r r' => r.bestFitness ≤ r'.bestFitness) ∧
      ∀ r ∈ result.history, r.bestFitness ≤ result.best.fitness := by
  obtain ⟨result, t, success⟩ := brief_result .replace
  obtain ⟨-, ascends⟩ := @run_replacing_ascends (Steady Float) Float _ _ _ (.brief .replace 0.5 0)
    .uneven (fun _ => 0) (Search.start ⟨⟩) rfl Nat.one_pos compares_of_brief
  obtain ⟨upward, -, greatest⟩ := ascends result t success
  exact ⟨result, t, success, upward, greatest⟩

/-- With breeding, a protected rank and no merging, the best fitness does not fall from a record to
the next wherever the population of the first leaves a slot for a copy. -/
theorem run_breeding_ascends {plan : Plan α} {problem : Problem α} {clock : Nat → α}
    {start : Search σ α} (breeds : plan.strategy = .grow false) (elitist : 0 < plan.elitism)
    (compares : Compares Wheel.spin plan problem clock start) :
    (∀ progress s, Reaches Wheel.spin plan problem clock start progress s →
      progress.history.IsChain fun r r' =>
        Search.LeavesCopy plan r.populationSize.toNat → r.bestFitness ≤ r'.bestFitness) ∧
    ∀ result t, run plan problem clock start = .ok result t →
      result.history.IsChain fun r r' =>
        Search.LeavesCopy plan r.populationSize.toNat → r.bestFitness ≤ r'.bestFitness := by
  have reaching : ∀ progress s, Reaches Wheel.spin plan problem clock start progress s →
      progress.history.IsChain fun r r' =>
        Search.LeavesCopy plan r.populationSize.toNat → r.bestFitness ≤ r'.bestFitness := by
    intro progress s reached
    apply (isChain_of_keepsBest compares reached).imp
    intro r r' keeps room
    apply keeps
    rw [Search.KeepsBest, breeds]
    exact ⟨elitist, room⟩
  refine ⟨reaching, fun result t success => ?_⟩
  obtain ⟨last, s, r, reached, history, -⟩ := history_of_run success
  rw [history]
  exact reaching last s reached

theorem run_breeding_ascends_brief :
    ∃ result t, run (.brief (.grow false) 0.5 0) .uneven (fun _ => 0)
        (Search.start (⟨⟩ : Steady Float)) = .ok result t ∧
      Search.LeavesCopy (.brief (.grow false) 0.5 0) 2 ∧
      result.history.IsChain fun r r' =>
        Search.LeavesCopy (.brief (.grow false) 0.5 0) r.populationSize.toNat →
          r.bestFitness ≤ r'.bestFitness := by
  obtain ⟨result, t, success⟩ := brief_result (.grow false)
  obtain ⟨-, ascends⟩ := @run_breeding_ascends (Steady Float) Float _ _ _
    (.brief (.grow false) 0.5 0) .uneven (fun _ => 0) (Search.start ⟨⟩) rfl Nat.one_pos
    compares_of_brief
  refine ⟨result, t, success, ?_, ascends result t success⟩
  obtain ⟨-, -, -, counted⟩ := uneven_computed
  intro pairs same
  cases counted.symm.trans same
  decide

/-- All slots go to pairs of children. -/
def crossing : Plan Float := .brief (.grow false) 1 0

/-- By the units the first two candidates have one job on each node, and their two children have
both jobs on one node. -/
def crossed : Search Stream Float :=
  Search.start (.cycle [0, 0.5, 0.5, 0, 0, 0.9, 0, 0, 0] [0, 0.5, 0.5, 0, 0, 0.9, 0, 0, 0])

def crossedParents : List (Candidate Float) := [⟨[0, 1], 1, 0.75, 2, 0⟩, ⟨[1, 0], 1, 0.75, 2, 0⟩]

def crossedChildren : List (Candidate Float) := [⟨[1, 1], 1, 0.5, 3, 0⟩, ⟨[0, 0], 1, 0.5, 3, 0⟩]

/-- The search once its candidates are drawn. -/
@[irreducible]
def crossedDrawn : Search Stream Float :=
  endOf (assemble crossing .uneven { crossed with readings := 1 })

/-- The search after the first selection. -/
def crossedBegun : Search Stream Float :=
  { crossedDrawn with population := ⟨crossedParents, Population.totalFitness crossedParents⟩ }

/-- The search once its children are bred. -/
@[irreducible]
def crossedBred : Search Stream Float :=
  endOf (Search.gather Wheel.spin crossing .uneven { crossedBegun with readings := 2 })

/-- The search after the generation. -/
def crossedEvolved : Search Stream Float :=
  { crossedBred with population := ⟨crossedChildren, Population.totalFitness crossedChildren⟩ }

theorem drawn_crossed :
    valueOf (assemble crossing .uneven { crossed with readings := 1 }) = some () ∧
    crossedDrawn.bounds = some ⟨1.5, 0⟩ ∧
    crossedDrawn.population.members.mapM
      (Candidate.evaluate .uneven ⟨1.5, 0⟩ crossing.timeWeight) = .ok crossedParents ∧
    (∀ c ∈ crossedParents, Population.isComparable c = true) ∧
    (crossedParents.Pairwise fun a b => b.fitness ≤ a.fitness) ∧
    crossedBegun.population.hasOptimum = false ∧ crossedBegun.readings + 1 = 2 := by
  decide +kernel

theorem bred_crossed :
    valueOf (Search.gather Wheel.spin crossing .uneven { crossedBegun with readings := 2 }) =
      some ⟨[.fresh [1, 1] 1, .fresh [0, 0] 1], Scalar.zero⟩ ∧
    crossedBred.bounds = some ⟨1.5, 0⟩ ∧
    ([.fresh [1, 1] 1, .fresh [0, 0] 1] : List (Candidate Float)).mapM
      (Candidate.evaluate .uneven ⟨1.5, 0⟩ crossing.timeWeight) = .ok crossedChildren ∧
    (∀ c ∈ crossedChildren, Population.isComparable c = true) ∧
    (crossedChildren.Pairwise fun a b => b.fitness ≤ a.fitness) ∧
    (∀ c ∈ crossedChildren, c.genes.length = 2 ∧ c.top = 1 ∧
      ∀ gene ∈ c.genes, 0 ≤ gene ∧ gene ≤ 1) ∧
    (0.5 : Float) < 0.75 := by
  decide +kernel

theorem begin_crossed :
    begin crossing .uneven { crossed with readings := 1 } = .ok () crossedBegun := by
  obtain ⟨drawn, known, each, comparable, order, -⟩ := drawn_crossed
  have assembled : assemble crossing .uneven { crossed with readings := 1 } =
      .ok () crossedDrawn := by
    unfold crossedDrawn
    exact eq_ok_of_valueOf drawn
  have settled := Search.evaluate_select_of_descending rfl known each comparable order (le_refl 2)
  exact begin_eq_ok_iff.2 ⟨crossedDrawn, assembled, settled⟩

theorem evolve_crossed :
    Search.evolve Wheel.spin crossing .uneven { crossedBegun with readings := 2 } =
      .ok () crossedEvolved := by
  obtain ⟨bred, known, each, comparable, order, -⟩ := bred_crossed
  have gathered : Search.gather Wheel.spin crossing .uneven { crossedBegun with readings := 2 } =
      .ok ⟨[.fresh [1, 1] 1, .fresh [0, 0] 1], Scalar.zero⟩ crossedBred := by
    unfold crossedBred
    exact eq_ok_of_valueOf bred
  have settled := Search.evaluate_select_of_descending
    (s := { crossedBred with population := ⟨[.fresh [1, 1] 1, .fresh [0, 0] 1], Scalar.zero⟩ })
    rfl known each comparable order (le_refl 2)
  exact Search.evolve_eq_ok_iff.2 ⟨_, crossedBred, gathered, settled⟩

theorem launch_crossed : ∃ r, r.bestFitness = 0.75 ∧
    launch crossing .uneven (fun _ => 0) crossed =
      .ok ⟨0, 0, [r]⟩ { crossedBegun with readings := 2 } := by
  obtain ⟨-, -, -, -, -, -, twice⟩ := drawn_crossed
  have accepted := ofResult_ok uneven_computed.1 crossed
  have front : crossedBegun.population.member 0 = .ok ⟨[0, 1], 1, 0.75, 2, 0⟩ := rfl
  obtain ⟨r, recorded, fitness⟩ : ∃ r, first crossing (fun _ => 0) 0 crossedBegun =
      .ok ⟨0, 0, [r]⟩ { crossedBegun with readings := crossedBegun.readings + 1 } ∧
        r.bestFitness = 0.75 := first_of_quiet rfl 0 front
  rw [twice] at recorded
  exact ⟨r, fitness, bind_ok accepted (bind_ok rfl (bind_ok begin_crossed recorded))⟩

theorem loop_crossed (r : Record Float) : ∃ r' reason t, r'.bestFitness = 0.5 ∧
    loop Wheel.spin crossing .uneven (fun _ => 0) 1 ⟨0, 0, [r]⟩
        { crossedBegun with readings := 2 } = .ok (⟨0, 1, [r, r']⟩, reason) t ∧
    t.population = crossedEvolved.population ∧ t.bounds = some ⟨1.5, 0⟩ := by
  obtain ⟨-, -, -, -, -, short, -⟩ := drawn_crossed
  have decided : verdict crossing (fun _ => 0) 0 1 { crossedBegun with readings := 2 } =
      .ok none { crossedBegun with readings := 2 } :=
    verdict_of_timeless rfl 0 one_ne_zero short
  have front : crossedEvolved.population.member 0 = .ok ⟨[1, 1], 1, 0.5, 3, 0⟩ := rfl
  obtain ⟨r', noted, fitness⟩ : ∃ r', note crossing (fun _ => 0) ⟨0, 0, [r]⟩ crossedEvolved =
      .ok ⟨0, 1, [r, r']⟩ { crossedEvolved with readings := crossedEvolved.readings + 1 } ∧
        r'.bestFitness = 0.5 := note_of_quiet rfl Nat.one_pos ⟨0, 0, [r]⟩ front
  obtain ⟨decision, readings, stopped, -⟩ : ∃ decision readings,
      verdict crossing (fun _ => 0) 0 0
        { crossedEvolved with readings := crossedEvolved.readings + 1 } =
          .ok decision { crossedEvolved with readings } ∧ _ := verdict_eq 0 0 _
  have known : crossedEvolved.bounds = some ⟨1.5, 0⟩ := bred_crossed.2.1
  refine ⟨r', decision.getD .maxGenerations, { crossedEvolved with readings }, fitness, ?_, rfl,
    known⟩
  exact bind_ok decided (bind_ok evolve_crossed (bind_ok noted (bind_ok stopped rfl)))

theorem fit_crossed : crossedEvolved.population.Fit .uneven where
  some_member := List.cons_ne_nil _ _
  each := by
    obtain ⟨-, -, -, -, -, assigned, -⟩ := bred_crossed
    intro c member
    obtain ⟨length, top, inside⟩ := assigned c member
    exact ⟨length, top, inside⟩

/-- Without a slot for a copy the best is lost, protected or not: it falls from 0.75 to 0.5. -/
theorem run_breeding_loses_best :
    crossing.Valid ∧ crossing.strategy = .grow false ∧ 0 < crossing.elitism ∧
      Problem.uneven.check = .ok () ∧
      Compares Wheel.spin crossing .uneven (fun _ => 0) crossed ∧
      ∃ result t r r', run crossing .uneven (fun _ => 0) crossed = .ok result t ∧
        result.history = [r, r'] ∧ r'.bestFitness < r.bestFitness := by
  obtain ⟨-, -, none, -, whole⟩ := Plan.brief_rates
  obtain ⟨-, -, -, -, -, -, worse⟩ := bred_crossed
  refine ⟨Plan.valid_brief whole none, rfl, Nat.one_pos, uneven_computed.1, compares_of_brief, ?_⟩
  obtain ⟨r, best, launched⟩ := launch_crossed
  obtain ⟨r', reason, t, best', looped, population, known⟩ := loop_crossed r
  have ready : t.Ready .uneven := ⟨⟨_, known⟩, population ▸ fit_crossed⟩
  obtain ⟨result, u, concluded⟩ := conclude_ok (fun _ => 0) ⟨0, 1, [r, r']⟩ reason ready
  obtain ⟨-, -, history, -⟩ := conclude_eq_ok concluded
  refine ⟨result, u, r, r', bind_ok launched (bind_ok looped concluded), history, ?_⟩
  rw [best, best']
  exact worse

end EvoSched.Run
