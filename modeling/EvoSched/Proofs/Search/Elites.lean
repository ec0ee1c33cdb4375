import EvoSched.Proofs.Scalar.Place
import EvoSched.Proofs.Search.Pool
import EvoSched.Proofs.Search.Safety
import EvoSched.Random.Stream

set_option autoImplicit false

namespace EvoSched

/-- A long and a short job, and two nodes that are alike and cost nothing. -/
def Problem.uneven : Problem Float where
  jobs := [⟨2, 0, 0, 0, 1, none⟩, ⟨1, 0, 0, 0, 1, none⟩]
  nodes := [⟨1, 0, 0, 0, none⟩, ⟨1, 0, 0, 0, none⟩]

/-- A plan of one generation of two candidates, the first of them spared, by which time alone
counts. -/
def Plan.brief (strategy : Strategy) (crossoverRate mutationRate : Float) : Plan Float where
  populationSize := 2
  targetSize := 2
  maxGenerations := 1
  maxSeconds := none
  mutationRate
  crossoverRate
  timeWeight := 1
  elitism := 1
  strategy
  workers := 1
  verbose := false
  reportEvery := 1

/-- The extreme rates and the mean of them. -/
theorem Plan.brief_rates : IsRate (Scalar.zero : Float) ∧ (Scalar.zero : Float) < Scalar.one ∧
    IsRate (0 : Float) ∧ IsRate (0.5 : Float) ∧ IsRate (1 : Float) := by
  unfold IsRate
  decide +kernel

theorem Plan.valid_brief {strategy : Strategy} {crossoverRate mutationRate : Float}
    (crossing : IsRate crossoverRate) (mutating : IsRate mutationRate) :
    (brief strategy crossoverRate mutationRate).Valid where
  populationSize := Nat.zero_lt_two
  targetSize := Nat.zero_lt_two
  maxGenerations := Nat.one_pos
  workers := Nat.one_pos
  reportEvery := Nat.one_pos
  mutationRate := mutating
  crossoverRate := crossing
  timeWeight := brief_rates.2.2.2.2
  elitism := Nat.one_lt_two

/-- Half of the members are offered a child, and all that are not spared mutate. -/
def Plan.bold : Plan Float := .brief .replace 0.5 1

theorem Plan.valid_bold : bold.Valid := by
  obtain ⟨-, -, -, half, whole⟩ := brief_rates
  exact valid_brief half whole

variable {σ α : Type} [Scalar α]

namespace Population

/-- How many members other than `x` at `place` are as fit as `x`. -/
def rivals (p : Population α) (place : Nat) (x : Candidate α) : Nat :=
  (p.members.eraseIdx place).countP fun c => x.fitness ≤ c.fitness

theorem le_rivals {p : Population α} {place : Nat} {x : Candidate α} (inside : place ≤ p.size)
    (ahead : ∀ c ∈ p.members.take place, x.fitness ≤ c.fitness) : place ≤ p.rivals place x := by
  have front : (p.members.take place).countP (fun c => x.fitness ≤ c.fitness) = place := by
    rw [List.countP_eq_length.2 fun c member => decide_eq_true (ahead c member),
      List.length_take]
    exact Nat.min_eq_left inside
  rw [rivals, List.eraseIdx_eq_take_drop_succ, List.countP_append, front]
  exact Nat.le_add_right _ _

variable [OrderedScalar α] {problem : Problem α} {bounds : Bounds α} {timeWeight : α}

/-- What follows a member without being fitter than it has all that stand in front of it for
rivals. -/
theorem le_rivals_of_succeeds {p : Population α} {parents : List (Candidate α)}
    (descending : Descending parents)
    (successors : List.Forall₂ (Candidate.Succeeds problem bounds timeWeight) parents p.members)
    {place : Nat} {parent x : Candidate α} (positive : 0 < place)
    (before : parents[place]? = some parent) (after : p.members[place]? = some x)
    (unfit : ¬ parent.fitness < x.fitness) : place ≤ p.rivals place x := by
  obtain ⟨low, rfl⟩ := List.getElem?_eq_some_iff.1 before
  obtain ⟨high, rfl⟩ := List.getElem?_eq_some_iff.1 after
  have order := List.pairwise_iff_getElem.1 descending
  have succeeds : ∀ k (first : k < parents.length) (second : k < p.members.length),
      Candidate.Succeeds problem bounds timeWeight parents[k] p.members[k] :=
    fun k first second => successors.get first second
  have comparable := (OrderedScalar.beq_self_of_le (order 0 place (by omega) low positive)).1
  have below : p.members[place].fitness ≤ parents[place].fitness := by
    rcases succeeds place low high with same | ⟨-, fitter⟩
    · rw [same]
      exact Scalar.beq_self_iff.1 comparable
    · have comparable' := (OrderedScalar.beq_self_of_le fitter).2
      exact (Scalar.not_lt_iff comparable comparable').1 unfit
  apply le_rivals (Nat.le_of_lt high)
  intro c member
  obtain ⟨k, bound, rfl⟩ := List.mem_take_iff_getElem.1 member
  have earlier : k < place := by omega
  have above := OrderedScalar.le_trans below (order k place (by omega) low earlier)
  rcases succeeds k (by omega) (by omega) with same | ⟨-, fitter⟩
  · rw [same]
    exact above
  · exact OrderedScalar.le_trans above fitter

end Population

namespace Search

section Replacing

variable [OrderedScalar α] [Source σ α] {wheel : Wheel σ α} {plan : Plan α} {problem : Problem α}
  {bounds : Bounds α} {s t u v : Search σ α}

theorem promoted_of_mutate (known : s.bounds = some bounds)
    (descending : Population.Descending s.population.members)
    (replaced : replacePass wheel plan problem s = .ok () t) (mutated : mutate plan t = .ok () u)
    {place : Nat} {x y : Candidate α} (before : t.population.members[place]? = some x)
    (after : u.population.members[place]? = some y) (altered : y ≠ x)
    (elite : t.population.rivals place x < plan.elitism) :
    plan.elitism ≤ place ∧ ∃ parent, s.population.members[place]? = some parent ∧
      x.Scored problem bounds plan.timeWeight ∧ parent.fitness < x.fitness := by
  have spared := (sameFront_mutate mutated).front
  have open_place : plan.elitism ≤ place := by
    by_contra protected_place
    have inFront : place < plan.elitism := by omega
    have same := congrArg (·[place]?) spared
    simp only [List.getElem?_take_of_lt inFront, before, after, Option.some.injEq] at same
    exact altered same
  have successors := succeeds_of_replacePass known replaced
  obtain ⟨high, found⟩ := List.getElem?_eq_some_iff.1 before
  have low : place < s.population.members.length := by
    rw [successors.length_eq]
    exact high
  have parent := List.getElem?_eq_getElem low
  have fitter : s.population.members[place].fitness < x.fitness := by
    by_contra unfit
    have many := Population.le_rivals_of_succeeds descending successors (by omega) parent before
      unfit
    omega
  refine ⟨open_place, _, parent, ?_, fitter⟩
  have succeeds := successors.get low high
  rw [List.get_eq_getElem, List.get_eq_getElem, found] at succeeds
  rcases succeeds with same | ⟨scored, -⟩
  · rw [same] at fitter
    exact absurd (OrderedScalar.lt_iff.1 fitter).1 (OrderedScalar.lt_iff.1 fitter).2
  · exact scored

/-- Between replacing and evaluation a generation leaves the first members as they are, as many as
the plan spares. An elite that it alters all the same, one with fewer rivals than that, stands past
them and is a child that has just taken the place of a member less fit. -/
theorem evolve_promotes_altered_elites (replaces : plan.strategy = .replace)
    (known : s.bounds = some bounds) (descending : Population.Descending s.population.members)
    (evolved : evolve wheel plan problem s = .ok () v) :
    ∃ t u, replacePass wheel plan problem { s with journal := [] } = .ok () t ∧
      mutate plan t = .ok () u ∧
      (do evaluate plan problem; select plan : SearchM σ α Unit) u = .ok () v ∧
      u.population.members.length = t.population.members.length ∧
      u.population.members.take plan.elitism = t.population.members.take plan.elitism ∧
      ∀ place x y, t.population.members[place]? = some x → u.population.members[place]? = some y →
        y ≠ x → t.population.rivals place x < plan.elitism →
        plan.elitism ≤ place ∧ ∃ parent, s.population.members[place]? = some parent ∧
          x.Scored problem bounds plan.timeWeight ∧ parent.fitness < x.fitness := by
  rw [evolve_eq_evolveInPlace replaces] at evolved
  obtain ⟨t, u, replaced, mutated, settled⟩ := evolveInPlace_eq_ok_iff.1 evolved
  obtain ⟨length, front⟩ := sameFront_mutate mutated
  refine ⟨t, u, replaced, mutated, settled, length, front, ?_⟩
  intro place x y before after altered elite
  have promoted := promoted_of_mutate (by exact known) (by exact descending) replaced mutated
    before after altered elite
  exact promoted

end Replacing

/-- Both jobs on the first node, and both on the second. By the units the second candidate gives way
to a child with one job on each node, which then loses the first job to the second node. -/
def stacked : Search Stream Float where
  source := .cycle [0.9, 0, 0, 0, 0, 0, 0, 0.5] [0.9, 0, 0, 0, 0, 0, 0, 0.5]
  population := ⟨[⟨[0, 0], 1, 0.5, 3, 0⟩, ⟨[1, 1], 1, 0.5, 3, 0⟩], 1⟩
  bounds := some ⟨1.5, 0⟩
  journal := []
  printed := ""
  readings := 0

def stackedReplaced : Search Stream Float := endOf (replacePass Wheel.spin .bold .uneven stacked)

def stackedMutated : Search Stream Float := endOf (mutate .bold stackedReplaced)

theorem settled_stacked :
    stacked.bounds = some ⟨1.5, 0⟩ ∧
    (stacked.population.members.Pairwise fun a b => b.fitness ≤ a.fitness) ∧
    (∀ c ∈ stacked.population.members, Population.isComparable c = true) ∧
    (∀ c ∈ stacked.population.members,
      c.evaluate .uneven ⟨1.5, 0⟩ Plan.bold.timeWeight = .ok c) ∧
    Problem.uneven.check = .ok () ∧ Problem.uneven.bounds = .ok ⟨1.5, 0⟩ := by
  decide +kernel

theorem passed_stacked :
    valueOf (replacePass Wheel.spin .bold .uneven stacked) = some () ∧
    valueOf (mutate .bold stackedReplaced) = some () ∧
    stackedMutated.bounds = some ⟨1.5, 0⟩ ∧
    stackedMutated.population.members.mapM
        (Candidate.evaluate .uneven ⟨1.5, 0⟩ Plan.bold.timeWeight) =
      .ok stacked.population.members ∧
    stackedReplaced.population.members[1]? = some ⟨[0, 1], 1, 0.75, 2, 0⟩ ∧
    stackedMutated.population.members[1]? = some ⟨[1, 1], 1, 0.75, 2, 0⟩ ∧
    stackedReplaced.population.rivals 1 ⟨[0, 1], 1, 0.75, 2, 0⟩ = 0 := by
  decide +kernel

theorem replacePass_stacked :
    replacePass Wheel.spin .bold .uneven stacked = .ok () stackedReplaced :=
  eq_ok_of_valueOf passed_stacked.1

theorem mutate_stacked : mutate .bold stackedReplaced = .ok () stackedMutated :=
  eq_ok_of_valueOf passed_stacked.2.1

theorem descending_stacked : Population.Descending stacked.population.members :=
  settled_stacked.2.1

theorem evolve_stacked : ∃ v, evolve Wheel.spin .bold .uneven stacked = .ok () v := by
  obtain ⟨-, -, comparable, -⟩ := settled_stacked
  obtain ⟨-, -, known, each, -⟩ := passed_stacked
  have settled := evaluate_select_of_descending rfl known each comparable descending_stacked
    (le_refl 2)
  have inPlace : evolveInPlace Wheel.spin .bold .uneven stacked = .ok () _ :=
    evolveInPlace_eq_ok_iff.2 ⟨_, _, replacePass_stacked, mutate_stacked, settled⟩
  exact ⟨_, (evolve_eq_evolveInPlace rfl stacked).trans inPlace⟩

theorem evolve_promotes_altered_elites_stacked :
    ∃ t u, replacePass Wheel.spin .bold .uneven stacked = .ok () t ∧ mutate .bold t = .ok () u ∧
      u.population.members.take 1 = t.population.members.take 1 ∧
      ∀ place x y, t.population.members[place]? = some x → u.population.members[place]? = some y →
        y ≠ x → t.population.rivals place x < 1 →
        1 ≤ place ∧ ∃ parent, stacked.population.members[place]? = some parent ∧
          x.Scored .uneven ⟨1.5, 0⟩ 1 ∧ parent.fitness < x.fitness := by
  obtain ⟨known, -⟩ := settled_stacked
  obtain ⟨v, evolved⟩ := evolve_stacked
  obtain ⟨t, u, replaced, mutated, -, -, front, promoted⟩ := evolve_promotes_altered_elites rfl
    known descending_stacked evolved
  exact ⟨t, u, replaced, mutated, front, promoted⟩

/-- Here it does alter one: the child at position 1 has no rival, and the plan spares one member. -/
theorem evolve_alters_elite :
    Plan.bold.Valid ∧ Problem.uneven.check = .ok () ∧ Problem.uneven.bounds = .ok ⟨1.5, 0⟩ ∧
      stacked.bounds = some ⟨1.5, 0⟩ ∧ Population.Descending stacked.population.members ∧
      (∀ c ∈ stacked.population.members,
        c.evaluate .uneven ⟨1.5, 0⟩ Plan.bold.timeWeight = .ok c) ∧
      (∃ v, evolve Wheel.spin .bold .uneven stacked = .ok () v) ∧
      ∃ t u x y, replacePass Wheel.spin .bold .uneven stacked = .ok () t ∧
        mutate .bold t = .ok () u ∧ t.population.members[1]? = some x ∧
        u.population.members[1]? = some y ∧ t.population.rivals 1 x < Plan.bold.elitism ∧
        y.genes ≠ x.genes := by
  obtain ⟨known, descending, -, evaluated, accepted, bounds⟩ := settled_stacked
  obtain ⟨-, -, -, -, before, after, rivals⟩ := passed_stacked
  have unique : stackedReplaced.population.rivals 1 ⟨[0, 1], 1, 0.75, 2, 0⟩ <
      Plan.bold.elitism := by
    rw [rivals]
    exact Nat.one_pos
  have moved : ([1, 1] : List Int) ≠ [0, 1] := by decide
  refine ⟨Plan.valid_bold, accepted, bounds, known, descending, evaluated, evolve_stacked, ?_⟩
  exact ⟨_, _, _, _, replacePass_stacked, mutate_stacked, before, after, unique, moved⟩

end Search

end EvoSched
