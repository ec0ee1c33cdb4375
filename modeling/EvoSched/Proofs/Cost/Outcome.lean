import EvoSched.Cost
import EvoSched.Proofs.Problem.Acceptance
import EvoSched.Proofs.Scalar.Lawful

set_option autoImplicit false

namespace EvoSched

variable {α : Type} [Scalar α]

theorem firstFailing_eq_none_iff {ok : Int → Bool} {position : Nat} {xs : List Int} :
    firstFailing ok position xs = none ↔ ∀ x ∈ xs, ok x = true := by
  induction xs generalizing position with
  | nil => simp [firstFailing]
  | cons x rest ih =>
      rw [firstFailing, List.forall_mem_cons]
      split
      · rename_i passed
        rw [ih]
        exact ⟨fun others => ⟨passed, others⟩, fun all => all.2⟩
      · rename_i failed
        exact ⟨nofun, fun all => absurd all.1 failed⟩

/-- What comes before the first element that fails has passed. -/
theorem firstFailing_eq_some_iff {ok : Int → Bool} {start position : Nat} {x : Int}
    {xs : List Int} :
    firstFailing ok start xs = some (position, x) ↔
      ∃ k, position = start + k ∧ xs[k]? = some x ∧ ok x = false ∧
        ∀ y ∈ xs.take k, ok y = true := by
  induction xs generalizing start with
  | nil => simp [firstFailing]
  | cons first rest ih =>
      rw [firstFailing]
      split
      · rename_i passed
        rw [ih]
        constructor
        · rintro ⟨k, rfl, found, failed, earlier⟩
          refine ⟨k + 1, Nat.add_right_comm start 1 k, found, failed, ?_⟩
          exact List.forall_mem_cons.2 ⟨passed, earlier⟩
        · rintro ⟨k, rfl, found, failed, earlier⟩
          cases k with
          | zero =>
              cases found
              rw [passed] at failed
              cases failed
          | succ k =>
              exact ⟨k, (Nat.add_right_comm start 1 k).symm, found, failed,
                (List.forall_mem_cons.1 earlier).2⟩
      · rename_i failed
        constructor
        · intro same
          cases same
          exact ⟨0, rfl, rfl, Bool.eq_false_iff.2 failed, nofun⟩
        · rintro ⟨k, rfl, found, outside, earlier⟩
          cases k with
          | zero =>
              cases found
              rfl
          | succ k => exact absurd (List.forall_mem_cons.1 earlier).1 failed

namespace Scalar

theorem exists_maximum? {xs : List α} (some_term : xs ≠ []) : ∃ x, maximum? xs = some x := by
  cases xs with
  | nil => exact absurd rfl some_term
  | cons x rest => exact ⟨_, rfl⟩

theorem exists_minimum? {xs : List α} (some_term : xs ≠ []) : ∃ x, minimum? xs = some x := by
  cases xs with
  | nil => exact absurd rfl some_term
  | cons x rest => exact ⟨_, rfl⟩

end Scalar

theorem Node.Acceptable.capacity_pos [LawfulScalar α] {node : Node α} (fine : node.Acceptable) :
    Scalar.zero < node.capacity := by
  obtain ⟨finite, -⟩ := Bool.and_eq_true_iff.1 fine.capacity
  exact LawfulScalar.pos_of_not_le finite fine.some_capacity

namespace Problem

variable {problem : Problem α}

/-- Gene `i` names the node of job `i`, for every job. -/
structure Assigns {α : Type} (problem : Problem α) (genes : List Int) : Prop where
  length : genes.length = problem.jobs.length
  named : ∀ gene ∈ genes, 0 ≤ gene ∧ gene < problem.nodes.length

/-- No node is without capacity. -/
def Capable (problem : Problem α) : Prop :=
  ∀ node ∈ problem.nodes, (node.capacity == Scalar.zero) = false

/-- The outcome that the node times and costs add up to. -/
structure Yields (problem : Problem α) (genes : List Int) (outcome : Outcome α) : Prop where
  makespan : Scalar.maximum? (problem.nodeTimes genes) = some outcome.makespan
  totalCost : outcome.totalCost = Scalar.sum (problem.nodeCosts genes)
  nodeTimes : outcome.nodeTimes = problem.nodeTimes genes
  nodeCosts : outcome.nodeCosts = problem.nodeCosts genes

theorem outcome_eq_ok_iff {genes : List Int} {outcome : Outcome α} :
    problem.outcome genes = .ok outcome ↔
      problem.Assigns genes ∧ problem.Capable ∧ problem.Yields genes outcome := by
  have named : firstFailing (fun gene => 0 ≤ gene && gene < problem.nodes.length) 0 genes = none ↔
      ∀ gene ∈ genes, 0 ≤ gene ∧ gene < problem.nodes.length := by
    simp [firstFailing_eq_none_iff]
  have capable : (problem.nodes.any fun node => node.capacity == Scalar.zero) = false ↔
      problem.Capable := by
    simp [Capable]
  unfold Problem.outcome
  constructor
  · intro success
    split at success
    · cases success
    · rename_i length
      split at success
      · cases success
      · rename_i passed
        split at success
        · cases success
        · rename_i room
          simp only at success
          split at success
          · cases success
          · rename_i makespan found
            cases success
            exact ⟨⟨by omega, named.1 passed⟩, capable.1 (by simpa using room),
              ⟨found, rfl, rfl, rfl⟩⟩
  · rintro ⟨assigns, room, yields⟩
    obtain ⟨makespan, totalCost, nodeTimes, nodeCosts⟩ := outcome
    obtain ⟨found, rfl, rfl, rfl⟩ := yields
    simp only at found
    rw [if_neg (not_not.2 assigns.length), named.2 assigns.named]
    simp only [capable.2 room, found, Bool.false_eq_true, if_false]

theorem Acceptable.capable [LawfulScalar α] (fine : problem.Acceptable) : problem.Capable :=
  fun node member => LawfulScalar.beq_zero_of_pos (fine.nodes node member).capacity_pos

/-- A node list that is not empty has a longest time, whatever the times are. -/
theorem exists_outcome_of_capable (some_node : problem.nodes ≠ []) (capable : problem.Capable)
    {genes : List Int} (assigns : problem.Assigns genes) :
    ∃ outcome, problem.outcome genes = .ok outcome := by
  have some_time : problem.nodeTimes genes ≠ [] := by
    rw [nodeTimes, Ne, List.mapIdx_eq_nil_iff]
    exact some_node
  obtain ⟨makespan, found⟩ := Scalar.exists_maximum? some_time
  exact ⟨⟨makespan, _, _, _⟩, outcome_eq_ok_iff.2 ⟨assigns, capable, ⟨found, rfl, rfl, rfl⟩⟩⟩

theorem exists_outcome [LawfulScalar α] (fine : problem.Acceptable) {genes : List Int}
    (assigns : problem.Assigns genes) : ∃ outcome, problem.outcome genes = .ok outcome :=
  exists_outcome_of_capable fine.some_node fine.capable assigns

theorem minTime_eq_ok_iff {minTime : α} :
    problem.minTime = .ok minTime ↔
      (problem.totalCapacity == Scalar.zero) = false ∧
        minTime = problem.totalLength / problem.totalCapacity := by
  unfold Problem.minTime
  split
  · rename_i none
    simp [none]
  · rename_i room
    simp [room, eq_comm]

theorem cheapest_eq_ok_iff {job : Job α} {least : α} (capable : problem.Capable) :
    problem.cheapest job = .ok least ↔
      Scalar.minimum? (problem.nodes.map (·.charge job)) = some least := by
  have charges : problem.nodes.mapM (·.charge? job) =
      .ok (problem.nodes.map (·.charge job)) := by
    apply mapM_ok
    intro node member
    rw [Node.charge?, capable node member]
    rfl
  rw [Problem.cheapest, result_bind_eq_ok, charges]
  constructor
  · rintro ⟨_, same, success⟩
    cases same
    split at success
    · cases success
    · rename_i found
      cases success
      exact found
  · intro found
    refine ⟨_, rfl, ?_⟩
    rw [found]

/-- The cost bound adds up what each job costs on the node that charges it least. -/
theorem minCost_eq_ok_iff (capable : problem.Capable) {minCost : α} :
    problem.minCost = .ok minCost ↔
      ∃ least, List.Forall₂ (fun (job : Job α) x =>
          Scalar.minimum? (problem.nodes.map (·.charge job)) = some x) problem.jobs least ∧
        minCost = Scalar.sum least := by
  unfold Problem.minCost
  rw [result_bind_eq_ok]
  simp only [mapM_eq_ok_iff, cheapest_eq_ok_iff capable]
  constructor
  · rintro ⟨least, each, success⟩
    cases success
    exact ⟨least, each, rfl⟩
  · rintro ⟨least, each, rfl⟩
    exact ⟨least, each, rfl⟩

theorem bounds_eq_ok_iff {bounds : Bounds α} :
    problem.bounds = .ok bounds ↔
      problem.check = .ok () ∧ problem.minTime = .ok bounds.minTime ∧
        problem.minCost = .ok bounds.minCost := by
  rw [Problem.bounds, result_then_eq_ok]
  simp only [result_bind_eq_ok]
  constructor
  · rintro ⟨passed, minTime, time, minCost, cost, success⟩
    cases success
    exact ⟨passed, time, cost⟩
  · rintro ⟨passed, time, cost⟩
    exact ⟨passed, bounds.minTime, time, bounds.minCost, cost, rfl⟩

theorem exists_bounds [LawfulScalar α] (fine : problem.Acceptable) :
    ∃ bounds, problem.bounds = .ok bounds := by
  have positive : Scalar.zero < problem.totalCapacity := by
    refine Scalar.sum_pos (by simpa using fine.some_node) ?_
    simp only [List.forall_mem_map]
    exact fun node member => (fine.nodes node member).capacity_pos
  have time := minTime_eq_ok_iff.2 ⟨LawfulScalar.beq_zero_of_pos positive, rfl⟩
  have each : ∀ job, ∃ x, Scalar.minimum? (problem.nodes.map (·.charge job)) = some x :=
    fun job => Scalar.exists_minimum? (by simpa using fine.some_node)
  choose least found using each
  have cost := (minCost_eq_ok_iff fine.capable).2
    ⟨problem.jobs.map least,
      List.forall₂_map_right_iff.2 (List.forall₂_same.2 fun job _ => found job), rfl⟩
  exact ⟨⟨_, _⟩, bounds_eq_ok_iff.2 ⟨check_eq_ok_iff.2 fine, time, cost⟩⟩

end Problem

end EvoSched
