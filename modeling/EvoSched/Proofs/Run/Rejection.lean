import EvoSched.Proofs.Cost.LowerBound
import EvoSched.Proofs.Problem.Demands
import EvoSched.Proofs.Scalar.Interval
import EvoSched.Run

set_option autoImplicit false

namespace EvoSched

namespace Binary64

variable {x : Float}

/-- The number that a finite double stands for. -/
def exact (x : Float) : ℚ := value (parts x)

theorem exact_pos (finite : Scalar.isFinite x = true) (above : Scalar.zero < x) : 0 < exact x :=
  value_pos above finite

theorem exact_nonneg (finite : Scalar.isFinite x = true) (nonneg : Scalar.zero ≤ x) :
    0 ≤ exact x :=
  value_nonneg nonneg finite

end Binary64

/-- A job with its measures as rationals. -/
def Job.exact (job : Job Float) : Job ℚ where
  length := Binary64.exact job.length
  memory := Binary64.exact job.memory
  input := Binary64.exact job.input
  output := Binary64.exact job.output
  pes := job.pes
  id := job.id

/-- A node with its measures as rationals. -/
def Node.exact (node : Node Float) : Node ℚ where
  capacity := Binary64.exact node.capacity
  perSecond := Binary64.exact node.perSecond
  perMemory := Binary64.exact node.perMemory
  perTransfer := Binary64.exact node.perTransfer
  id := node.id

/-- A problem with its measures as rationals, with which nothing is rounded any more. -/
def Problem.exact (problem : Problem Float) : Problem ℚ :=
  ⟨problem.jobs.map Job.exact, problem.nodes.map Node.exact⟩

theorem acceptable_exact {x : Float} (fine : acceptable x = true) :
    acceptable (Binary64.exact x) = true := by
  obtain ⟨finite, nonneg⟩ := acceptable_iff.1 fine
  have above := Binary64.exact_nonneg finite nonneg
  rw [← Scalar.zero_rat] at above
  exact acceptable_iff.2 ⟨rfl, above⟩

theorem Job.Acceptable.exact {job : Job Float} (fine : job.Acceptable) : job.exact.Acceptable where
  length := acceptable_exact fine.length
  memory := acceptable_exact fine.memory
  input := acceptable_exact fine.input
  output := acceptable_exact fine.output
  pes_small := fine.pes_small
  pes_nonneg := fine.pes_nonneg

theorem Node.Acceptable.exact {node : Node Float} (fine : node.Acceptable) :
    node.exact.Acceptable where
  capacity := acceptable_exact fine.capacity
  perSecond := acceptable_exact fine.perSecond
  perMemory := acceptable_exact fine.perMemory
  perTransfer := acceptable_exact fine.perTransfer
  some_capacity := by
    obtain ⟨finite, -⟩ := EvoSched.acceptable_iff.1 fine.capacity
    have above := Binary64.exact_pos finite fine.capacity_pos
    rw [Scalar.zero_rat]
    exact not_le.2 above

namespace Problem

variable {α : Type} [Scalar α]

theorem Acceptable.exact {problem : Problem Float} (fine : problem.Acceptable) :
    problem.exact.Acceptable where
  some_job := mt List.map_eq_nil_iff.1 fine.some_job
  some_node := mt List.map_eq_nil_iff.1 fine.some_node
  jobs := List.forall_mem_map.2 fun job member => (fine.jobs job member).exact
  nodes := List.forall_mem_map.2 fun node member => (fine.nodes node member).exact

theorem exists_exact_bounds {problem : Problem Float} (passed : problem.check = .ok ()) :
    ∃ bounds, problem.exact.bounds = .ok bounds ∧ 0 ≤ bounds.minTime ∧ 0 ≤ bounds.minCost := by
  have fine := (check_eq_ok_iff.1 passed).exact
  obtain ⟨bounds, known⟩ := exists_bounds fine
  obtain ⟨-, time, cost⟩ := bounds_eq_ok_iff.1 known
  exact ⟨bounds, known, minTime_nonneg fine time, minCost_nonneg fine cost⟩

section

variable {problem : Problem α} {fault : Fault}

/-- Each of the two bounds checks the problem. -/
theorem bounds_eq : problem.bounds = (do
    let minTime ← problem.timeBound
    let minCost ← problem.costBound
    pure ⟨minTime, minCost⟩) := by
  unfold bounds timeBound costBound
  cases problem.check with
  | error fault => rfl
  | ok _ => rfl

theorem timeBound_of_rejected (rejected : problem.check = .error fault) :
    problem.timeBound = .error fault :=
  result_bind_eq_error.2 (.inl rejected)

theorem costBound_of_rejected (rejected : problem.check = .error fault) :
    problem.costBound = .error fault :=
  result_bind_eq_error.2 (.inl rejected)

theorem bounds_of_rejected (rejected : problem.check = .error fault) :
    problem.bounds = .error fault := by
  rw [bounds_eq]
  exact result_bind_eq_error.2 (.inl (timeBound_of_rejected rejected))

end

end Problem

theorem Search.measure_of_rejected {σ α : Type} [Scalar α] {problem : Problem α} {fault : Fault}
    (rejected : problem.check = .error fault) (s : Search σ α) :
    measure problem s = .error fault s := by
  have failed : (ofResult problem.bounds : SearchM σ α (Bounds α)) s = .error fault s := by
    rw [Problem.bounds_of_rejected rejected]
    rfl
  exact bind_error failed _

/-- The check comes before anything else, the clock included. -/
theorem Run.run_of_rejected {σ α : Type} [Scalar α] [Source σ α] {problem : Problem α}
    {fault : Fault} (rejected : problem.check = .error fault) (plan : Plan α) (clock : Nat → α)
    (s : Search σ α) : run plan problem clock s = .error fault s := by
  have failed : (ofResult problem.check : SearchM σ α Unit) s = .error fault s := by
    rw [rejected]
    rfl
  have stopped : launch plan problem clock s = .error fault s := bind_error failed _
  exact bind_error stopped _

/-- A problem of doubles whose counts are in the range of doubles, which ends beyond `2 ^ 1023`,
passes its check if all its demands are met, and otherwise the check rejects it for the first that
is not. With an accepted problem the time bound divides by a capacity that is not zero, and without
rounding both bounds are there and not negative. With a rejected one the bounds and the run end with
the same rejection, and they leave a search as it was, with the bounds it had. -/
theorem Problem.check_guards (problem : Problem Float)
    (counts : ∀ job ∈ problem.jobs, job.pes.natAbs < Binary64.overflowBound) :
    (problem.check = .ok () ↔ ∀ demand ∈ problem.demands, demand.met) ∧
    (∀ fault, problem.check = .error fault ↔
      ∃ demand, FirstUnmet problem.demands demand ∧ fault = .invalid demand.rejection) ∧
    (problem.check = .ok () →
      (∃ bounds, problem.bounds = .ok bounds ∧
        (problem.totalCapacity == Scalar.zero) = false ∧
        bounds.minTime = problem.totalLength / problem.totalCapacity) ∧
      ∃ bounds, problem.exact.bounds = .ok bounds ∧ 0 ≤ bounds.minTime ∧ 0 ≤ bounds.minCost) ∧
    ∀ fault, problem.check = .error fault →
      problem.timeBound = .error fault ∧ problem.costBound = .error fault ∧
      problem.bounds = .error fault ∧
      ∀ {σ : Type} [Source σ Float] (plan : Plan Float) (clock : Nat → Float)
        (s : Search σ Float),
        Run.run plan problem clock s = .error fault s ∧
          Search.measure problem s = .error fault s := by
  have enforces := enforces_check counts
  refine ⟨enforces.passes, enforces.rejects, fun passed => ⟨?_, exists_exact_bounds passed⟩, ?_⟩
  · obtain ⟨bounds, known⟩ := exists_bounds (check_eq_ok_iff.1 passed)
    obtain ⟨-, time, -⟩ := bounds_eq_ok_iff.1 known
    exact ⟨bounds, known, minTime_eq_ok_iff.1 time⟩
  · intro fault rejected
    refine ⟨timeBound_of_rejected rejected, costBound_of_rejected rejected,
      bounds_of_rejected rejected, fun plan clock s => ?_⟩
    exact ⟨Run.run_of_rejected rejected plan clock s, Search.measure_of_rejected rejected s⟩

/-- A problem with a node that has no capacity and asks an infinite price for transfers. -/
def Problem.priceless : Problem Float where
  jobs := [⟨1, 0, 0, 0, 1, none⟩]
  nodes := [⟨1, 0, 0, 0, none⟩, ⟨0, 0, 0, 1 / 0, some ""⟩]

theorem Problem.check_guards_priceless :
    ∃ demand, FirstUnmet priceless.demands demand ∧
      (Fault.invalid demand.rejection).message =
        "Node 1 has invalid cost_per_bw: inf (must be finite and non-negative)" ∧
      ∀ {σ : Type} [Source σ Float] (plan : Plan Float) (clock : Nat → Float)
        (s : Search σ Float),
        Run.run plan priceless clock s = .error (.invalid demand.rejection) s := by
  have told : priceless.check.mapError Fault.message =
      .error "Node 1 has invalid cost_per_bw: inf (must be finite and non-negative)" := by
    decide +kernel
  obtain ⟨-, rejects, -, ends⟩ := check_guards priceless (by decide +kernel)
  cases rejected : priceless.check with
  | ok _ =>
      rw [rejected] at told
      cases told
  | error fault =>
      rw [rejected] at told
      obtain ⟨demand, first, rfl⟩ := (rejects fault).1 rejected
      obtain ⟨-, -, -, runs⟩ := ends _ rejected
      exact ⟨demand, first, Except.error.inj told, fun plan clock s => (runs plan clock s).1⟩

end EvoSched
