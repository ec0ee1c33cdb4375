import EvoSched.Problem
import EvoSched.Proofs.Computation
import EvoSched.Proofs.Scalar.Lawful
import EvoSched.Proofs.Scalar.Order

set_option autoImplicit false

namespace EvoSched

/-- What has to hold of a problem, and the rejection of a problem of which it does not. -/
structure Demand where
  met : Prop
  rejection : Invalid

/-- The first demand that is not met. -/
inductive FirstUnmet : List Demand → Demand → Prop where
  | here {demand : Demand} {rest : List Demand} (unmet : ¬ demand.met) :
      FirstUnmet (demand :: rest) demand
  | later {earlier demand : Demand} {rest : List Demand} (met : earlier.met)
      (first : FirstUnmet rest demand) : FirstUnmet (earlier :: rest) demand

theorem firstUnmet_cons_iff {earlier demand : Demand} {rest : List Demand} :
    FirstUnmet (earlier :: rest) demand ↔
      ¬ earlier.met ∧ demand = earlier ∨ earlier.met ∧ FirstUnmet rest demand := by
  constructor
  · intro first
    cases first with
    | here unmet => exact .inl ⟨unmet, rfl⟩
    | later met first => exact .inr ⟨met, first⟩
  · rintro (⟨unmet, rfl⟩ | ⟨met, first⟩)
    · exact .here unmet
    · exact .later met first

theorem firstUnmet_append_iff {demands others : List Demand} {demand : Demand} :
    FirstUnmet (demands ++ others) demand ↔
      FirstUnmet demands demand ∨
        (∀ earlier ∈ demands, earlier.met) ∧ FirstUnmet others demand := by
  induction demands with
  | nil =>
      constructor
      · exact fun first => .inr ⟨nofun, first⟩
      · rintro (absurd | ⟨-, first⟩)
        · cases absurd
        · exact first
  | cons earlier rest ih =>
      rw [List.cons_append, firstUnmet_cons_iff, firstUnmet_cons_iff, ih, List.forall_mem_cons]
      tauto

/-- A check passes if all demands are met, and otherwise rejects for the first that is not. -/
structure Enforces (result : Except Fault Unit) (demands : List Demand) : Prop where
  passes : result = .ok () ↔ ∀ demand ∈ demands, demand.met
  rejects (fault : Fault) : result = .error fault ↔
    ∃ demand, FirstUnmet demands demand ∧ fault = .invalid demand.rejection

namespace Enforces

variable {result rest : Except Fault Unit} {demands others : List Demand} {met : Prop}
  {rejection : Invalid}

theorem nil : Enforces (.ok ()) [] where
  passes := ⟨fun _ => nofun, fun _ => rfl⟩
  rejects fault := ⟨nofun, fun ⟨_, first, _⟩ => by cases first⟩

/-- A demand that stands before all others. -/
theorem guard {refused : Prop} [Decidable refused] (same : ¬ refused ↔ met)
    (later : Enforces rest demands) :
    Enforces (if refused then .error (.invalid rejection) else rest)
      (⟨met, rejection⟩ :: demands) := by
  by_cases closed : refused
  · have unmet : ¬ met := fun met => same.2 met closed
    rw [if_pos closed]
    constructor
    · exact ⟨nofun, fun all => absurd (all _ List.mem_cons_self) unmet⟩
    · intro fault
      simp only [firstUnmet_cons_iff, unmet, not_false_eq_true, true_and, false_and, or_false,
        exists_eq_left, Except.error.injEq]
      exact eq_comm
  · have met := same.1 closed
    rw [if_neg closed]
    constructor
    · rw [later.passes, List.forall_mem_cons]
      exact (and_iff_right met).symm
    · intro fault
      rw [later.rejects]
      simp only [firstUnmet_cons_iff, met, not_true_eq_false, false_and, false_or, true_and]

/-- Of two checks, the second is made where all demands of the first are met. -/
theorem append (first : Enforces result demands)
    (later : (∀ demand ∈ demands, demand.met) → Enforces rest others) :
    Enforces (result >>= fun _ => rest) (demands ++ others) := by
  constructor
  · rw [result_then_eq_ok, List.forall_mem_append, first.passes]
    exact and_congr_right fun met => (later met).passes
  · intro fault
    simp only [result_bind_eq_error, first.rejects, firstUnmet_append_iff]
    constructor
    · rintro (⟨demand, unmet, same⟩ | ⟨_, passed, failed⟩)
      · exact ⟨demand, .inl unmet, same⟩
      · have met := first.passes.1 passed
        obtain ⟨demand, unmet, same⟩ := ((later met).rejects fault).1 failed
        exact ⟨demand, .inr ⟨met, unmet⟩, same⟩
    · rintro ⟨demand, unmet | ⟨met, unmet⟩, same⟩
      · exact .inl ⟨demand, unmet, same⟩
      · exact .inr ⟨(), first.passes.2 met, ((later met).rejects fault).2 ⟨demand, unmet, same⟩⟩

/-- A check of one demand comes before all others. -/
theorem cons {demand : Demand} (first : Enforces result [demand])
    (later : demand.met → Enforces rest others) :
    Enforces (result >>= fun _ => rest) (demand :: others) :=
  first.append fun met => later (met demand List.mem_cons_self)

end Enforces

variable {α : Type} [Scalar α]

/-- A measure is finite and not negative. -/
def Demand.measure (item label field : String) (x : α) : Demand :=
  ⟨Scalar.isFinite x = true ∧ Scalar.zero ≤ x, .badField item label field (Scalar.text x)⟩

/-- What is demanded of the job at a position, which names a job without an id. -/
def Job.demands (job : Job α) (index : Nat) : List Demand :=
  let label := labelOr (toString index) job.id
  [.measure "Job" label "length" job.length, .measure "Job" label "mem_required" job.memory,
    .measure "Job" label "input_size" job.input, .measure "Job" label "output_size" job.output,
    ⟨0 ≤ job.pes, .badField "Job" label "pes" (toString job.pes)⟩]

/-- What is demanded of the node at a position. That it has some capacity comes last. -/
def Node.demands (node : Node α) (index : Nat) : List Demand :=
  let label := labelOr (toString index) node.id
  [.measure "Node" label "capacity" node.capacity,
    .measure "Node" label "cost_per_second" node.perSecond,
    .measure "Node" label "cost_per_mem" node.perMemory,
    .measure "Node" label "cost_per_bw" node.perTransfer,
    ⟨Scalar.zero < node.capacity, .noCapacity label (Scalar.text node.capacity)⟩]

/-- What is demanded of a problem: that there are jobs and nodes, then what is demanded of each job
and of each node, in their order. -/
def Problem.demands (problem : Problem α) : List Demand :=
  ⟨problem.jobs ≠ [], .noJobs⟩ :: ⟨problem.nodes ≠ [], .noNodes⟩ ::
    ((problem.jobs.mapIdx fun index job => job.demands index).flatten ++
      (problem.nodes.mapIdx fun index node => node.demands index).flatten)

theorem enforces_checkEach {β : Type} {check : β → Nat → Except Fault Unit}
    {demands : β → Nat → List Demand} {items : List β} {index : Nat}
    (each : ∀ item ∈ items, ∀ position, Enforces (check item position) (demands item position)) :
    Enforces (checkEach check index items)
      (items.mapIdx fun position item => demands item (index + position)).flatten := by
  induction items generalizing index with
  | nil => exact .nil
  | cons item rest ih =>
      obtain ⟨first, others⟩ := List.forall_mem_cons.1 each
      have shifted : (fun position item => demands item (index + (position + 1))) =
          fun position item => demands item (index + 1 + position) := by
        funext position item
        rw [Nat.add_right_comm]
        rfl
      rw [List.mapIdx_cons, List.flatten_cons]
      rw [shifted]
      exact (first index).append fun _ => ih others

variable [LawfulScalar α] [OrderedScalar α]

theorem acceptable_iff {x : α} :
    acceptable x = true ↔ Scalar.isFinite x = true ∧ Scalar.zero ≤ x := by
  unfold acceptable
  rw [Bool.and_eq_true]
  apply and_congr_right
  intro finite
  -- A finite scalar is above zero or not, so that it compares with zero.
  have compares : (x == x) = true := by
    by_cases below : x ≤ Scalar.zero
    · exact (OrderedScalar.beq_self_of_le below).1
    · have above := LawfulScalar.le_of_pos (LawfulScalar.pos_of_not_le finite below)
      exact (OrderedScalar.beq_self_of_le above).2
  have zero : ((Scalar.zero : α) == Scalar.zero) = true :=
    Scalar.beq_self_iff.2 LawfulScalar.zero_le_zero
  rw [← Scalar.not_lt_iff compares zero]
  simp

theorem enforces_checkField (item label field : String) (x : α) :
    Enforces (checkField item label field x) [.measure item label field x] := by
  unfold checkField
  rw [← ite_not]
  exact .guard (not_not.trans acceptable_iff) .nil

/-- A count that has a double is only demanded not to be negative. -/
theorem Job.enforces_check (job : Job α) (index : Nat)
    (small : job.pes.natAbs < Binary64.overflowBound) :
    Enforces (job.check index) (job.demands index) := by
  unfold Job.check Job.demands
  dsimp only
  rw [if_neg (Nat.not_le_of_lt small)]
  refine (enforces_checkField _ _ _ job.length).cons fun _ => ?_
  refine (enforces_checkField _ _ _ job.memory).cons fun _ => ?_
  refine (enforces_checkField _ _ _ job.input).cons fun _ => ?_
  refine (enforces_checkField _ _ _ job.output).cons fun _ => ?_
  exact .guard Int.not_lt .nil

theorem Node.enforces_check (node : Node α) (index : Nat) :
    Enforces (node.check index) (node.demands index) := by
  unfold Node.check Node.demands
  refine (enforces_checkField _ _ _ node.capacity).cons fun measured => ?_
  refine (enforces_checkField _ _ _ node.perSecond).cons fun _ => ?_
  refine (enforces_checkField _ _ _ node.perMemory).cons fun _ => ?_
  refine (enforces_checkField _ _ _ node.perTransfer).cons fun _ => ?_
  have some_capacity : ¬ node.capacity ≤ Scalar.zero ↔ Scalar.zero < node.capacity := by
    rw [OrderedScalar.lt_iff]
    exact (and_iff_right measured.2).symm
  exact .guard some_capacity .nil

/-- The check of a problem ends as its demands have it. -/
theorem Problem.enforces_check {problem : Problem α}
    (counts : ∀ job ∈ problem.jobs, job.pes.natAbs < Binary64.overflowBound) :
    Enforces problem.check problem.demands := by
  have jobs : Enforces (checkEach Job.check 0 problem.jobs)
      (problem.jobs.mapIdx fun index job => job.demands (0 + index)).flatten :=
    enforces_checkEach fun job member index => job.enforces_check index (counts job member)
  have nodes : Enforces (checkEach Node.check 0 problem.nodes)
      (problem.nodes.mapIdx fun index node => node.demands (0 + index)).flatten :=
    enforces_checkEach fun node _ index => node.enforces_check index
  simp only [Nat.zero_add] at jobs nodes
  unfold Problem.check
  refine .guard (not_congr List.isEmpty_iff) (.guard (not_congr List.isEmpty_iff) ?_)
  exact jobs.append fun _ => nodes

end EvoSched
