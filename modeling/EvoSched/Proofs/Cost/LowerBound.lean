import Mathlib.Algebra.BigOperators.Fin
import Mathlib.Algebra.Order.BigOperators.Group.Finset
import Mathlib.Algebra.Order.BigOperators.Group.List
import Mathlib.Data.List.Indexes
import Mathlib.Tactic.Linarith
import EvoSched.Proofs.Cost.Outcome

set_option autoImplicit false

namespace EvoSched

theorem assigned_cons {α : Type} [Scalar α] (gene : Int) (genes : List Int) (job : Job α)
    (jobs : List (Job α)) (k : Nat) :
    assigned (gene :: genes) (job :: jobs) k =
      if gene = k then job :: assigned genes jobs k else assigned genes jobs k := by
  unfold assigned
  rw [List.zip_cons_cons, List.filter_cons]
  by_cases same : gene = k
  · rw [if_pos same, if_pos (beq_iff_eq.2 same), List.map_cons]
  · rw [if_neg same, if_neg (mt beq_iff_eq.1 same)]

theorem mem_of_mem_assigned {genes : List Int} {jobs : List (Job ℚ)} {k : Nat} {job : Job ℚ}
    (member : job ∈ assigned genes jobs k) : job ∈ jobs := by
  obtain ⟨placed, inside, rfl⟩ := List.mem_map.1 member
  exact (List.of_mem_zip (List.mem_of_mem_filter inside)).2

/-- A sum over buckets is a sum over all jobs, each with the gene that puts it in its bucket. -/
theorem sum_assigned (f : Int → Job ℚ → ℚ) {count : Nat} {genes : List Int} {jobs : List (Job ℚ)}
    (length : genes.length = jobs.length)
    (named : ∀ gene ∈ genes, 0 ≤ gene ∧ gene < count) :
    ∑ k : Fin count, ((assigned genes jobs k).map (f (k : Nat))).sum =
      ((genes.zip jobs).map fun placed => f placed.1 placed.2).sum := by
  induction genes generalizing jobs with
  | nil => simp [assigned]
  | cons gene rest ih =>
      cases jobs with
      | nil => cases length
      | cons job others =>
          obtain ⟨⟨low, high⟩, inside⟩ := List.forall_mem_cons.1 named
          have bucket : ∀ k : Fin count,
              ((assigned (gene :: rest) (job :: others) k).map (f (k : Nat))).sum =
                (if (⟨gene.toNat, by omega⟩ : Fin count) = k then f gene job else 0) +
                  ((assigned rest others k).map (f (k : Nat))).sum := by
            intro k
            rw [assigned_cons]
            by_cases same : gene = (k : Nat)
            · have index : (⟨gene.toNat, by omega⟩ : Fin count) = k := Fin.ext (by simp [same])
              rw [if_pos same, if_pos index, List.map_cons, List.sum_cons, same]
            · have index : (⟨gene.toNat, by omega⟩ : Fin count) ≠ k := by
                rintro rfl
                simp only at same
                omega
              rw [if_neg same, if_neg index, zero_add]
          simp only [bucket, Finset.sum_add_distrib, Finset.sum_ite_eq, Finset.mem_univ, if_true]
          rw [ih (Nat.succ.inj length) inside, List.zip_cons_cons, List.map_cons, List.sum_cons]

namespace Problem

variable {problem : Problem ℚ} {genes : List Int} {outcome : Outcome ℚ} {bounds : Bounds ℚ}

theorem Acceptable.capacity_pos (fine : problem.Acceptable) {node : Node ℚ}
    (member : node ∈ problem.nodes) : 0 < node.capacity := by
  have positive := (fine.nodes node member).capacity_pos
  rwa [Scalar.zero_rat] at positive

theorem Capable.capacity_ne (capable : problem.Capable) {node : Node ℚ}
    (member : node ∈ problem.nodes) : node.capacity ≠ 0 := by
  have some_capacity := capable node member
  rw [Scalar.zero_rat] at some_capacity
  exact beq_eq_false_iff_ne.1 some_capacity

theorem nonneg_of_acceptable {x : ℚ} (fine : acceptable x = true) : 0 ≤ x := by
  obtain ⟨-, above⟩ := Bool.and_eq_true_iff.1 fine
  rw [Scalar.zero_rat] at above
  simpa using above

theorem Acceptable.length_nonneg (fine : problem.Acceptable) {job : Job ℚ}
    (member : job ∈ problem.jobs) : 0 ≤ job.length :=
  nonneg_of_acceptable (fine.jobs job member).length

theorem totalLength_rat : problem.totalLength = (problem.jobs.map (·.length)).sum :=
  Scalar.sum_rat _

theorem totalCapacity_rat :
    problem.totalCapacity = ∑ k : Fin problem.nodes.length, problem.nodes[k].capacity := by
  rw [totalCapacity, Scalar.sum_rat]
  exact (Fin.sum_univ_fun_getElem problem.nodes (·.capacity)).symm

theorem totalCapacity_pos (fine : problem.Acceptable) : 0 < problem.totalCapacity := by
  have some_node := List.length_pos_iff.2 fine.some_node
  rw [totalCapacity_rat]
  exact Finset.sum_pos (fun k _ => fine.capacity_pos (List.getElem_mem k.isLt))
    ⟨⟨0, some_node⟩, Finset.mem_univ _⟩

/-- How long node `k` works. -/
def timeAt (problem : Problem ℚ) (genes : List Int) (k : Fin problem.nodes.length) : ℚ :=
  problem.nodes[k].time (assigned genes problem.jobs k)

theorem mem_nodeTimes {time : ℚ} :
    time ∈ problem.nodeTimes genes ↔ ∃ k, problem.timeAt genes k = time := by
  unfold nodeTimes
  rw [List.mem_mapIdx]
  exact ⟨fun ⟨k, inside, same⟩ => ⟨⟨k, inside⟩, same⟩, fun ⟨k, same⟩ => ⟨k, k.isLt, same⟩⟩

/-- The whole length is what the nodes work off, each at its capacity. -/
theorem totalLength_eq (capable : problem.Capable) (assigns : problem.Assigns genes) :
    problem.totalLength =
      ∑ k : Fin problem.nodes.length, problem.timeAt genes k * problem.nodes[k].capacity := by
  have worked : ∀ k : Fin problem.nodes.length,
      problem.timeAt genes k * problem.nodes[k].capacity =
        ((assigned genes problem.jobs k).map (·.length)).sum := by
    intro k
    rw [timeAt, Node.time, Scalar.sum_rat]
    exact div_mul_cancel₀ _ (capable.capacity_ne (List.getElem_mem k.isLt))
  simp only [worked]
  rw [sum_assigned (fun _ job => job.length) assigns.length assigns.named, totalLength_rat]
  have jobs : (genes.zip problem.jobs).map (·.2) = problem.jobs :=
    List.map_snd_zip (by rw [assigns.length])
  conv_lhs => rw [← jobs, List.map_map]
  rfl

theorem timeAt_le (yields : problem.Yields genes outcome) (k : Fin problem.nodes.length) :
    problem.timeAt genes k ≤ outcome.makespan :=
  (Scalar.maximum?_rat yields.makespan).2 _ (mem_nodeTimes.2 ⟨k, rfl⟩)

/-- What the nodes would work off if all of them worked for the makespan. -/
theorem worked_le (fine : problem.Acceptable) (yields : problem.Yields genes outcome)
    (k : Fin problem.nodes.length) :
    problem.timeAt genes k * problem.nodes[k].capacity ≤
      outcome.makespan * problem.nodes[k].capacity :=
  mul_le_mul_of_nonneg_right (timeAt_le yields k)
    (fine.capacity_pos (List.getElem_mem k.isLt)).le

theorem minTime_le (fine : problem.Acceptable) (assigns : problem.Assigns genes)
    (yields : problem.Yields genes outcome) (time : problem.minTime = .ok bounds.minTime) :
    bounds.minTime ≤ outcome.makespan := by
  rw [(minTime_eq_ok_iff.1 time).2]
  change problem.totalLength / problem.totalCapacity ≤ outcome.makespan
  rw [div_le_iff₀ (totalCapacity_pos fine), totalLength_eq fine.capable assigns, totalCapacity_rat,
    Finset.mul_sum]
  exact Finset.sum_le_sum fun k _ => worked_le fine yields k

/-- The makespan meets its bound exactly if all nodes work for the same time. -/
theorem minTime_eq_iff (fine : problem.Acceptable) (assigns : problem.Assigns genes)
    (yields : problem.Yields genes outcome) (time : problem.minTime = .ok bounds.minTime) :
    bounds.minTime = outcome.makespan ↔ ∀ t ∈ outcome.nodeTimes, t = bounds.minTime := by
  have found := Scalar.maximum?_rat yields.makespan
  rw [yields.nodeTimes]
  constructor
  · intro meets
    have split : problem.totalLength = outcome.makespan * problem.totalCapacity := by
      rw [← meets, (minTime_eq_ok_iff.1 time).2]
      exact (div_mul_cancel₀ _ (totalCapacity_pos fine).ne').symm
    rw [totalLength_eq fine.capable assigns, totalCapacity_rat, Finset.mul_sum,
      Finset.sum_eq_sum_iff_of_le fun k _ => worked_le fine yields k] at split
    intro t member
    obtain ⟨k, rfl⟩ := mem_nodeTimes.1 member
    rw [meets]
    exact mul_right_cancel₀ (fine.capacity_pos (List.getElem_mem k.isLt)).ne'
      (split k (Finset.mem_univ k))
  · intro level
    exact (level _ found.1).symm

theorem minTime_nonneg (fine : problem.Acceptable) (time : problem.minTime = .ok bounds.minTime) :
    0 ≤ bounds.minTime := by
  rw [(minTime_eq_ok_iff.1 time).2]
  refine div_nonneg ?_ (totalCapacity_pos fine).le
  rw [totalLength_rat]
  exact List.sum_nonneg (List.forall_mem_map.2 fun job member => fine.length_nonneg member)

theorem timeAt_nonneg (fine : problem.Acceptable) (genes : List Int)
    (k : Fin problem.nodes.length) : 0 ≤ problem.timeAt genes k := by
  rw [timeAt, Node.time, Scalar.sum_rat]
  refine div_nonneg (List.sum_nonneg ?_) (fine.capacity_pos (List.getElem_mem k.isLt)).le
  exact List.forall_mem_map.2 fun job member =>
    fine.length_nonneg (mem_of_mem_assigned member)

theorem worked_nonneg (fine : problem.Acceptable) (genes : List Int)
    (k : Fin problem.nodes.length) : 0 ≤ problem.timeAt genes k * problem.nodes[k].capacity :=
  mul_nonneg (timeAt_nonneg fine genes k) (fine.capacity_pos (List.getElem_mem k.isLt)).le

/-- Where the time bound is zero there is no work, and no node takes any time. -/
theorem makespan_eq_zero (fine : problem.Acceptable) (assigns : problem.Assigns genes)
    (yields : problem.Yields genes outcome) (time : problem.minTime = .ok bounds.minTime)
    (none : bounds.minTime = 0) : outcome.makespan = 0 := by
  have empty : problem.totalLength = 0 := by
    have ratio := (minTime_eq_ok_iff.1 time).2
    rw [none] at ratio
    exact (div_eq_zero_iff.1 ratio.symm).resolve_right (totalCapacity_pos fine).ne'
  rw [totalLength_eq fine.capable assigns,
    Finset.sum_eq_zero_iff_of_nonneg fun k _ => worked_nonneg fine genes k] at empty
  obtain ⟨k, same⟩ := mem_nodeTimes.1 (Scalar.maximum?_rat yields.makespan).1
  rw [← same]
  exact (mul_eq_zero.1 (empty k (Finset.mem_univ k))).resolve_right
    (fine.capacity_pos (List.getElem_mem k.isLt)).ne'

/-- What a job costs on the node that a gene names. -/
def chargeAt (problem : Problem ℚ) (gene : Int) (job : Job ℚ) : ℚ :=
  (problem.nodes[gene.toNat]?).elim 0 (·.charge job)

/-- What a job costs on the node that charges it least. -/
def leastCharge (problem : Problem ℚ) (job : Job ℚ) : ℚ :=
  (Scalar.minimum? (problem.nodes.map (·.charge job))).getD 0

theorem totalCost_eq (assigns : problem.Assigns genes) (yields : problem.Yields genes outcome) :
    outcome.totalCost =
      ((genes.zip problem.jobs).map fun placed => problem.chargeAt placed.1 placed.2).sum := by
  rw [yields.totalCost, Scalar.sum_rat, nodeCosts, List.mapIdx_eq_ofFn, List.sum_ofFn,
    ← sum_assigned problem.chargeAt assigns.length assigns.named]
  apply Finset.sum_congr rfl
  intro k _
  rw [Node.cost, Scalar.sum_rat]
  congr 2
  funext job
  rw [chargeAt, Int.toNat_natCast, List.getElem?_eq_getElem k.isLt]
  rfl

theorem minimum?_charges (fine : problem.Acceptable) (job : Job ℚ) :
    Scalar.minimum? (problem.nodes.map (·.charge job)) = some (problem.leastCharge job) := by
  have some_charge : problem.nodes.map (·.charge job) ≠ [] := by simpa using fine.some_node
  obtain ⟨least, found⟩ := Scalar.exists_minimum? some_charge
  rw [leastCharge, found]
  rfl

theorem minCost_rat (fine : problem.Acceptable) (cost : problem.minCost = .ok bounds.minCost) :
    bounds.minCost = (problem.jobs.map problem.leastCharge).sum := by
  have total := (minCost_eq_ok_iff fine.capable).2 ⟨problem.jobs.map problem.leastCharge,
    List.forall₂_map_right_iff.2 (List.forall₂_same.2 fun job _ => minimum?_charges fine job), rfl⟩
  rw [cost, Scalar.sum_rat] at total
  exact Except.ok.inj total

/-- The gene names a node that charges the job no more than any other. -/
def Cheapest {α : Type} [Scalar α] (problem : Problem α) (gene : Int) (job : Job α) : Prop :=
  ∃ host, nth problem.nodes gene = .ok host ∧
    ∀ node ∈ problem.nodes, host.charge job ≤ node.charge job

theorem leastCharge_spec (fine : problem.Acceptable) (job : Job ℚ) :
    (∃ node ∈ problem.nodes, problem.leastCharge job = node.charge job) ∧
      ∀ node ∈ problem.nodes, problem.leastCharge job ≤ node.charge job := by
  obtain ⟨member, below⟩ := Scalar.minimum?_rat (minimum?_charges fine job)
  obtain ⟨node, inside, same⟩ := List.mem_map.1 member
  exact ⟨⟨node, inside, same.symm⟩, List.forall_mem_map.1 below⟩

theorem leastCharge_nonneg (fine : problem.Acceptable) {job : Job ℚ} (member : job ∈ problem.jobs) :
    0 ≤ problem.leastCharge job := by
  obtain ⟨⟨node, inside, same⟩, -⟩ := leastCharge_spec fine job
  have host := fine.nodes node inside
  have load := fine.jobs job member
  rw [same]
  have processing : 0 ≤ node.perSecond * job.length / node.capacity :=
    div_nonneg (mul_nonneg (nonneg_of_acceptable host.perSecond) (nonneg_of_acceptable load.length))
      (fine.capacity_pos inside).le
  have memory : 0 ≤ node.perMemory * job.memory :=
    mul_nonneg (nonneg_of_acceptable host.perMemory) (nonneg_of_acceptable load.memory)
  have transfer : 0 ≤ node.perTransfer * (job.input + job.output) :=
    mul_nonneg (nonneg_of_acceptable host.perTransfer)
      (add_nonneg (nonneg_of_acceptable load.input) (nonneg_of_acceptable load.output))
  exact add_nonneg (add_nonneg processing memory) transfer

/-- The node that a gene of an assignment names. -/
theorem exists_host (assigns : problem.Assigns genes) {placed : Int × Job ℚ}
    (member : placed ∈ genes.zip problem.jobs) :
    ∃ host ∈ problem.nodes, nth problem.nodes placed.1 = .ok host ∧
      problem.chargeAt placed.1 placed.2 = host.charge placed.2 := by
  obtain ⟨low, high⟩ := assigns.named placed.1 (List.of_mem_zip member).1
  obtain ⟨k, same⟩ := Int.eq_ofNat_of_zero_le low
  have inside : k < problem.nodes.length := by omega
  refine ⟨problem.nodes[k], List.getElem_mem inside, ?_, ?_⟩
  · rw [same]
    exact nth_natCast _ k inside
  · rw [chargeAt, same]
    change (problem.nodes[k]?).elim 0 _ = _
    rw [List.getElem?_eq_getElem inside]
    rfl

theorem leastCharge_le (fine : problem.Acceptable) (assigns : problem.Assigns genes)
    {placed : Int × Job ℚ} (member : placed ∈ genes.zip problem.jobs) :
    problem.leastCharge placed.2 ≤ problem.chargeAt placed.1 placed.2 := by
  obtain ⟨host, inside, -, same⟩ := exists_host assigns member
  rw [same]
  exact (leastCharge_spec fine placed.2).2 host inside

theorem minCost_eq (fine : problem.Acceptable) (assigns : problem.Assigns genes)
    (cost : problem.minCost = .ok bounds.minCost) :
    bounds.minCost =
      ((genes.zip problem.jobs).map fun placed => problem.leastCharge placed.2).sum := by
  have jobs : (genes.zip problem.jobs).map (·.2) = problem.jobs :=
    List.map_snd_zip (by rw [assigns.length])
  rw [minCost_rat fine cost]
  conv_lhs => rw [← jobs, List.map_map]
  rfl

theorem minCost_le (fine : problem.Acceptable) (assigns : problem.Assigns genes)
    (yields : problem.Yields genes outcome) (cost : problem.minCost = .ok bounds.minCost) :
    bounds.minCost ≤ outcome.totalCost := by
  rw [minCost_eq fine assigns cost, totalCost_eq assigns yields]
  exact List.sum_le_sum fun placed member => leastCharge_le fine assigns member

theorem cheapest_iff (fine : problem.Acceptable) (assigns : problem.Assigns genes)
    {placed : Int × Job ℚ} (member : placed ∈ genes.zip problem.jobs) :
    problem.Cheapest placed.1 placed.2 ↔
      problem.chargeAt placed.1 placed.2 ≤ problem.leastCharge placed.2 := by
  obtain ⟨host, inside, found, same⟩ := exists_host assigns member
  obtain ⟨⟨node, among, least⟩, below⟩ := leastCharge_spec fine placed.2
  rw [same]
  constructor
  · rintro ⟨other, named, cheap⟩
    obtain rfl : other = host := Except.ok.inj (named.symm.trans found)
    rw [least]
    exact cheap node among
  · intro cheap
    exact ⟨host, found, fun node among => cheap.trans (below node among)⟩

/-- The cost meets its bound exactly if every job is on a node that charges it least. -/
theorem minCost_eq_iff (fine : problem.Acceptable) (assigns : problem.Assigns genes)
    (yields : problem.Yields genes outcome) (cost : problem.minCost = .ok bounds.minCost) :
    bounds.minCost = outcome.totalCost ↔
      ∀ placed ∈ genes.zip problem.jobs, problem.Cheapest placed.1 placed.2 := by
  have each : ∀ placed ∈ genes.zip problem.jobs,
      problem.leastCharge placed.2 ≤ problem.chargeAt placed.1 placed.2 :=
    fun placed member => leastCharge_le fine assigns member
  rw [minCost_eq fine assigns cost, totalCost_eq assigns yields]
  constructor
  · intro meets placed member
    rw [cheapest_iff fine assigns member]
    by_contra dear
    exact (List.sum_lt_sum _ _ each ⟨placed, member, not_le.1 dear⟩).ne meets
  · intro cheap
    refine le_antisymm (List.sum_le_sum each) (List.sum_le_sum fun placed member => ?_)
    exact (cheapest_iff fine assigns member).1 (cheap placed member)

theorem minCost_nonneg (fine : problem.Acceptable) (cost : problem.minCost = .ok bounds.minCost) :
    0 ≤ bounds.minCost := by
  rw [minCost_rat fine cost]
  exact List.sum_nonneg (List.forall_mem_map.2 fun job member => leastCharge_nonneg fine member)

end Problem

end EvoSched
