import EvoSched.Proofs.Cost.Fitness

set_option autoImplicit false

namespace EvoSched

variable {α : Type} [Scalar α]

/-- Each job joins the bucket that its gene names, behind those that are there. The first gene
without a bucket ends the pass. -/
def distribute {α : Type} : Nat → List (List (Job α)) → List (Int × Job α) →
    Except Fault (List (List (Job α)))
  | _, buckets, [] => .ok buckets
  | position, buckets, (gene, job) :: rest =>
    if 0 ≤ gene && gene < buckets.length then
      distribute (position + 1) (buckets.modify gene.toNat (· ++ [job])) rest
    else .error (.unknownNode position gene)

/-- Once a job has joined its bucket, the other jobs fill the buckets up to what all jobs make of
them. -/
theorem assigned_modify {gene : Int} (low : 0 ≤ gene) (genes : List Int) (job : Job α)
    (jobs : List (Job α)) (buckets : List (List (Job α))) :
    ((buckets.modify gene.toNat (· ++ [job])).mapIdx fun k bucket =>
        bucket ++ assigned genes jobs k) =
      buckets.mapIdx fun k bucket => bucket ++ assigned (gene :: genes) (job :: jobs) k := by
  apply List.ext_getElem
  · simp
  · intro k before after
    simp only [List.getElem_mapIdx, List.getElem_modify, assigned_cons]
    by_cases named : gene.toNat = k
    · have same : gene = k := by omega
      rw [if_pos named, if_pos same, List.append_assoc]
      rfl
    · have other : gene ≠ k := by omega
      rw [if_neg named, if_neg other]

/-- The pass fails at the first gene without a bucket; else each bucket has what its place is
assigned, behind what it held before. -/
theorem distribute_eq {genes : List Int} {jobs : List (Job α)}
    (length : genes.length = jobs.length) (position : Nat) (buckets : List (List (Job α))) :
    distribute position buckets (genes.zip jobs) =
      match firstFailing (fun gene => 0 ≤ gene && gene < buckets.length) position genes with
      | some (stray, gene) => .error (.unknownNode stray gene)
      | none => .ok (buckets.mapIdx fun k bucket => bucket ++ assigned genes jobs k) := by
  induction genes generalizing jobs position buckets with
  | nil =>
      have kept : (buckets.mapIdx fun k bucket => bucket ++ assigned [] jobs k) = buckets := by
        apply List.ext_getElem <;> simp [assigned]
      rw [firstFailing, kept]
      rfl
  | cons gene genes ih =>
      cases jobs with
      | nil => cases length
      | cons job jobs =>
          rw [List.zip_cons_cons, distribute, firstFailing]
          split
          · rename_i named
            have low : 0 ≤ gene := by
              simp only [Bool.and_eq_true, decide_eq_true_eq] at named
              exact named.1
            rw [ih (Nat.succ.inj length), List.length_modify, assigned_modify low]
          · rfl

namespace Problem

/-- What the nodes make of the buckets that one pass over the genes has filled. -/
def onePass (problem : Problem α) (genes : List Int) : Except Fault (Outcome α) :=
  if genes.length ≠ problem.jobs.length then
    .error (.lengthMismatch genes.length problem.jobs.length)
  else do
    let buckets ← distribute 0 (problem.nodes.map fun _ => []) (genes.zip problem.jobs)
    if problem.nodes.any fun node => node.capacity == Scalar.zero then .error .divisionByZero
    else
      let times := List.zipWith Node.time problem.nodes buckets
      let costs := List.zipWith Node.cost problem.nodes buckets
      match Scalar.maximum? times with
      | none => .error .emptyMaximum
      | some makespan => .ok ⟨makespan, Scalar.sum costs, times, costs⟩

theorem outcome_eq_onePass (problem : Problem α) (genes : List Int) :
    problem.outcome genes = problem.onePass genes := by
  unfold Problem.outcome onePass
  split
  · rfl
  · rename_i same
    have handed : ∀ f : Node α → List (Job α) → α,
        List.zipWith f problem.nodes
            ((problem.nodes.map fun _ => []).mapIdx fun k bucket =>
              bucket ++ assigned genes problem.jobs k) =
          problem.nodes.mapIdx fun k node => f node (assigned genes problem.jobs k) := by
      intro f
      apply List.ext_getElem <;> simp
    rw [distribute_eq (not_not.1 same), List.length_map]
    cases firstFailing (fun gene => 0 ≤ gene && gene < problem.nodes.length) 0 genes with
    | some stray => rfl
    | none =>
        simp only [nodeTimes, nodeCosts, ← handed]
        rfl

end Problem

/-- The total of a measure over the jobs whose gene is `k`, job after job, from zero on. -/
def tally (measure : Job α → α) (genes : List Int) (jobs : List (Job α)) (k : Nat) : α :=
  (genes.zip jobs).foldl
    (fun total placed => if placed.1 = (k : Int) then total + measure placed.2 else total)
    Scalar.zero

theorem sum_map_assigned (measure : Job α → α) (genes : List Int) (jobs : List (Job α)) (k : Nat) :
    Scalar.sum ((assigned genes jobs k).map measure) = tally measure genes jobs k := by
  unfold Scalar.sum assigned tally
  rw [List.map_map, List.foldl_map, List.foldl_filter]
  simp only [Function.comp_apply, beq_iff_eq]

namespace Problem

/-- What an outcome says of each node, and how the whole follows from the nodes. -/
structure Tallies (problem : Problem α) (genes : List Int) (outcome : Outcome α) : Prop where
  length_times : outcome.nodeTimes.length = problem.nodes.length
  length_costs : outcome.nodeCosts.length = problem.nodes.length
  time (k : Nat) (node : Node α) : problem.nodes[k]? = some node →
    outcome.nodeTimes[k]? = some (tally (·.length) genes problem.jobs k / node.capacity)
  cost (k : Nat) (node : Node α) : problem.nodes[k]? = some node →
    outcome.nodeCosts[k]? = some (tally node.charge genes problem.jobs k)
  makespan : Scalar.maximum? outcome.nodeTimes = some outcome.makespan
  totalCost : outcome.totalCost = Scalar.sum outcome.nodeCosts

variable {problem : Problem α} {genes : List Int} {outcome : Outcome α}

theorem Yields.tallies (yields : problem.Yields genes outcome) : problem.Tallies genes outcome where
  length_times := by rw [yields.nodeTimes, Problem.nodeTimes, List.length_mapIdx]
  length_costs := by rw [yields.nodeCosts, Problem.nodeCosts, List.length_mapIdx]
  time k node found := by
    rw [yields.nodeTimes, Problem.nodeTimes, List.getElem?_mapIdx, found, ← sum_map_assigned]
    rfl
  cost k node found := by
    rw [yields.nodeCosts, Problem.nodeCosts, List.getElem?_mapIdx, found, ← sum_map_assigned]
    rfl
  makespan := by
    rw [yields.nodeTimes]
    exact yields.makespan
  totalCost := by rw [yields.totalCost, yields.nodeCosts]

/-- The gene at `position` names no node, and is the first that does not. -/
structure Stray {α : Type} (problem : Problem α) (genes : List Int) (position : Nat) (gene : Int) :
    Prop where
  found : genes[position]? = some gene
  outside : ¬ (0 ≤ gene ∧ gene < problem.nodes.length)
  earlier : ∀ named ∈ genes.take position, 0 ≤ named ∧ named < problem.nodes.length

omit [Scalar α] in
theorem firstFailing_eq_some_iff_stray {position : Nat} {gene : Int} :
    firstFailing (fun gene => 0 ≤ gene && gene < problem.nodes.length) 0 genes =
        some (position, gene) ↔ problem.Stray genes position gene := by
  rw [firstFailing_eq_some_iff]
  constructor
  · rintro ⟨k, same, found, outside, earlier⟩
    obtain rfl : position = k := same.trans (Nat.zero_add k)
    exact ⟨found, by simpa using outside, by simpa using earlier⟩
  · intro stray
    exact ⟨position, (Nat.zero_add position).symm, stray.found, by simpa using stray.outside,
      by simpa using stray.earlier⟩

theorem outcome_of_length_ne (mismatch : genes.length ≠ problem.jobs.length) :
    problem.outcome genes = .error (.lengthMismatch genes.length problem.jobs.length) :=
  if_pos mismatch

theorem outcome_of_stray (length : genes.length = problem.jobs.length) {position : Nat} {gene : Int}
    (stray : problem.Stray genes position gene) :
    problem.outcome genes = .error (.unknownNode position gene) := by
  rw [Problem.outcome, if_neg (not_not.2 length), firstFailing_eq_some_iff_stray.2 stray]

omit [Scalar α] in
theorem mismatch_or_stray_or_assigns (problem : Problem α) (genes : List Int) :
    genes.length ≠ problem.jobs.length ∨
      (genes.length = problem.jobs.length ∧ ∃ position gene, problem.Stray genes position gene) ∨
      problem.Assigns genes := by
  by_cases length : genes.length = problem.jobs.length
  · right
    cases failing : firstFailing (fun gene => 0 ≤ gene && gene < problem.nodes.length) 0 genes with
    | some stray =>
        exact .inl ⟨length, stray.1, stray.2, firstFailing_eq_some_iff_stray.1 failing⟩
    | none =>
        have named := firstFailing_eq_none_iff.1 failing
        exact .inr ⟨length, by simpa using named⟩
  · exact .inl length

/-- With nodes that can all work, nothing but the length or a stray gene is refused. -/
theorem outcome_eq_error (some_node : problem.nodes ≠ []) (capable : problem.Capable)
    {fault : Fault} (failed : problem.outcome genes = .error fault) :
    (genes.length ≠ problem.jobs.length ∧
      fault = .lengthMismatch genes.length problem.jobs.length) ∨
    (genes.length = problem.jobs.length ∧
      ∃ position gene, problem.Stray genes position gene ∧ fault = .unknownNode position gene) := by
  rcases problem.mismatch_or_stray_or_assigns genes with
    mismatch | ⟨length, position, gene, stray⟩ | assigns
  · rw [outcome_of_length_ne mismatch] at failed
    exact .inl ⟨mismatch, (Except.error.inj failed).symm⟩
  · rw [outcome_of_stray length stray] at failed
    exact .inr ⟨length, position, gene, stray, (Except.error.inj failed).symm⟩
  · obtain ⟨outcome, success⟩ := exists_outcome_of_capable some_node capable assigns
    rw [success] at failed
    cases failed

/-- What becomes of a list of genes: it is refused for its length, or for its first gene that names
no node, or it has an outcome. -/
structure Settles (problem : Problem α) (genes : List Int) : Prop where
  mismatch (given wanted : Nat) : problem.outcome genes = .error (.lengthMismatch given wanted) ↔
    genes.length ≠ problem.jobs.length ∧ given = genes.length ∧ wanted = problem.jobs.length
  stray (position : Nat) (gene : Int) :
    problem.outcome genes = .error (.unknownNode position gene) ↔
      genes.length = problem.jobs.length ∧ problem.Stray genes position gene
  tallied : problem.Assigns genes →
    ∃ outcome, problem.outcome genes = .ok outcome ∧ problem.Tallies genes outcome
  cases : genes.length ≠ problem.jobs.length ∨
    (genes.length = problem.jobs.length ∧ ∃ position gene, problem.Stray genes position gene) ∨
    problem.Assigns genes

theorem settles (some_node : problem.nodes ≠ []) (capable : problem.Capable) (genes : List Int) :
    problem.Settles genes where
  mismatch given wanted := by
    constructor
    · intro failed
      rcases outcome_eq_error some_node capable failed with
        ⟨mismatch, same⟩ | ⟨-, _, _, -, same⟩
      · cases same
        exact ⟨mismatch, rfl, rfl⟩
      · cases same
    · rintro ⟨mismatch, rfl, rfl⟩
      exact outcome_of_length_ne mismatch
  stray position gene := by
    constructor
    · intro failed
      rcases outcome_eq_error some_node capable failed with
        ⟨-, same⟩ | ⟨length, _, _, stray, same⟩
      · cases same
      · cases same
        exact ⟨length, stray⟩
    · rintro ⟨length, stray⟩
      exact outcome_of_stray length stray
  tallied assigns := by
    obtain ⟨outcome, success⟩ := exists_outcome_of_capable some_node capable assigns
    exact ⟨outcome, success, (outcome_eq_ok_iff.1 success).2.2.tallies⟩
  cases := problem.mismatch_or_stray_or_assigns genes

/-- Without rounding, what the nodes work off is the length of all jobs. -/
theorem worked_eq {problem : Problem ℚ} {outcome : Outcome ℚ} (capable : problem.Capable)
    (assigns : problem.Assigns genes) (yields : problem.Yields genes outcome) :
    (List.zipWith (fun time node => time * node.capacity) outcome.nodeTimes problem.nodes).sum =
      (problem.jobs.map (·.length)).sum := by
  have each : List.zipWith (fun time node => time * node.capacity) outcome.nodeTimes
      problem.nodes =
        List.ofFn fun k : Fin problem.nodes.length =>
          problem.timeAt genes k * problem.nodes[k].capacity := by
    rw [yields.nodeTimes, nodeTimes]
    apply List.ext_getElem <;> simp [timeAt]
  rw [each, List.sum_ofFn, ← totalLength_eq capable assigns, totalLength_rat]

/-- An outcome takes one pass over the genes. With nodes that can all work, a list of genes is
refused for its length alone, or for its first gene that names no node, and else has an outcome with
the running totals of each node. Without rounding, these charge every job once, on the node that its
gene names. -/
theorem outcome_charges_each_job_once :
    (∀ {α : Type} [Scalar α] (problem : Problem α) (genes : List Int),
      problem.outcome genes = problem.onePass genes ∧
        (problem.nodes ≠ [] → problem.Capable → problem.Settles genes)) ∧
    ∀ (problem : Problem ℚ) (genes : List Int) (outcome : Outcome ℚ),
      problem.outcome genes = .ok outcome →
        (List.zipWith (fun time node => time * node.capacity) outcome.nodeTimes problem.nodes).sum =
          (problem.jobs.map (·.length)).sum ∧
        outcome.totalCost =
          ((genes.zip problem.jobs).map fun placed => problem.chargeAt placed.1 placed.2).sum := by
  constructor
  · intro α _ problem genes
    exact ⟨outcome_eq_onePass problem genes,
      fun some_node capable => settles some_node capable genes⟩
  · intro problem genes outcome success
    obtain ⟨assigns, capable, yields⟩ := outcome_eq_ok_iff.1 success
    exact ⟨worked_eq capable assigns yields, totalCost_eq assigns yields⟩

theorem outcome_charges_each_job_once_pair :
    pair.outcome [1, -1] = .error (.unknownNode 1 (-1)) ∧
    ∃ outcome, pair.outcome [0, 0] = .ok outcome ∧ pair.Tallies [0, 0] outcome ∧
      (List.zipWith (fun time node => time * node.capacity) outcome.nodeTimes pair.nodes).sum =
        (pair.jobs.map (·.length)).sum := by
  have some_node : pair.nodes ≠ [] := List.cons_ne_nil _ _
  have fine : pair.Acceptable := check_eq_ok_iff.1 (by decide +kernel)
  have stray : pair.Stray [1, -1] 1 (-1) := ⟨rfl, by decide, by decide⟩
  obtain ⟨settled, charged⟩ := outcome_charges_each_job_once
  have refused := ((settled pair [1, -1]).2 some_node fine.capable).stray 1 (-1)
  obtain ⟨outcome, success, tallies⟩ := ((settled pair [0, 0]).2 some_node fine.capable).tallied
    (pair_assigns (by decide) (by decide))
  exact ⟨refused.2 ⟨rfl, stray⟩, outcome, success, tallies, (charged pair [0, 0] outcome success).1⟩

end Problem

end EvoSched
