import Mathlib.Algebra.BigOperators.Group.List.Basic
import Mathlib.Data.List.FinRange
import Mathlib.Logic.Equiv.Fin.Rotate
import EvoSched.Candidate
import EvoSched.Proofs.Cost.LowerBound

set_option autoImplicit false

namespace EvoSched

section

variable {β γ : Type} {n : Nat} (order : Equiv.Perm (Fin n)) {xs : List β}

/-- The list in which element `k` of another list of `n` elements has place `order k`. -/
def permuted (xs : List β) : List β :=
  (List.finRange n).filterMap fun k => xs[(order.symm k : Nat)]?

theorem permuted_eq_ofFn (length : xs.length = n) :
    permuted order xs = List.ofFn fun k => xs.get (Fin.cast length.symm (order.symm k)) := by
  subst length
  have found : (fun k => xs[(order.symm k : Nat)]?) = some ∘ fun k => xs.get (order.symm k) := by
    funext k
    exact List.getElem?_eq_getElem (order.symm k).isLt
  rw [permuted, found, List.filterMap_eq_map, List.ofFn_eq_map]
  rfl

theorem length_permuted (length : xs.length = n) : (permuted order xs).length = n := by
  rw [permuted_eq_ofFn order length, List.length_ofFn]

theorem getElem?_permuted (length : xs.length = n) (k : Fin n) :
    (permuted order xs)[(order k : Nat)]? = xs[(k : Nat)]? := by
  subst length
  rw [permuted_eq_ofFn order rfl, List.getElem?_ofFn, dif_pos (order k).isLt,
    List.getElem?_eq_getElem k.isLt]
  simp

/-- A list is known by what stands in the new places. -/
theorem eq_permuted {ys : List β} (length : xs.length = n) (length' : ys.length = n)
    (each : ∀ k : Fin n, ys[(order k : Nat)]? = xs[(k : Nat)]?) : ys = permuted order xs := by
  apply List.ext_getElem?
  intro place
  by_cases inside : place < n
  · have there := each (order.symm ⟨place, inside⟩)
    have here := getElem?_permuted order length (order.symm ⟨place, inside⟩)
    rw [Equiv.apply_symm_apply] at there here
    exact there.trans here.symm
  · rw [List.getElem?_eq_none (by omega),
      List.getElem?_eq_none (by rw [length_permuted order length]; omega)]

theorem permuted_perm (length : xs.length = n) : (permuted order xs).Perm xs := by
  subst length
  rw [permuted_eq_ofFn order rfl]
  have moved := Equiv.Perm.ofFn_comp_perm order.symm xs.get
  rwa [List.ofFn_get] at moved

theorem zip_permuted {ys : List γ} (length : xs.length = n) (length' : ys.length = n) :
    (permuted order xs).zip (permuted order ys) = permuted order (xs.zip ys) := by
  apply eq_permuted order
  · rw [List.length_zip, length, length', min_self]
  · rw [List.length_zip, length_permuted order length, length_permuted order length', min_self]
  · intro k
    rw [List.zip_eq_zipWith, List.zip_eq_zipWith, List.getElem?_zipWith, List.getElem?_zipWith,
      getElem?_permuted order length, getElem?_permuted order length']

/-- The new place of the node that a gene names. -/
def renamed (gene : Int) : Int :=
  if named : 0 ≤ gene ∧ gene < n then order ⟨gene.toNat, by omega⟩ else gene

theorem renamed_natCast (k : Fin n) : renamed order (k : Nat) = (order k : Nat) := by
  have named : 0 ≤ ((k : Nat) : Int) ∧ ((k : Nat) : Int) < n := by omega
  rw [renamed, dif_pos named]
  rfl

theorem renamed_eq_iff (gene : Int) (k : Fin n) :
    renamed order gene = (order k : Nat) ↔ gene = (k : Nat) := by
  constructor
  · intro same
    unfold renamed at same
    split at same
    · rename_i named
      have place := order.injective (Fin.ext (Int.ofNat_inj.1 same))
      rw [← place]
      exact (Int.toNat_of_nonneg named.1).symm
    · omega
  · rintro rfl
    exact renamed_natCast order k

end

namespace Scalar

/-- What bounds its list does not depend on where the search for it begins. -/
theorem foldl_greater_perm {β : Type} [LinearOrder β] {x y : β} {xs ys : List β}
    (perm : (x :: xs).Perm (y :: ys)) :
    xs.foldl (fun best z => if best < z then z else best) x =
      ys.foldl (fun best z => if best < z then z else best) y := by
  obtain ⟨member, bound⟩ := foldl_greater x xs
  obtain ⟨member', bound'⟩ := foldl_greater y ys
  apply le_antisymm
  · exact bound' _ (perm.mem_iff.1 member)
  · exact bound _ (perm.mem_iff.2 member')

theorem maximum?_perm {xs ys : List ℚ} (perm : xs.Perm ys) : maximum? xs = maximum? ys := by
  cases xs with
  | nil => rw [List.nil_perm.1 perm]
  | cons x rest =>
      cases ys with
      | nil => cases List.perm_nil.1 perm
      | cons y others => exact congrArg some (foldl_greater_perm perm)

theorem minimum?_perm {xs ys : List ℚ} (perm : xs.Perm ys) : minimum? xs = minimum? ys := by
  cases xs with
  | nil => rw [List.nil_perm.1 perm]
  | cons x rest =>
      cases ys with
      | nil => cases List.perm_nil.1 perm
      | cons y others => exact congrArg some (@foldl_greater_perm ℚᵒᵈ _ x y rest others perm)

theorem sum_perm {xs ys : List ℚ} (perm : xs.Perm ys) : sum xs = sum ys := by
  rw [sum_rat, sum_rat, perm.sum_eq]

end Scalar

/-- The outcome with what it says of node `k` in place `order k`. -/
def Outcome.permuteNodes {α : Type} {n : Nat} (order : Equiv.Perm (Fin n)) (outcome : Outcome α) :
    Outcome α :=
  { outcome with
    nodeTimes := permuted order outcome.nodeTimes
    nodeCosts := permuted order outcome.nodeCosts }

namespace Problem

section

variable {α : Type} [Scalar α] (problem : Problem α)

/-- The problem with node `k` in place `order k`. -/
def permuteNodes {α : Type} (problem : Problem α) (order : Equiv.Perm (Fin problem.nodes.length)) :
    Problem α :=
  { problem with nodes := permuted order problem.nodes }

variable (order : Equiv.Perm (Fin problem.nodes.length))

omit [Scalar α] in
theorem assigned_renamed (genes : List Int) (jobs : List (Job α))
    (k : Fin problem.nodes.length) :
    assigned (genes.map (renamed order)) jobs (order k) = assigned genes jobs k := by
  unfold assigned
  rw [List.zip_map_left, List.filter_map, List.map_map]
  have same : ((fun pair : Int × Job α => pair.1 == ((order k : Nat) : Int)) ∘
      Prod.map (renamed order) id) = fun pair => pair.1 == ((k : Nat) : Int) := by
    funext pair
    rw [Bool.eq_iff_iff, Function.comp_apply, beq_iff_eq, beq_iff_eq]
    exact renamed_eq_iff order pair.1 k
  rw [same]
  rfl

omit [Scalar α] in
/-- Whatever is made of each node and its jobs, it takes the new place of the node. -/
theorem mapIdx_permuteNodes (f : Node α → List (Job α) → α) (genes : List Int) :
    ((problem.permuteNodes order).nodes.mapIdx fun k node =>
        f node (assigned (genes.map (renamed order)) problem.jobs k)) =
      permuted order
        (problem.nodes.mapIdx fun k node => f node (assigned genes problem.jobs k)) := by
  apply eq_permuted order
  · rw [List.length_mapIdx]
  · rw [List.length_mapIdx]
    exact length_permuted order rfl
  · intro k
    have moved := getElem?_permuted order (rfl : problem.nodes.length = _) k
    rw [List.getElem?_mapIdx, List.getElem?_mapIdx, permuteNodes, moved,
      assigned_renamed problem order]

theorem nodeTimes_permuteNodes (genes : List Int) :
    (problem.permuteNodes order).nodeTimes (genes.map (renamed order)) =
      permuted order (problem.nodeTimes genes) :=
  mapIdx_permuteNodes problem order Node.time genes

theorem nodeCosts_permuteNodes (genes : List Int) :
    (problem.permuteNodes order).nodeCosts (genes.map (renamed order)) =
      permuted order (problem.nodeCosts genes) :=
  mapIdx_permuteNodes problem order Node.cost genes

end

variable {problem problem' : Problem ℚ} {genes genes' : List Int} {bounds : Bounds ℚ}
  {outcome outcome' : Outcome ℚ}

/-- The bounds of a problem, together and each on its own, the outcome of a list of genes, and with
it the scores of every candidate that has these genes. -/
structure ComesTo (problem : Problem ℚ) (genes : List Int) (bounds : Bounds ℚ)
    (outcome : Outcome ℚ) : Prop where
  accepted : problem.check = .ok ()
  time : problem.timeBound = .ok bounds.minTime
  cost : problem.costBound = .ok bounds.minCost
  known : problem.bounds = .ok bounds
  success : problem.outcome genes = .ok outcome
  scores (w : ℚ) (c : Candidate ℚ) : c.genes = genes →
    c.evaluate problem bounds w = .ok
      { c with
        fitness := bounds.fitness w outcome.makespan outcome.totalCost
        time := outcome.makespan
        cost := outcome.totalCost }

theorem comesTo (known : problem.bounds = .ok bounds)
    (success : problem.outcome genes = .ok outcome) : problem.ComesTo genes bounds outcome := by
  obtain ⟨passed, time, cost⟩ := bounds_eq_ok_iff.1 known
  exact
    { accepted := passed
      time := result_then_eq_ok.2 ⟨passed, time⟩
      cost := result_then_eq_ok.2 ⟨passed, cost⟩
      known := known
      success := success
      scores := fun w c same => by
        subst same
        exact result_bind_eq_ok.2 ⟨outcome, success, rfl⟩ }

theorem bounds_rat (fine : problem.Acceptable) :
    problem.bounds = .ok ⟨problem.totalLength / problem.totalCapacity,
      (problem.jobs.map problem.leastCharge).sum⟩ := by
  obtain ⟨⟨minTime, minCost⟩, known⟩ := exists_bounds fine
  obtain ⟨-, time, cost⟩ := bounds_eq_ok_iff.1 known
  rw [known, ← (minTime_eq_ok_iff.1 time).2, ← minCost_rat fine cost]

/-- Only the two totals and the least charge of each job matter to the bounds. -/
theorem bounds_congr (fine : problem.Acceptable) (fine' : problem'.Acceptable)
    (length : problem'.totalLength = problem.totalLength)
    (capacity : problem'.totalCapacity = problem.totalCapacity)
    (least : (problem'.jobs.map problem'.leastCharge).sum =
      (problem.jobs.map problem.leastCharge).sum) : problem'.bounds = problem.bounds := by
  rw [bounds_rat fine, bounds_rat fine', length, capacity, least]

section

variable (order : Equiv.Perm (Fin problem.nodes.length))

theorem Acceptable.permuteNodes (fine : problem.Acceptable) :
    (problem.permuteNodes order).Acceptable := by
  have perm := permuted_perm order (rfl : problem.nodes.length = _)
  refine ⟨fine.some_job, ?_, fine.jobs, ?_⟩
  · intro none
    exact fine.some_node (List.nil_perm.1 (none ▸ perm))
  · intro node member
    exact fine.nodes node (perm.mem_iff.1 member)

theorem bounds_permuteNodes (fine : problem.Acceptable) :
    (problem.permuteNodes order).bounds = problem.bounds := by
  have perm := permuted_perm order (rfl : problem.nodes.length = _)
  have least : (problem.permuteNodes order).leastCharge = problem.leastCharge := by
    funext job
    exact congrArg (·.getD 0) (Scalar.minimum?_perm (perm.map (·.charge job)))
  refine bounds_congr fine (fine.permuteNodes order) rfl ?_ ?_
  · exact Scalar.sum_perm (perm.map (·.capacity))
  · rw [least]
    rfl

theorem Assigns.permuteNodes (assigns : problem.Assigns genes) :
    (problem.permuteNodes order).Assigns (genes.map (renamed order)) := by
  constructor
  · rw [List.length_map]
    exact assigns.length
  · have size : (problem.permuteNodes order).nodes.length = problem.nodes.length :=
      length_permuted order rfl
    rw [size, List.forall_mem_map]
    intro gene member
    obtain ⟨low, high⟩ := assigns.named gene member
    rw [renamed, dif_pos ⟨low, high⟩]
    omega

theorem outcome_permuteNodes (fine : problem.Acceptable)
    (success : problem.outcome genes = .ok outcome) :
    (problem.permuteNodes order).outcome (genes.map (renamed order)) =
      .ok (outcome.permuteNodes order) := by
  obtain ⟨assigns, -, makespan, totalCost, nodeTimes, nodeCosts⟩ := outcome_eq_ok_iff.1 success
  have times : (permuted order (problem.nodeTimes genes)).Perm (problem.nodeTimes genes) :=
    permuted_perm order List.length_mapIdx
  have costs : (permuted order (problem.nodeCosts genes)).Perm (problem.nodeCosts genes) :=
    permuted_perm order List.length_mapIdx
  refine outcome_eq_ok_iff.2
    ⟨assigns.permuteNodes order, (fine.permuteNodes order).capable, ?_, ?_, ?_, ?_⟩
  · rw [nodeTimes_permuteNodes, Scalar.maximum?_perm times]
    exact makespan
  · rw [nodeCosts_permuteNodes, Scalar.sum_perm costs]
    exact totalCost
  · rw [nodeTimes_permuteNodes, ← nodeTimes]
    rfl
  · rw [nodeCosts_permuteNodes, ← nodeCosts]
    rfl

end

section

/-- The problem with job `i` in place `order i`. -/
def permuteJobs {α : Type} (problem : Problem α) (order : Equiv.Perm (Fin problem.jobs.length)) :
    Problem α :=
  { problem with jobs := permuted order problem.jobs }

variable (order : Equiv.Perm (Fin problem.jobs.length))

theorem Acceptable.permuteJobs (fine : problem.Acceptable) :
    (problem.permuteJobs order).Acceptable := by
  have perm := permuted_perm order (rfl : problem.jobs.length = _)
  refine ⟨?_, fine.some_node, ?_, fine.nodes⟩
  · intro none
    exact fine.some_job (List.nil_perm.1 (none ▸ perm))
  · intro job member
    exact fine.jobs job (perm.mem_iff.1 member)

theorem bounds_permuteJobs (fine : problem.Acceptable) :
    (problem.permuteJobs order).bounds = problem.bounds := by
  have perm := permuted_perm order (rfl : problem.jobs.length = _)
  refine bounds_congr fine (fine.permuteJobs order) ?_ rfl ?_
  · exact Scalar.sum_perm (perm.map (·.length))
  · exact (perm.map problem.leastCharge).sum_eq

theorem Assigns.permuteJobs (assigns : problem.Assigns genes) :
    (problem.permuteJobs order).Assigns (permuted order genes) := by
  have perm := permuted_perm order assigns.length
  refine ⟨?_, fun gene member => assigns.named gene (perm.mem_iff.1 member)⟩
  exact (length_permuted order assigns.length).trans (length_permuted order rfl).symm

/-- A node has the same jobs, in another order. -/
theorem assigned_permuteJobs (assigns : problem.Assigns genes) (k : Nat) :
    (assigned (permuted order genes) (problem.permuteJobs order).jobs k).Perm
      (assigned genes problem.jobs k) := by
  unfold assigned Problem.permuteJobs
  rw [zip_permuted order assigns.length rfl]
  refine List.Perm.map _ (List.Perm.filter _ (permuted_perm order ?_))
  rw [List.length_zip, assigns.length, min_self]

theorem nodeTimes_permuteJobs (assigns : problem.Assigns genes) :
    (problem.permuteJobs order).nodeTimes (permuted order genes) = problem.nodeTimes genes := by
  unfold nodeTimes
  congr 1
  funext k node
  have same := Scalar.sum_perm ((assigned_permuteJobs order assigns k).map (·.length))
  unfold Node.time
  rw [same]

theorem nodeCosts_permuteJobs (assigns : problem.Assigns genes) :
    (problem.permuteJobs order).nodeCosts (permuted order genes) = problem.nodeCosts genes := by
  unfold nodeCosts
  congr 1
  funext k node
  exact Scalar.sum_perm ((assigned_permuteJobs order assigns k).map node.charge)

theorem outcome_permuteJobs (fine : problem.Acceptable)
    (success : problem.outcome genes = .ok outcome) :
    (problem.permuteJobs order).outcome (permuted order genes) = .ok outcome := by
  obtain ⟨assigns, -, makespan, totalCost, nodeTimes, nodeCosts⟩ := outcome_eq_ok_iff.1 success
  have times := nodeTimes_permuteJobs order assigns
  have costs := nodeCosts_permuteJobs order assigns
  refine outcome_eq_ok_iff.2
    ⟨assigns.permuteJobs order, (fine.permuteJobs order).capable, ?_, ?_, ?_, ?_⟩
  · rwa [times]
  · rwa [costs]
  · rwa [times]
  · rwa [costs]

end

/-- An acceptable problem comes to the same with its nodes in any other places, if the genes name
the nodes by their new places: the node times and node costs change places with the nodes, and both
bounds, makespan, whole cost and fitness stay. It comes to the very same with its jobs in any other
places, if the genes change places with them. -/
theorem relabelling_keeps_scores (accepted : problem.check = .ok ())
    (assigns : problem.Assigns genes) :
    ∃ bounds outcome, problem.ComesTo genes bounds outcome ∧
      (∀ order : Equiv.Perm (Fin problem.nodes.length),
        (problem.permuteNodes order).ComesTo (genes.map (renamed order)) bounds
          (outcome.permuteNodes order)) ∧
      ∀ order : Equiv.Perm (Fin problem.jobs.length),
        (problem.permuteJobs order).ComesTo (permuted order genes) bounds outcome := by
  have fine := check_eq_ok_iff.1 accepted
  obtain ⟨bounds, known⟩ := exists_bounds fine
  obtain ⟨outcome, success⟩ := exists_outcome fine assigns
  refine ⟨bounds, outcome, comesTo known success, fun order => ?_, fun order => ?_⟩
  · have same := bounds_permuteNodes order fine
    exact comesTo (same.trans known) (outcome_permuteNodes order fine success)
  · have same := bounds_permuteJobs order fine
    exact comesTo (same.trans known) (outcome_permuteJobs order fine success)

/-- Three jobs, of which a fast node has the last two. -/
def trio : Problem ℚ where
  jobs := [⟨4, 0, 0, 0, 1, none⟩, ⟨2, 0, 0, 0, 1, none⟩, ⟨3, 0, 0, 0, 1, none⟩]
  nodes := [⟨2, 1, 0, 0, none⟩, ⟨1, 1 / 2, 0, 0, none⟩]

/-- With the two nodes exchanged, or with each job one place on and the last job first. -/
theorem relabelling_keeps_scores_trio :
    ∃ bounds outcome, trio.outcome [1, 0, 0] = .ok outcome ∧
      outcome.nodeTimes = [5 / 2, 4] ∧ outcome.nodeCosts = [5 / 2, 2] ∧
      (∃ outcome', (trio.permuteNodes (finRotate 2)).outcome [0, 1, 1] = .ok outcome' ∧
        outcome'.nodeTimes = [4, 5 / 2] ∧ outcome'.makespan = outcome.makespan ∧
        (trio.permuteNodes (finRotate 2)).bounds = .ok bounds) ∧
      (trio.permuteJobs (finRotate 3)).outcome [0, 1, 0] = .ok outcome := by
  obtain ⟨bounds, outcome, comes, nodes, jobs⟩ :=
    relabelling_keeps_scores (by decide +kernel : trio.check = .ok ())
      (⟨rfl, by decide⟩ : trio.Assigns [1, 0, 0])
  have worked : trio.outcome [1, 0, 0] = .ok ⟨4, 9 / 2, [5 / 2, 4], [5 / 2, 2]⟩ := by
    decide +kernel
  obtain rfl := Except.ok.inj (worked.symm.trans comes.success)
  have exchanged := nodes (finRotate 2)
  have rotated := jobs (finRotate 3)
  exact ⟨bounds, _, worked, rfl, rfl, ⟨_, exchanged.success, rfl, rfl, exchanged.known⟩,
    rotated.success⟩

end Problem

end EvoSched
