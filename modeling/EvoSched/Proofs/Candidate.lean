import EvoSched.Crossover
import EvoSched.Mutation
import EvoSched.Proofs.Cost.Outcome
import EvoSched.Proofs.Random
import EvoSched.Search

set_option autoImplicit false

namespace EvoSched

theorem nth_ok {β : Type} {xs : List β} {position : Int} (low : 0 ≤ position)
    (high : position < xs.length) : ∃ x ∈ xs, nth xs position = .ok x := by
  obtain ⟨place, rfl⟩ := Int.eq_ofNat_of_zero_le low
  have inside : place < xs.length := by omega
  exact ⟨xs[place], List.getElem_mem inside, nth_natCast xs place inside⟩

theorem setNth_ok {β : Type} {xs : List β} {position : Int} (x : β) (low : 0 ≤ position)
    (high : position < xs.length) : ∃ place, setNth xs position x = .ok (xs.set place x) := by
  obtain ⟨place, rfl⟩ := Int.eq_ofNat_of_zero_le low
  have inside : place < xs.length := by omega
  exact ⟨place, by rw [setNth, resolve_natCast inside]⟩

theorem ne_nil_of_length {β γ : Type} {xs : List β} {ys : List γ} (same : xs.length = ys.length)
    (some_item : ys ≠ []) : xs ≠ [] := by
  rw [← List.length_pos_iff, same]
  exact List.length_pos_iff.2 some_item

theorem inRange_iff {top gene : Int} : inRange top gene = true ↔ 0 ≤ gene ∧ gene ≤ top := by
  simp [inRange]

variable {σ α : Type}

/-- One gene for each job of the problem, from 0 to the last node. -/
structure Candidate.Fit (problem : Problem α) (c : Candidate α) : Prop where
  length : c.genes.length = problem.jobs.length
  top : c.top = problem.nodes.length - 1
  inside : ∀ gene ∈ c.genes, 0 ≤ gene ∧ gene ≤ (problem.nodes.length - 1 : Int)

/-- Two valid candidates of one shape. -/
structure Candidate.Paired (a b : Candidate α) : Prop where
  valid_first : a.Valid
  valid_second : b.Valid
  length : b.genes.length = a.genes.length
  top : b.top = a.top

/-- A segment that begins on a ring of `length` genes, and holds one of them at least and no more
than all. -/
structure Cut.Proper (cut : Cut) (length : Nat) : Prop where
  first_nonneg : 0 ≤ cut.first
  first_lt : cut.first < length
  first_lt_second : cut.first < cut.second
  second_le : cut.second ≤ cut.first + length

namespace Candidate

variable {problem : Problem α}

theorem Fit.assigns {c : Candidate α} (fit : c.Fit problem) :
    problem.Assigns c.genes :=
  ⟨fit.length, fun gene member => by have := fit.inside gene member; omega⟩

theorem Fit.inRange {c : Candidate α} (fit : c.Fit problem) :
    ∀ gene ∈ c.genes, inRange (problem.nodes.length - 1) gene = true :=
  fun gene member => inRange_iff.2 (fit.inside gene member)

theorem Fit.valid {c : Candidate α} (fit : c.Fit problem) : c.Valid := by
  unfold Valid
  rw [fit.top]
  exact fit.inRange

theorem Fit.paired {a b : Candidate α} (first : a.Fit problem) (second : b.Fit problem) :
    a.Paired b :=
  ⟨first.valid, second.valid, second.length.trans first.length.symm,
    second.top.trans first.top.symm⟩

theorem checked_ok {c : Candidate α} (fit : c.Fit problem) : c.checked = .ok c := by
  unfold checked
  rw [firstFailing_eq_none_iff.2 fit.valid]

theorem fit_setGene {c : Candidate α} {position gene : Int} (fit : c.Fit problem)
    (low : 0 ≤ position) (high : position < c.genes.length)
    (inside : 0 ≤ gene ∧ gene ≤ (problem.nodes.length - 1 : Int)) :
    ∃ d, c.setGene position gene = .ok d ∧ d.Fit problem := by
  obtain ⟨place, set⟩ := setNth_ok gene low high
  have named : EvoSched.inRange c.top gene = true := by
    rw [fit.top]
    exact inRange_iff.2 inside
  refine ⟨{ c with genes := c.genes.set place gene }, ?_, ?_, fit.top, fun other member => ?_⟩
  · rw [setGene, if_pos named, result_bind_eq_ok]
    exact ⟨_, set, rfl⟩
  · exact List.length_set.trans fit.length
  · rcases List.mem_or_eq_of_mem_set member with kept | rfl
    · exact fit.inside other kept
    · exact inside

theorem blendGenes_ok {top : Int} {mask : List Bool} {base donor : List Int}
    (baseLength : base.length = mask.length) (donorLength : donor.length = mask.length)
    (baseInside : ∀ gene ∈ base, inRange top gene = true)
    (donorInside : ∀ gene ∈ donor, inRange top gene = true) :
    ∃ genes, blendGenes top mask base donor = .ok genes ∧ genes.length = mask.length ∧
      ∀ gene ∈ genes, inRange top gene = true := by
  induction mask generalizing base donor with
  | nil =>
      obtain rfl := List.length_eq_zero_iff.1 baseLength
      exact ⟨[], rfl, rfl, nofun⟩
  | cons fromDonor mask ih =>
      obtain ⟨x, base, rfl⟩ := List.exists_cons_of_length_eq_add_one baseLength
      obtain ⟨y, donor, rfl⟩ := List.exists_cons_of_length_eq_add_one donorLength
      obtain ⟨first, baseRest⟩ := List.forall_mem_cons.1 baseInside
      obtain ⟨second, donorRest⟩ := List.forall_mem_cons.1 donorInside
      obtain ⟨genes, blended, length, inside⟩ := ih (Nat.succ.inj baseLength)
        (Nat.succ.inj donorLength) baseRest donorRest
      cases fromDonor with
      | true =>
          refine ⟨y :: genes, ?_, congrArg Nat.succ length, List.forall_mem_cons.2 ⟨second, inside⟩⟩
          simp [blendGenes, second, blended]
      | false =>
          refine ⟨x :: genes, ?_, congrArg Nat.succ length, List.forall_mem_cons.2 ⟨first, inside⟩⟩
          simp [blendGenes, first, blended]

variable [Scalar α]

/-- Parents of one shape have a child by any mask of their length. -/
theorem Paired.exists_blend {a b : Candidate α} (paired : a.Paired b) {mask : List Bool}
    (length : mask.length = a.genes.length) :
    ∃ child, a.blend b mask = .ok child ∧ child.genes.length = a.genes.length ∧
      child.top = a.top ∧ child.Valid := by
  have donorInside := paired.valid_second
  unfold Valid at donorInside
  rw [paired.top] at donorInside
  obtain ⟨genes, blended, whole, inside⟩ := blendGenes_ok length.symm
    (paired.length.trans length.symm) paired.valid_first donorInside
  exact ⟨fresh genes a.top, result_bind_eq_ok.2 ⟨genes, blended, rfl⟩, whole.trans length, rfl,
    inside⟩

theorem blend_ok {base donor : Candidate α} {mask : List Bool} (baseFit : base.Fit problem)
    (donorFit : donor.Fit problem) (length : mask.length = problem.jobs.length) :
    ∃ child, base.blend donor mask = .ok child ∧ child.Fit problem := by
  obtain ⟨child, blended, whole, top, valid⟩ :=
    (baseFit.paired donorFit).exists_blend (length.trans baseFit.length.symm)
  have same := top.trans baseFit.top
  refine ⟨child, blended, whole.trans baseFit.length, same, fun gene member => ?_⟩
  rw [← same]
  exact inRange_iff.1 (valid gene member)

variable [Source σ α] [LawfulSource σ α]

/-- Only a problem with jobs has rings to be cut. -/
theorem yields_cut {length : Nat} (some_position : 0 < length) :
    Yields (Cut.draw length : Draw σ Cut) fun cut => cut.Proper length := by
  apply Yields.bind (Yields.below (by omega))
  intro first inside
  apply Yields.bind (Yields.below (by omega))
  intro second after
  have order : first < second ∧ second ≤ first + length := by omega
  exact .pure ⟨inside.1, inside.2, order.1, order.2⟩

variable {a b : Candidate α}

theorem yields_twoPoint (some_job : problem.jobs ≠ []) (first : a.Fit problem)
    (second : b.Fit problem) :
    Yields (a.twoPoint b : Draw σ (Candidate α)) fun child => child.Fit problem := by
  have positions := List.length_pos_iff.2 some_job
  rw [← first.length] at positions
  apply Yields.bind (yields_cut positions)
  intro cut _
  obtain ⟨child, blended, fit⟩ := blend_ok first second
    ((Cut.length_mask cut _).trans first.length)
  exact .ofResult blended fit

theorem yields_twoPointPair (some_job : problem.jobs ≠ []) (first : a.Fit problem)
    (second : b.Fit problem) :
    Yields (a.twoPointPair b : Draw σ (Candidate α × Candidate α))
      fun children => children.1.Fit problem ∧ children.2.Fit problem := by
  have positions := List.length_pos_iff.2 some_job
  rw [← first.length] at positions
  apply Yields.bind (yields_cut positions)
  intro cut _
  have length := (Cut.length_mask cut _).trans first.length
  obtain ⟨child, blended, fit⟩ := blend_ok first second length
  obtain ⟨other, blended', fit'⟩ := blend_ok second first length
  apply Yields.bind (.ofResult blended fit)
  intro c childFit
  exact Yields.bind (.ofResult blended' fit') fun d otherFit => .pure ⟨childFit, otherFit⟩

theorem yields_repeated {low high : Int} (proper : low < high) (count : Nat) :
    Yields (Draw.repeated low high count : Draw σ (List Int))
      fun genes => genes.length = count ∧ ∀ gene ∈ genes, low ≤ gene ∧ gene < high := by
  induction count with
  | zero => exact .pure ⟨rfl, nofun⟩
  | succ count ih =>
      apply Yields.bind (.below proper)
      intro gene inside
      apply Yields.bind ih
      intro genes ⟨length, others⟩
      exact .pure ⟨congrArg Nat.succ length, List.forall_mem_cons.2 ⟨inside, others⟩⟩

theorem yields_many {low high : Int} (proper : low < high) (count : Nat) :
    Yields (Draw.many low high count : Draw σ (List Int))
      fun genes => genes.length = count ∧ ∀ gene ∈ genes, low ≤ gene ∧ gene < high := by
  have whole : ¬ (count : Int) < 0 := by omega
  intro s
  obtain ⟨genes, t, drawn, kind⟩ := yields_repeated proper count s
  refine ⟨genes, t, ?_, kind⟩
  unfold Draw.many
  rw [if_neg whole]
  exact drawn

theorem yields_drawCandidate (some_node : problem.nodes ≠ []) :
    Yields (Search.drawCandidate problem.jobs.length (problem.nodes.length - 1) :
      Draw σ (Candidate α)) fun c => c.Fit problem := by
  have nodes := List.length_pos_iff.2 some_node
  apply Yields.bind (yields_many (by omega) _)
  intro genes ⟨length, inside⟩
  have fit : (fresh genes (problem.nodes.length - 1) : Candidate α).Fit problem :=
    ⟨length, rfl, fun gene member => by have := inside gene member; omega⟩
  exact .ofResult (checked_ok fit) fit

theorem yields_drawCandidates (some_node : problem.nodes ≠ []) (count : Nat) :
    Yields (Search.drawCandidates problem.jobs.length (problem.nodes.length - 1) count :
      Draw σ (List (Candidate α))) fun members =>
        members.length = count ∧ ∀ c ∈ members, c.Fit problem := by
  induction count with
  | zero => exact .pure ⟨rfl, nofun⟩
  | succ count ih =>
      apply Yields.bind (yields_drawCandidate some_node)
      intro c fit
      apply Yields.bind ih
      intro members ⟨length, fits⟩
      exact .pure ⟨congrArg Nat.succ length, List.forall_mem_cons.2 ⟨fit, fits⟩⟩

theorem yields_mutate {c : Candidate α} (some_job : problem.jobs ≠ [])
    (some_node : problem.nodes ≠ []) (fit : c.Fit problem) :
    Yields (c.mutate : Draw σ (GeneChange × Candidate α)) fun r => r.2.Fit problem := by
  have jobs := List.length_pos_iff.2 some_job
  have nodes := List.length_pos_iff.2 some_node
  have length := fit.length
  have top := fit.top
  apply Yields.bind (.below (by omega))
  intro job ⟨jobLow, jobHigh⟩
  apply Yields.bind (.below (by omega))
  intro new ⟨newLow, newHigh⟩
  obtain ⟨old, member, found⟩ := nth_ok jobLow jobHigh
  obtain ⟨mutant, changed, mutantFit⟩ :=
    fit_setGene fit jobLow jobHigh ⟨newLow, by omega⟩
  apply Yields.bind (.ofResult found member)
  intro _ _
  exact Yields.bind (.ofResult changed mutantFit) fun _ mutantFit => .pure mutantFit

end Candidate

end EvoSched
