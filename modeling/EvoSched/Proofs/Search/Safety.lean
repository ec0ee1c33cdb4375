import EvoSched.Proofs.Candidate
import EvoSched.Proofs.Search.Evolution
import EvoSched.Proofs.Selection

set_option autoImplicit false

namespace EvoSched

variable {σ α : Type} {problem : Problem α}

/-- Some members, all of them fit for the problem. -/
structure Population.Fit (problem : Problem α) (p : Population α) : Prop where
  some_member : p.members ≠ []
  each : ∀ c ∈ p.members, c.Fit problem

theorem Search.yields_copies {plan : Plan α} {wheel : Wheel σ α} {p : Population α}
    (spins : Yields (wheel p) fun pick => pick.member ∈ p.members) {slots : List Nat}
    (inside : ∀ index ∈ slots, index < p.size) :
    Yields (Search.copies wheel plan p slots) fun kept =>
      kept.length = slots.length ∧ ∀ c ∈ kept, c ∈ p.members := by
  induction slots with
  | nil => exact .pure ⟨rfl, nofun⟩
  | cons index rest ih =>
      obtain ⟨first, others⟩ := List.forall_mem_cons.1 inside
      have copy : Yields (Search.copyFor wheel plan p index) fun c => c ∈ p.members := by
        unfold Search.copyFor
        split
        · obtain ⟨c, member, found⟩ : ∃ c ∈ p.members, p.member index = .ok c :=
            nth_ok (Int.natCast_nonneg index) (Int.ofNat_lt.2 first)
          exact .ofResult found member
        · exact Yields.bind spins fun pick member => .pure member
      apply Yields.bind copy
      intro c member
      apply Yields.bind (ih others)
      intro kept ⟨length, members⟩
      exact .pure ⟨congrArg Nat.succ length, List.forall_mem_cons.2 ⟨member, members⟩⟩

/-- Bounds are known and the population is fit. -/
structure Search.Ready (problem : Problem α) (s : Search σ α) : Prop where
  known : ∃ bounds, s.bounds = some bounds
  fit : s.population.Fit problem

theorem Search.onSource_ok {β : Type} {act : Draw σ β} {kind : β → Prop} (yields : Yields act kind)
    (s : Search σ α) : ∃ x source, onSource act s = .ok x { s with source } ∧ kind x := by
  obtain ⟨x, source, success, meets⟩ := yields s.source
  refine ⟨x, source, ?_, meets⟩
  unfold onSource
  rw [success]

theorem Search.aside_ok {β : Type} {other : Population α} {act : SearchM σ α β}
    {s u : Search σ α} {x : β}
    (success : act { s with population := other } = .ok x u) :
    aside other act s = .ok (x, u.population) { u with population := s.population } :=
  aside_eq_ok_iff.2 ⟨u, success, rfl, rfl⟩

variable [Scalar α]

/-- From zero to one. -/
def IsRate (x : α) : Prop := Scalar.zero ≤ x ∧ x ≤ Scalar.one

/-- The ranges that an accepted plan keeps to. -/
structure Plan.Valid (plan : Plan α) : Prop where
  populationSize : 0 < plan.populationSize
  targetSize : 0 < plan.targetSize
  maxGenerations : 0 < plan.maxGenerations
  workers : 0 < plan.workers
  reportEvery : 0 < plan.reportEvery
  mutationRate : IsRate plan.mutationRate
  crossoverRate : IsRate plan.crossoverRate
  timeWeight : IsRate plan.timeWeight
  elitism : plan.elitism < plan.populationSize

theorem Candidate.evaluate_ok [LawfulScalar α] (bounds : Bounds α) (timeWeight : α)
    {c : Candidate α} (fine : problem.Acceptable) (fit : c.Fit problem) :
    ∃ d, c.evaluate problem bounds timeWeight = .ok d ∧ d.Fit problem := by
  obtain ⟨outcome, success⟩ := Problem.exists_outcome fine fit.assigns
  exact ⟨_, Candidate.evaluate_eq_ok_iff.2 ⟨outcome, success, rfl⟩, fit.length, fit.top, fit.inside⟩

theorem Population.Fit.truncate {p : Population α} (fit : p.Fit problem) {target : Nat}
    (positive : 0 < target) : (p.truncate target).Fit problem := by
  have positions : 0 < p.size := List.length_pos_iff.2 fit.some_member
  have size := Population.size_truncate p target
  refine ⟨?_, fun c member => fit.each c (Population.mem_truncate member)⟩
  rw [← List.length_pos_iff]
  change 0 < (p.truncate target).size
  omega

namespace Search

variable {plan : Plan α}

theorem achieves_evaluate [LawfulScalar α] (fine : problem.Acceptable) :
    Achieves (Ready problem : Search σ α → Prop) (evaluate plan problem) fun _ t =>
      t.Ready problem := by
  intro s ready
  obtain ⟨bounds, known⟩ := ready.known
  have each : ∀ c ∈ s.population.members,
      ∃ d, c.evaluate problem bounds plan.timeWeight = .ok d ∧ d.Fit problem :=
    fun c member => Candidate.evaluate_ok bounds plan.timeWeight fine (ready.fit.each c member)
  obtain ⟨evaluated, success, length, fit⟩ := mapM_exists each
  have sameLength := (Population.perm_sorted evaluated).length_eq.trans length
  refine ⟨(), _, evaluate_eq_ok_iff.2 ⟨bounds, evaluated, known, success, rfl⟩, ready.known, ?_, ?_⟩
  · exact ne_nil_of_length sameLength ready.fit.some_member
  · exact fun c member => fit c (Population.mem_sorted.1 member)

theorem achieves_select (valid : plan.Valid) :
    Achieves (Ready problem : Search σ α → Prop) (select plan) fun _ t =>
      t.Ready problem ∧ t.population.size ≤ plan.targetSize := by
  intro s ready
  obtain ⟨printed, success⟩ := select_eq plan s
  have size := Population.size_truncate s.population plan.targetSize
  have fit := Population.Fit.truncate ready.fit valid.targetSize
  refine ⟨(), _, success, ⟨ready.known, fit⟩, ?_⟩
  change (s.population.truncate plan.targetSize).size ≤ plan.targetSize
  omega

/-- A fit pool is evaluated and selected aside, and takes the place of the population. -/
theorem pool_ok [LawfulScalar α] (valid : plan.Valid) (fine : problem.Acceptable)
    {pool : Population α} (s : Search σ α) (known : ∃ bounds, s.bounds = some bounds)
    (fit : pool.Fit problem) :
    ∃ t, (do
        let (_, next) ← aside pool do
          evaluate plan problem
          select plan
        setPopulation next : SearchM σ α Unit) s = .ok () t ∧
      t.Ready problem ∧ t.population.size ≤ plan.targetSize := by
  obtain ⟨_, t, success, ready, size⟩ :=
    ((achieves_evaluate fine).bind fun _ => achieves_select valid)
      { s with population := pool } ⟨known, fit⟩
  exact ⟨_, bind_ok (aside_ok success) rfl, ⟨ready.known, ready.fit⟩, size⟩

variable [Source σ α] [LawfulSource σ α] {wheel : Wheel σ α} {p : Population α}

theorem yields_offer [LawfulScalar α] (fine : problem.Acceptable) (fit : p.Fit problem)
    (spins : Yields (wheel p) fun pick => pick.member ∈ p.members) (bounds : Bounds α)
    {parent : Candidate α} (parentFit : parent.Fit problem) :
    Yields (offer wheel plan problem (some bounds) p parent) fun c => c.Fit problem := by
  apply Yields.bind .unit
  intro u _
  split
  · apply Yields.bind spins
    intro other member
    apply Yields.bind (Candidate.yields_twoPoint fine.some_job parentFit (fit.each _ member))
    intro child childFit
    have required : Yields (ofResult (requireBounds (some bounds)) : Draw σ (Bounds α))
        fun _ => True := .ofResult rfl trivial
    apply Yields.bind required
    intro bounds _
    obtain ⟨scored, success, scoredFit⟩ :=
      Candidate.evaluate_ok bounds plan.timeWeight fine childFit
    apply Yields.bind (.ofResult success scoredFit)
    intro child childFit
    split
    · exact .pure childFit
    · exact .pure parentFit
  · exact .pure parentFit

theorem yields_offerEach [LawfulScalar α] (fine : problem.Acceptable) (fit : p.Fit problem)
    (spins : Yields (wheel p) fun pick => pick.member ∈ p.members) (bounds : Bounds α)
    {parents : List (Candidate α)} (parentsFit : ∀ parent ∈ parents, parent.Fit problem) :
    Yields (offerEach wheel plan problem (some bounds) p parents) fun members =>
      members.length = parents.length ∧ ∀ c ∈ members, c.Fit problem := by
  induction parents with
  | nil => exact .pure ⟨rfl, nofun⟩
  | cons parent rest ih =>
      obtain ⟨first, others⟩ := List.forall_mem_cons.1 parentsFit
      apply Yields.bind (yields_offer fine fit spins bounds first)
      intro next nextFit
      apply Yields.bind (ih others)
      intro members ⟨length, membersFit⟩
      exact .pure ⟨congrArg Nat.succ length, List.forall_mem_cons.2 ⟨nextFit, membersFit⟩⟩

theorem pairCount_ok [LawfulScalar α] (valid : plan.Valid) {size : Nat} (small : size < 2 ^ 53) :
    ∃ pairs, pairCount plan size = .ok pairs ∧ 0 ≤ pairs := by
  obtain ⟨pairs, nonneg, whole⟩ :=
    LawfulScalar.truncate_half small valid.crossoverRate.1 valid.crossoverRate.2
  refine ⟨pairs, ?_, nonneg⟩
  unfold pairCount
  simp only [whole]

theorem yields_litter (some_job : problem.jobs ≠ []) (fit : p.Fit problem)
    (spins : Yields (wheel p) fun pick => pick.member ∈ p.members) (pairs : Nat) :
    Yields (litter wheel p pairs) fun children =>
      children.length = 2 * pairs ∧ ∀ c ∈ children, c.Fit problem := by
  induction pairs with
  | zero => exact .pure ⟨rfl, nofun⟩
  | succ pairs ih =>
      apply Yields.bind spins
      intro parent member
      apply Yields.bind (Wheel.yields_partner spins parent.member _)
      intro other member'
      apply Yields.bind (Candidate.yields_twoPointPair some_job (fit.each _ member)
        (fit.each _ member'))
      intro (a, b) ⟨first, second⟩
      apply Yields.bind ih
      intro children ⟨length, childrenFit⟩
      refine .pure ⟨?_, List.forall_mem_cons.2
        ⟨first, List.forall_mem_cons.2 ⟨second, childrenFit⟩⟩⟩
      simp only [List.length_cons, length]
      omega

/-- A bred population is not empty: what is not copied is bred. -/
theorem yields_breed (some_job : problem.jobs ≠ []) (fit : p.Fit problem) {pairs : Int}
    (counted : pairCount plan p.size = .ok pairs) (nonneg : 0 ≤ pairs)
    (spins : Yields (wheel p) fun pick => pick.member ∈ p.members) :
    Yields (breed wheel plan p) fun bred => bred.Fit problem := by
  have positions : 0 < p.size := List.length_pos_iff.2 fit.some_member
  apply Yields.bind (.ofResult counted nonneg)
  intro pairs nonneg
  have inside : ∀ index ∈ List.range (p.size - 2 * pairs).toNat, index < p.size := by
    intro index member
    have := List.mem_range.1 member
    omega
  apply Yields.bind (yields_copies spins inside)
  intro kept ⟨keptLength, keptMembers⟩
  apply Yields.bind (yields_litter some_job fit spins pairs.toNat)
  intro children ⟨childrenLength, childrenFit⟩
  refine .pure ⟨?_, ?_⟩
  · rw [← List.length_pos_iff]
    simp only [List.length_append, keptLength, childrenLength, List.length_range]
    omega
  · intro c member
    rcases List.mem_append.1 member with kept | child
    · exact fit.each c (keptMembers c kept)
    · exact childrenFit c child

theorem yields_mutateRank (some_job : problem.jobs ≠ []) (some_node : problem.nodes ≠ [])
    (fit : p.Fit problem) (rate : α) {rank : Int} (low : 0 ≤ rank) (high : rank < p.size) :
    Yields (p.mutateRank rate rank : Draw σ (List Mutation × Population α)) fun r =>
      r.2.size = p.size ∧ r.2.Fit problem := by
  apply Yields.bind .unit
  intro u _
  split
  · obtain ⟨old, member, found⟩ : ∃ c ∈ p.members, p.member rank = .ok c := nth_ok low high
    apply Yields.bind (.ofResult found (fit.each old member))
    intro old oldFit
    apply Yields.bind (Candidate.yields_mutate some_job some_node oldFit)
    intro (change, mutant) mutantFit
    obtain ⟨place, set⟩ := setNth_ok mutant low high
    have replaced : Yields (ofResult (setNth p.members rank mutant) : Draw σ _) fun members =>
        members.length = p.members.length ∧ ∀ c ∈ members, c.Fit problem := by
      refine .ofResult set ⟨List.length_set, fun c member => ?_⟩
      rcases List.mem_or_eq_of_mem_set member with kept | rfl
      · exact fit.each c kept
      · exact mutantFit
    apply Yields.bind replaced
    intro members ⟨length, membersFit⟩
    exact .pure ⟨length, ne_nil_of_length length fit.some_member, membersFit⟩
  · exact .pure ⟨rfl, fit⟩

theorem achieves_mutateRanks (some_job : problem.jobs ≠ []) (some_node : problem.nodes ≠ [])
    (rate : α) {size : Nat} {ranks : List Int} (inside : ∀ rank ∈ ranks, 0 ≤ rank ∧ rank < size) :
    Achieves (fun s : Search σ α => s.population.Fit problem ∧ s.population.size = size)
      (mutateRanks rate ranks) fun _ t => t.population.Fit problem := by
  induction ranks with
  | nil => exact .pure fun s fit => fit.1
  | cons rank rest ih =>
      obtain ⟨⟨low, high⟩, others⟩ := List.forall_mem_cons.1 inside
      rintro s ⟨fit, rfl⟩
      obtain ⟨⟨entries, p⟩, source, drawn, same, next⟩ :=
        onSource_ok (yields_mutateRank some_job some_node fit rate low high) s
      obtain ⟨later, t, mutated, last⟩ := ih others { s with source, population := p } ⟨next, same⟩
      exact ⟨_, t, bind_ok rfl (bind_ok drawn (bind_ok rfl (bind_ok mutated rfl))), last⟩

/-- Mutation asks for fit candidates only, not for bounds. -/
theorem achieves_mutate_fit (some_job : problem.jobs ≠ []) (some_node : problem.nodes ≠ []) :
    Achieves (fun s : Search σ α => s.population.Fit problem) (mutate plan) fun _ t =>
      t.population.Fit problem := by
  intro s fit
  have inside : ∀ rank ∈ s.population.openRanks plan.elitism,
      0 ≤ rank ∧ rank < s.population.size := by
    intro rank member
    obtain ⟨k, below, rfl⟩ := List.mem_map.1 member
    have := List.mem_range.1 below
    omega
  obtain ⟨entries, t, mutated, next⟩ := achieves_mutateRanks some_job some_node
    plan.mutationRate inside s ⟨fit, rfl⟩
  have mutatedFrom : mutateFrom plan.mutationRate plan.elitism s = .ok entries t :=
    bind_ok rfl mutated
  exact ⟨(), _, bind_ok mutatedFrom rfl, next⟩

theorem achieves_mutate (some_job : problem.jobs ≠ []) (some_node : problem.nodes ≠ []) :
    Achieves (Ready problem : Search σ α → Prop) (mutate plan) fun _ t => t.Ready problem := by
  intro s ready
  obtain ⟨_, t, mutated, fit⟩ := achieves_mutate_fit some_job some_node s ready.fit
  obtain ⟨bounds, known⟩ := ready.known
  have lasts := keeps_mutate _ _ _ mutated
  exact ⟨(), t, mutated, ⟨bounds, (congrArg Prod.fst lasts).trans known⟩, fit⟩

theorem achieves_replacePass [LawfulScalar α] (fine : problem.Acceptable) :
    Achieves (Ready problem : Search σ α → Prop) (replacePass Wheel.spin plan problem) fun _ t =>
      t.Ready problem := by
  intro s ready
  obtain ⟨bounds, known⟩ := ready.known
  obtain ⟨members, source, offered, length, fit⟩ := onSource_ok
    (yields_offerEach fine ready.fit (Wheel.yields_spin ready.fit.some_member) bounds
      ready.fit.each) s
  rw [← known] at offered
  have some_member := ne_nil_of_length length ready.fit.some_member
  exact ⟨(), _, bind_ok rfl (bind_ok offered rfl), ready.known, some_member, fit⟩

theorem achieves_evolveInPlace [LawfulScalar α] (valid : plan.Valid) (fine : problem.Acceptable) :
    Achieves (Ready problem : Search σ α → Prop) (evolveInPlace Wheel.spin plan problem)
      fun _ t => t.Ready problem ∧ t.population.size ≤ plan.targetSize :=
  (achieves_replacePass fine).bind fun _ =>
    (achieves_mutate fine.some_job fine.some_node).bind fun _ =>
      (achieves_evaluate fine).bind fun _ => achieves_select valid

theorem achieves_evolveByBreeding [LawfulScalar α] (mergeParents : Bool) (valid : plan.Valid)
    (fine : problem.Acceptable) :
    Achieves (fun s : Search σ α => s.Ready problem ∧ s.population.size < 2 ^ 53)
      (evolveByBreeding mergeParents Wheel.spin plan problem)
      fun _ t => t.Ready problem ∧ t.population.size ≤ plan.targetSize := by
  rintro s ⟨ready, small⟩
  obtain ⟨pairs, counted, nonneg⟩ := pairCount_ok valid small
  obtain ⟨bred, source, drawn, bredFit⟩ := onSource_ok
    (yields_breed fine.some_job ready.fit counted nonneg
      (Wheel.yields_spin ready.fit.some_member)) s
  have mutation : Achieves (Ready problem : Search σ α → Prop) (mutate plan)
      fun _ t => t.Ready problem := achieves_mutate fine.some_job fine.some_node
  obtain ⟨_, u, mutated, mutatedReady⟩ :=
    mutation { s with source, population := bred } ⟨ready.known, bredFit⟩
  cases mergeParents with
  | false =>
      obtain ⟨t, settled, selected⟩ := pool_ok valid fine { u with population := s.population }
        mutatedReady.known mutatedReady.fit
      refine ⟨(), t, bind_ok rfl ?_, selected⟩
      apply bind_ok drawn
      apply bind_ok (aside_ok mutated)
      exact settled
  | true =>
      have merged : ({ u.population with members := u.population.members ++
          s.population.members } : Population α).Fit problem := by
        refine ⟨by simp [mutatedReady.fit.some_member], fun c member => ?_⟩
        rcases List.mem_append.1 member with new | old
        · exact mutatedReady.fit.each c new
        · exact ready.fit.each c old
      obtain ⟨t, settled, selected⟩ := pool_ok valid fine
        { u with population := { s.population with members := [] } } mutatedReady.known merged
      refine ⟨(), t, bind_ok rfl ?_, selected⟩
      apply bind_ok drawn
      apply bind_ok (aside_ok mutated)
      exact bind_ok rfl (bind_ok rfl settled)

/-- A generation of fit candidates ends without a fault, whichever strategy it follows, in one of
fit candidates and of no more than the target size. -/
theorem achieves_evolve [LawfulScalar α] (valid : plan.Valid) (fine : problem.Acceptable) :
    Achieves (fun s : Search σ α => s.Ready problem ∧ s.population.size < 2 ^ 53)
      (evolve Wheel.spin plan problem)
      fun _ t => t.Ready problem ∧ t.population.size ≤ plan.targetSize := by
  rintro s ⟨ready, small⟩
  have inPlace := achieves_evolveInPlace valid fine { s with journal := [] }
    ⟨ready.known, ready.fit⟩
  have byBreeding := fun mergeParents => achieves_evolveByBreeding mergeParents valid fine
    { s with journal := [] } ⟨⟨ready.known, ready.fit⟩, small⟩
  unfold evolve
  cases plan.strategy with
  | replace =>
      obtain ⟨x, t, success, selected⟩ := inPlace
      exact ⟨x, t, bind_ok rfl success, selected⟩
  | grow mergeParents =>
      obtain ⟨x, t, success, selected⟩ := byBreeding mergeParents
      exact ⟨x, t, bind_ok rfl success, selected⟩

end Search

end EvoSched
