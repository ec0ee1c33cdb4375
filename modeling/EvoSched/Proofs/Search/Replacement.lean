import EvoSched.Proofs.Search.Children
import EvoSched.Proofs.Search.Elites
import EvoSched.Proofs.Search.Journal
import EvoSched.Proofs.Search.Size

/-!
Replacing, slot by slot: each slot keeps its member, or goes to a child of it that is no less fit
and has genes that no member has. So no rank gets worse by replacing, and members that differ still
differ from each other and from the children; only two children of one pass can be alike.
-/

set_option autoImplicit false

namespace EvoSched

variable {σ α : Type} [Scalar α] {plan : Plan α} {problem : Problem α} {bounds : Bounds α}

/-- What takes the place of a member: a child of it and of one other member, evaluated, no less fit
than it, with genes that no member has. -/
structure Candidate.Supplants (problem : Problem α) (bounds : Bounds α) (timeWeight : α)
    (p : Population α) (place : Nat) (parent child : Candidate α) : Prop where
  blends : ∃ other mate, other ≠ place ∧ p.members[other]? = some mate ∧ parent.Blends mate child
  follows : parent.Follows child
  scored : child.Scored problem bounds timeWeight
  fitter : parent.fitness ≤ child.fitness
  novel : ∀ c ∈ p.members, child.genes ≠ c.genes

namespace Candidate

/-- The genes decide on the fitness. -/
theorem Scored.fitness_eq {timeWeight : α} {c d : Candidate α}
    (first : c.Scored problem bounds timeWeight) (second : d.Scored problem bounds timeWeight)
    (same : c.genes = d.genes) : c.fitness = d.fitness := by
  obtain ⟨outcome, found, -, -, fitness⟩ := first
  obtain ⟨outcome', found', -, -, fitness'⟩ := second
  rw [same, found'] at found
  cases found
  rw [fitness, fitness']

/-- What duplicates no member has the genes of none: equal genes come with equal fitness. -/
theorem Scored.novel [OrderedScalar α] {timeWeight : α} {p : Population α} {child : Candidate α}
    (scored : child.Scored problem bounds timeWeight)
    (members : ∀ c ∈ p.members, c.Scored problem bounds timeWeight)
    (compares : (child.fitness == child.fitness) = true) (unknown : p.includes child = false) :
    ∀ c ∈ p.members, child.genes ≠ c.genes := by
  intro c member same
  have fitness := (members c member).fitness_eq scored same.symm
  have duplicate : c.isDuplicateOf child = true := by
    rw [isDuplicateOf, fitness, compares, sameGenes, same]
    exact beq_iff_eq.2 rfl
  have known : p.includes child = true := List.any_eq_true.2 ⟨c, member, duplicate⟩
  rw [unknown] at known
  cases known

end Candidate

namespace Search

variable [Source σ α] {wheel : Wheel σ α} {p : Population α} {source source' : σ}
  {s t : Search σ α}

theorem supplants_of_offer [OrderedScalar α]
    (scored : ∀ c ∈ p.members, c.Scored problem bounds plan.timeWeight)
    (spins : Gives (wheel p) fun pick => pick.member ∈ p.members) {place : Nat}
    {parent next : Candidate α} (found : p.members[place]? = some parent)
    (success : offer wheel plan problem (some bounds) p parent source = .ok next source') :
    next = parent ∨ Candidate.Supplants problem bounds plan.timeWeight p place parent next := by
  have follows := gives_offer (some bounds) parent source next source' success
  rcases offer_eq_ok success with
    kept | ⟨mate, child, _, _, _, spun, crossed, evaluated, fitter, unknown⟩
  · exact .inl kept
  · right
    have whole := Candidate.scored_of_evaluate evaluated
    have novel := whole.novel scored (OrderedScalar.beq_self_of_le fitter).2 unknown
    -- evaluation leaves the genes that crossing has given the child
    have blends : parent.Blends mate.member next := by
      have blended := Candidate.gives_blends_twoPoint _ _ _ _ _ crossed
      obtain ⟨outcome, -, rfl⟩ := Candidate.evaluate_eq_ok_iff.1 evaluated
      exact blended
    obtain ⟨other, inside⟩ := List.getElem?_of_mem (spins _ _ _ spun)
    refine ⟨⟨other, mate.member, ?_, inside, blends⟩, follows, whole, fitter, novel⟩
    rintro rfl
    cases found.symm.trans inside
    exact novel _ (List.mem_of_getElem? inside) (blends.genes_eq rfl)

theorem supplants_of_replacePass [OrderedScalar α] (known : s.bounds = some bounds)
    (scored : ∀ c ∈ s.population.members, c.Scored problem bounds plan.timeWeight)
    (spins : Gives (wheel s.population) fun pick => pick.member ∈ s.population.members)
    (success : replacePass wheel plan problem s = .ok () t) {place : Nat} {parent : Candidate α}
    (found : s.population.members[place]? = some parent) :
    ∃ next, t.population.members[place]? = some next ∧
      (next = parent ∨
        Candidate.Supplants problem bounds plan.timeWeight s.population place parent next) := by
  obtain ⟨members, source, offered, rfl⟩ := replacePass_eq_ok success
  rw [known] at offered
  have offers := offers_of_offerEach offered
  obtain ⟨low, rfl⟩ := List.getElem?_eq_some_iff.1 found
  have high : place < members.length := offers.length_eq ▸ low
  obtain ⟨before, after, offer⟩ := offers.get low high
  exact ⟨_, List.getElem?_eq_getElem high, supplants_of_offer scored spins found offer⟩

theorem exists_replacePass [LawfulScalar α] [LawfulSource σ α] (plan : Plan α)
    (fine : problem.Acceptable) (fit : s.population.Fit problem) (known : s.bounds = some bounds) :
    ∃ t, replacePass Wheel.spin plan problem s = .ok () t := by
  obtain ⟨_, t, replaced, -⟩ := achieves_replacePass fine s ⟨⟨bounds, known⟩, fit⟩
  exact ⟨t, replaced⟩

/-- The slots are all that replacing changes of a population. -/
theorem total_of_replacePass (success : replacePass wheel plan problem s = .ok () t) :
    t.population.total = s.population.total := by
  obtain ⟨members, source, -, rfl⟩ := replacePass_eq_ok success
  rfl

/-- Every slot after the pass is that of a member before it. -/
theorem parent_of_replacePass [OrderedScalar α] (known : s.bounds = some bounds)
    (scored : ∀ c ∈ s.population.members, c.Scored problem bounds plan.timeWeight)
    (spins : Gives (wheel s.population) fun pick => pick.member ∈ s.population.members)
    (success : replacePass wheel plan problem s = .ok () t) {place : Nat} {next : Candidate α}
    (found : t.population.members[place]? = some next) :
    ∃ parent, s.population.members[place]? = some parent ∧
      (next = parent ∨
        Candidate.Supplants problem bounds plan.timeWeight s.population place parent next) := by
  have size : t.population.members.length = s.population.members.length :=
    size_replacePass success
  have inside : place < s.population.members.length := by
    rw [← size]
    exact (List.getElem?_eq_some_iff.1 found).1
  have parent := List.getElem?_eq_getElem inside
  obtain ⟨other, taken, cases⟩ := supplants_of_replacePass known scored spins success parent
  cases found.symm.trans taken
  exact ⟨_, parent, cases⟩

/-- Members that differ stay different, and children differ from all of them: if two slots are alike
after replacing, both hold a child of this pass. -/
theorem supplants_of_alike [OrderedScalar α] (known : s.bounds = some bounds)
    (scored : ∀ c ∈ s.population.members, c.Scored problem bounds plan.timeWeight)
    (apart : (s.population.members.map (·.genes)).Nodup)
    (spins : Gives (wheel s.population) fun pick => pick.member ∈ s.population.members)
    (success : replacePass wheel plan problem s = .ok () t) {i j : Nat} {x y : Candidate α}
    (differ : i ≠ j) (first : t.population.members[i]? = some x)
    (second : t.population.members[j]? = some y) (alike : x.genes = y.genes) :
    ∃ a b, s.population.members[i]? = some a ∧ s.population.members[j]? = some b ∧
      Candidate.Supplants problem bounds plan.timeWeight s.population i a x ∧
      Candidate.Supplants problem bounds plan.timeWeight s.population j b y := by
  obtain ⟨a, before, kept | child⟩ := parent_of_replacePass known scored spins success first
  · obtain ⟨b, before', kept' | child'⟩ := parent_of_replacePass known scored spins success second
    · subst kept kept'
      have low : i < (s.population.members.map (·.genes)).length := by
        rw [List.length_map]
        exact (List.getElem?_eq_some_iff.1 before).1
      refine absurd ((List.getElem?_inj low apart).1 ?_) differ
      rw [List.getElem?_map, List.getElem?_map, before, before']
      exact congrArg some alike
    · subst kept
      exact absurd alike.symm (child'.novel _ (List.mem_of_getElem? before))
  · obtain ⟨b, before', kept' | child'⟩ := parent_of_replacePass known scored spins success second
    · subst kept'
      exact absurd alike (child.novel _ (List.mem_of_getElem? before'))
    · exact ⟨a, b, before, before', child, child'⟩

theorem noWorse_of_replacePass [OrderedScalar α] (known : s.bounds = some bounds)
    (comparable : ∀ c ∈ s.population.members, Population.isComparable c = true)
    (success : replacePass wheel plan problem s = .ok () t) :
    Population.NoWorse s.population.members t.population.members := by
  have successors := succeeds_of_replacePass known success
  rw [Population.NoWorse, List.forall₂_iff_get] at *
  refine ⟨successors.1, fun place low high => ?_⟩
  rcases successors.2 place low high with kept | ⟨-, fitter⟩
  · rw [kept]
    exact Population.isComparable_iff.1 (comparable _ (List.get_mem _ _))
  · exact fitter

theorem scored_of_replacePass (known : s.bounds = some bounds)
    (scored : ∀ c ∈ s.population.members, c.Scored problem bounds plan.timeWeight)
    (success : replacePass wheel plan problem s = .ok () t) :
    ∀ c ∈ t.population.members, c.Scored problem bounds plan.timeWeight := by
  intro c member
  obtain ⟨parent, inside, kept | ⟨whole, -⟩⟩ :=
    exists_of_mem_forall₂ (succeeds_of_replacePass known success) member
  · exact kept ▸ scored parent inside
  · exact whole

theorem mutate_of_still [OrderedScalar α] [LawfulSource σ α]
    (still : plan.mutationRate ≤ Scalar.zero) (s : Search σ α) :
    ∃ source, mutate plan s = .ok () { s with source } := by
  obtain ⟨source, kept⟩ := mutateRanks_of_still still (s.population.openRanks plan.elitism) s
  refine ⟨source, bind_ok (bind_ok rfl kept) ?_⟩
  have same : s.journal ++ [] = s.journal := List.append_nil _
  change EStateM.Result.ok () { s with source, journal := s.journal ++ [] } = _
  rw [same]

omit [Source σ α] in
/-- A pool that is scored already is only put in order and cut. -/
theorem evaluate_select_of_scored [OrderedScalar α] (known : s.bounds = some bounds)
    (scored : ∀ c ∈ s.population.members, c.Scored problem bounds plan.timeWeight)
    (comparable : ∀ c ∈ s.population.members, Population.isComparable c = true) :
    ∃ u, (do evaluate plan problem; select plan : SearchM σ α Unit) s = .ok () u ∧
      u.population.members = (Population.sorted s.population.members).take plan.targetSize := by
  have evaluated := evaluate_eq_ok_iff.2
    ⟨bounds, _, known, Candidate.mapM_evaluate_of_scored scored, rfl⟩
  obtain ⟨printed, selected⟩ := select_eq (σ := σ) plan
    { s with population := ({ s.population with members := s.population.members } :
      Population α).recompute.sort }
  refine ⟨_, bind_ok evaluated selected, ?_⟩
  rw [Population.members_truncate]
  exact congrArg (List.take _) (Population.sorted_sorted comparable)

/-- A generation that replaces and does not mutate makes no rank worse. -/
theorem evolveInPlace_of_still [OrderedScalar α] [LawfulScalar α] [LawfulSource σ α]
    (still : plan.mutationRate ≤ Scalar.zero) (fine : problem.Acceptable)
    (fit : s.population.Fit problem) (known : s.bounds = some bounds)
    (scored : ∀ c ∈ s.population.members, c.Scored problem bounds plan.timeWeight)
    (comparable : ∀ c ∈ s.population.members, Population.isComparable c = true) :
    ∃ u, evolveInPlace Wheel.spin plan problem s = .ok () u ∧
      u.population.size = min plan.targetSize s.population.size ∧
      ∀ rank (before : rank < (Population.sorted s.population.members).length)
        (after : rank < u.population.members.length),
        (Population.sorted s.population.members)[rank].fitness ≤
          u.population.members[rank].fitness := by
  obtain ⟨t, replaced⟩ := exists_replacePass plan fine fit known
  have better := noWorse_of_replacePass known comparable replaced
  have lasting : t.bounds = some bounds :=
    (congrArg Prod.fst (keeps_replacePass Wheel.spin _ _ _ replaced)).trans known
  have scored' := scored_of_replacePass known scored replaced
  obtain ⟨source, mutated⟩ := mutate_of_still still t
  obtain ⟨u, settled, members⟩ := evaluate_select_of_scored (s := { t with source }) lasting
    scored' better.comparable.2
  refine ⟨u, evolveInPlace_eq_ok_iff.2 ⟨t, _, replaced, mutated, settled⟩, ?_, ?_⟩
  · have size : t.population.size = s.population.size := size_replacePass replaced
    rw [Population.size, members, List.length_take, (Population.perm_sorted _).length_eq, ← size]
    rfl
  · intro rank before after
    have inside : rank < (Population.sorted t.population.members).length := by
      rw [(Population.perm_sorted _).length_eq, ← better.length_eq,
        ← (Population.perm_sorted s.population.members).length_eq]
      exact before
    have above := better.sorted_le before inside
    simpa only [members, List.getElem_take] using above

/-- Replacing keeps the size, and in every slot the member or a child that supplants it; with
mutation at rate zero no rank gets worse in a generation, as far as the ranks are kept. -/
theorem replacing_never_worsens [OrderedScalar α] [LawfulScalar α] [LawfulSource σ α]
    (accepted : problem.check = .ok ()) (fit : s.population.Fit problem)
    (known : s.bounds = some bounds)
    (scored : ∀ c ∈ s.population.members, c.Scored problem bounds plan.timeWeight)
    (comparable : ∀ c ∈ s.population.members, Population.isComparable c = true) :
    (∃ t, replacePass Wheel.spin plan problem s = .ok () t ∧
      t.population.size = s.population.size ∧ t.population.total = s.population.total ∧
      ∀ place parent, s.population.members[place]? = some parent →
        ∃ next, t.population.members[place]? = some next ∧
          (next = parent ∨
            Candidate.Supplants problem bounds plan.timeWeight s.population place parent next)) ∧
    (plan.strategy = .replace → plan.mutationRate ≤ Scalar.zero →
      ∃ u, evolve Wheel.spin plan problem s = .ok () u ∧
        u.population.size = min plan.targetSize s.population.size ∧
        ∀ rank (before : rank < (Population.sorted s.population.members).length)
          (after : rank < u.population.members.length),
          (Population.sorted s.population.members)[rank].fitness ≤
            u.population.members[rank].fitness) := by
  have fine := Problem.check_eq_ok_iff.1 accepted
  constructor
  · obtain ⟨t, replaced⟩ := exists_replacePass plan fine fit known
    refine ⟨t, replaced, size_replacePass replaced, total_of_replacePass replaced, ?_⟩
    intro place parent found
    exact supplants_of_replacePass known scored (Wheel.gives_spin s.population) replaced found
  · intro replaces still
    rw [evolve_eq_evolveInPlace replaces]
    exact evolveInPlace_of_still still fine fit known scored comparable

/-- The two candidates of `stacked`, with a steady source. -/
def steadied : Search (Steady Float) Float where
  source := ⟨⟩
  population := stacked.population
  bounds := stacked.bounds
  journal := []
  printed := ""
  readings := 0

theorem fit_stacked : stacked.population.Fit .uneven where
  some_member := by decide
  each c member := by
    have shape : ∀ c ∈ stacked.population.members, c.genes.length = 2 ∧ c.top = 1 ∧
        ∀ gene ∈ c.genes, 0 ≤ gene ∧ gene ≤ 1 := by decide
    obtain ⟨length, top, inside⟩ := shape c member
    exact ⟨length, top, inside⟩

theorem scored_stacked :
    ∀ c ∈ stacked.population.members, c.Scored .uneven ⟨1.5, 0⟩ Plan.bold.timeWeight := by
  obtain ⟨-, -, -, evaluated, -⟩ := settled_stacked
  exact fun c member => Candidate.scored_of_evaluate (evaluated c member)

theorem replacing_never_worsens_steadied :
    (∃ t, replacePass Wheel.spin (.brief .replace 0.5 0) .uneven steadied = .ok () t ∧
      t.population.size = 2) ∧
    ∃ u, evolve Wheel.spin (.brief .replace 0.5 0) .uneven steadied = .ok () u ∧
      u.population.size = 2 ∧
      ∀ rank (before : rank < (Population.sorted steadied.population.members).length)
        (after : rank < u.population.members.length),
        (Population.sorted steadied.population.members)[rank].fitness ≤
          u.population.members[rank].fitness := by
  obtain ⟨known, -, comparable, -, accepted, -⟩ := settled_stacked
  obtain ⟨nonneg, proper, -⟩ := Plan.brief_rates
  have lawful : LawfulSource (Steady Float) Float := Steady.lawful nonneg.1 proper
  have still : (0 : Float) ≤ Scalar.zero := by decide +kernel
  obtain ⟨⟨t, replaced, size, -⟩, generation⟩ := @replacing_never_worsens (Steady Float) Float _
    (.brief .replace 0.5 0) .uneven _ _ steadied _ _ lawful accepted fit_stacked known
    scored_stacked comparable
  exact ⟨⟨t, replaced, size⟩, generation rfl still⟩

/-- Where all members differ, only two children of the same pass can be alike: each of them has
genes that no member had, and took the place of a member no fitter than it. -/
theorem replacing_alike_children [OrderedScalar α] [LawfulScalar α] [LawfulSource σ α]
    (accepted : problem.check = .ok ()) (fit : s.population.Fit problem)
    (known : s.bounds = some bounds)
    (scored : ∀ c ∈ s.population.members, c.Scored problem bounds plan.timeWeight)
    (apart : (s.population.members.map (·.genes)).Nodup) :
    ∃ t, replacePass Wheel.spin plan problem s = .ok () t ∧
      ∀ i j x y, i ≠ j → t.population.members[i]? = some x → t.population.members[j]? = some y →
        x.genes = y.genes →
        ∃ a b, s.population.members[i]? = some a ∧ s.population.members[j]? = some b ∧
          Candidate.Supplants problem bounds plan.timeWeight s.population i a x ∧
          Candidate.Supplants problem bounds plan.timeWeight s.population j b y := by
  have fine := Problem.check_eq_ok_iff.1 accepted
  obtain ⟨t, replaced⟩ := exists_replacePass plan fine fit known
  refine ⟨t, replaced, fun i j x y differ first second alike => ?_⟩
  exact supplants_of_alike known scored apart (Wheel.gives_spin s.population) replaced differ first
    second alike

theorem replacing_alike_children_steadied :
    ∃ t, replacePass Wheel.spin (.brief .replace 0.5 0) .uneven steadied = .ok () t ∧
      ∀ (i j : Nat) (x y : Candidate Float), i ≠ j → t.population.members[i]? = some x →
        t.population.members[j]? = some y → x.genes = y.genes →
        ∀ c ∈ steadied.population.members, x.genes ≠ c.genes := by
  obtain ⟨known, -, -, -, accepted, -⟩ := settled_stacked
  obtain ⟨nonneg, proper, -⟩ := Plan.brief_rates
  have lawful : LawfulSource (Steady Float) Float := Steady.lawful nonneg.1 proper
  have apart : (steadied.population.members.map (·.genes)).Nodup := by decide
  obtain ⟨t, replaced, alike_children⟩ := @replacing_alike_children (Steady Float) Float _
    (.brief .replace 0.5 0) .uneven _ _ steadied _ _ lawful accepted fit_stacked known
    scored_stacked apart
  refine ⟨t, replaced, fun i j x y differ first second alike => ?_⟩
  obtain ⟨_, _, -, -, child, -⟩ := alike_children i j x y differ first second alike
  exact child.novel

/-- The two candidates of `stacked`, with units by which the first gets its second gene from the
second, and the second its first gene from the first. -/
def crosswise : Search Stream Float :=
  let units : List Float := [0, 0.9, 0.5, 0, 0, 0, 0, 0]
  { stacked with source := .cycle units units }

/-- Here both children come out as one job on each node, and both are taken. -/
theorem replacing_breeds_alike :
    Plan.bold.Valid ∧ Problem.uneven.check = .ok () ∧ Problem.uneven.bounds = .ok ⟨1.5, 0⟩ ∧
      crosswise.bounds = some ⟨1.5, 0⟩ ∧
      (∀ c ∈ crosswise.population.members,
        c.evaluate .uneven ⟨1.5, 0⟩ Plan.bold.timeWeight = .ok c) ∧
      (crosswise.population.members.map (·.genes)).Nodup ∧
      ∃ t, replacePass Wheel.spin .bold .uneven crosswise = .ok () t ∧
        ¬ (t.population.members.map (·.genes)).Nodup := by
  obtain ⟨known, -, -, evaluated, accepted, bounds⟩ := settled_stacked
  have apart : (crosswise.population.members.map (·.genes)).Nodup := by decide
  have passed : valueOf (replacePass Wheel.spin .bold .uneven crosswise) = some () ∧
      (endOf (replacePass Wheel.spin .bold .uneven crosswise)).population.members.map (·.genes) =
        [[0, 1], [0, 1]] := by
    decide +kernel
  have alike : ¬ ([[0, 1], [0, 1]] : List (List Int)).Nodup := by decide
  refine ⟨Plan.valid_bold, accepted, bounds, known, evaluated, apart, _,
    eq_ok_of_valueOf passed.1, ?_⟩
  rw [passed.2]
  exact alike

end Search

end EvoSched
