import EvoSched.Proofs.Scalar.Monotone
import EvoSched.Proofs.Search.Pool
import EvoSched.Proofs.Search.Safety

set_option autoImplicit false

namespace EvoSched

variable {σ α : Type} [Scalar α] [Source σ α] {plan : Plan α} {problem : Problem α}
  {wheel : Wheel σ α} {p : Population α} {source source' : σ}

namespace Search

/-- Breeding from `size` members makes no negative number of pairs, and no more children than there
are slots. -/
def PairsFit (plan : Plan α) (size : Nat) : Prop :=
  ∀ pairs, pairCount plan size = .ok pairs → 0 ≤ pairs ∧ 2 * pairs ≤ size

theorem length_drawCandidates {length top : Int} {count : Nat} {members : List (Candidate α)}
    (success : drawCandidates length top count source = .ok members source') :
    members.length = count := by
  induction count generalizing source members with
  | zero =>
      cases success
      rfl
  | succ count ih =>
      obtain ⟨c, _, -, success⟩ := bind_eq_ok.1 success
      obtain ⟨others, _, tail, success⟩ := bind_eq_ok.1 success
      cases success
      exact congrArg Nat.succ (ih tail)

theorem length_litter {pairs : Nat} {children : List (Candidate α)}
    (success : litter wheel p pairs source = .ok children source') :
    children.length = 2 * pairs := by
  induction pairs generalizing source children with
  | zero =>
      cases success
      rfl
  | succ pairs ih =>
      obtain ⟨parent, _, -, success⟩ := bind_eq_ok.1 success
      obtain ⟨other, _, -, success⟩ := bind_eq_ok.1 success
      obtain ⟨⟨a, b⟩, _, -, success⟩ := bind_eq_ok.1 success
      obtain ⟨others, _, tail, success⟩ := bind_eq_ok.1 success
      cases success
      have rest := ih tail
      simp only [List.length_cons]
      omega

/-- Breeding fills the slots that the pairs of children leave with copies. -/
theorem slots_of_breed {bred : Population α} (fits : PairsFit plan p.size)
    (success : breed wheel plan p source = .ok bred source') :
    ∃ (pairs : Nat) (kept children : List (Candidate α)), pairCount plan p.size = .ok pairs ∧
      bred.members = kept ++ children ∧ kept.length + 2 * pairs = p.size ∧
      children.length = 2 * pairs := by
  obtain ⟨pairs, kept, _, children, counted, copied, born, members⟩ := breed_eq_ok success
  obtain ⟨nonneg, enough⟩ := fits pairs counted
  have slots := (elites_of_copies copied).length_eq
  rw [List.length_range] at slots
  refine ⟨pairs.toNat, kept, children, ?_, members, by omega, length_litter born⟩
  rw [Int.toNat_of_nonneg nonneg]
  exact counted

theorem size_breed {bred : Population α} (fits : PairsFit plan p.size)
    (success : breed wheel plan p source = .ok bred source') : bred.size = p.size := by
  obtain ⟨pairs, kept, children, -, members, slots, litter⟩ := slots_of_breed fits success
  rw [Population.size, members, List.length_append, litter]
  exact slots

variable {s t : Search σ α}

theorem size_replacePass (success : replacePass wheel plan problem s = .ok () t) :
    t.population.size = s.population.size := by
  obtain ⟨members, source, offered, rfl⟩ := replacePass_eq_ok success
  exact (offers_of_offerEach offered).length_eq.symm

theorem size_spawn {spawned : Population α} (fits : PairsFit plan s.population.size)
    (success : spawn wheel plan s = .ok spawned t) : spawned.size = s.population.size := by
  obtain ⟨bred, source, u, born, inner, rfl, -⟩ := spawn_eq_ok success
  exact (sameFront_mutate inner).length.trans (size_breed fits born)

/-- How many members the pool of a generation has: twice as many where the present ones stay in
it. -/
def poolSize (plan : Plan α) (size : Nat) : Nat :=
  if plan.strategy = .grow true then 2 * size else size

theorem size_gather {pool : Population α} (fits : PairsFit plan s.population.size)
    (success : gather wheel plan problem s = .ok pool t) :
    pool.size = poolSize plan s.population.size := by
  unfold poolSize
  rcases gather_eq_ok success with
    ⟨replaces, replaced, passed, changed, rfl⟩ | ⟨mergeParents, spawned, breeds, born, rfl⟩
  · have same := size_replacePass passed
    rw [replaces, if_neg (by simp), ← same]
    exact (sameFront_mutate changed).length
  · have fresh := size_spawn (by exact fits) born
    cases mergeParents with
    | false => simpa [breeds] using fresh
    | true =>
        simp only [breeds, Population.size, if_true, List.length_append] at fresh ⊢
        omega

omit [Source σ α] in
theorem size_evaluate (success : evaluate plan problem s = .ok () t) :
    t.population.size = s.population.size := by
  obtain ⟨bounds, evaluated, -, each, rfl⟩ := evaluate_eq_ok_iff.1 success
  exact (Population.perm_sorted evaluated).length_eq.trans
    (mapM_eq_ok_iff.1 each).length_eq.symm

omit [Source σ α] in
theorem size_evaluate_select
    (success : (do evaluate plan problem; select plan : SearchM σ α Unit) s = .ok () t) :
    t.population.size = min plan.targetSize s.population.size := by
  obtain ⟨u, evaluated, -, population⟩ := evaluate_select_eq_ok success
  rw [population, Population.size_truncate, size_evaluate evaluated]

/-- A generation ends with as many members as its pool has, the target size at most. -/
theorem size_evolve (fits : PairsFit plan s.population.size)
    (success : evolve wheel plan problem s = .ok () t) :
    t.population.size = min plan.targetSize (poolSize plan s.population.size) := by
  obtain ⟨pool, u, gathered, rest⟩ := evolve_eq_ok_iff.1 success
  rw [size_evaluate_select rest]
  exact congrArg (min plan.targetSize) (size_gather fits gathered)

theorem length_mutateRank {rate : α} {rank : Int} {q : Population α}
    {entries : List Mutation} (success : p.mutateRank rate rank source = .ok (entries, q) source') :
    entries.length ≤ 1 := by
  obtain ⟨u, _, -, rest⟩ := bind_eq_ok.1 success
  split at rest
  · obtain ⟨old, _, -, rest⟩ := bind_eq_ok.1 rest
    obtain ⟨⟨change, mutant⟩, _, -, rest⟩ := bind_eq_ok.1 rest
    obtain ⟨members, _, -, rest⟩ := bind_eq_ok.1 rest
    cases rest
    exact le_refl 1
  · cases rest
    exact zero_le_one

theorem length_mutateRanks {rate : α} {ranks : List Int} {entries : List Mutation}
    (success : mutateRanks rate ranks s = .ok entries t) :
    entries.length ≤ ranks.length ∧ t.journal = s.journal := by
  induction ranks generalizing s entries with
  | nil =>
      cases success
      exact ⟨le_refl 0, rfl⟩
  | cons rank rest ih =>
      obtain ⟨entry, later, q, source, mutated, tail, rfl⟩ := mutateRanks_cons_eq_ok success
      have first := length_mutateRank mutated
      obtain ⟨others, journal⟩ := ih tail
      refine ⟨?_, journal⟩
      rw [List.length_append, List.length_cons]
      omega

/-- Mutation adds an entry for each member past the protected ranks, at most. -/
theorem journal_mutate (success : mutate plan s = .ok () t) :
    t.journal.length ≤ s.journal.length + (s.population.size - plan.elitism) := by
  obtain ⟨entries, u, mutated, success⟩ := bind_eq_ok.1 success
  cases success
  obtain ⟨_, _, found, success⟩ := bind_eq_ok.1 mutated
  cases found
  obtain ⟨few, journal⟩ := length_mutateRanks success
  simp only [Population.openRanks, List.length_map, List.length_range] at few
  simp only [journal, List.length_append]
  omega

theorem journal_spawn {spawned : Population α} (fits : PairsFit plan s.population.size)
    (success : spawn wheel plan s = .ok spawned t) :
    t.journal.length ≤ s.journal.length + (s.population.size - plan.elitism) := by
  obtain ⟨bred, source, u, born, inner, -, rfl⟩ := spawn_eq_ok success
  have entries := journal_mutate inner
  simp only [size_breed fits born] at entries
  exact entries

theorem journal_gather {pool : Population α} (fits : PairsFit plan s.population.size)
    (success : gather wheel plan problem s = .ok pool t) :
    t.journal.length ≤ s.population.size - plan.elitism := by
  rcases gather_eq_ok success with
    ⟨-, replaced, passed, changed, -⟩ | ⟨mergeParents, spawned, -, born, -⟩
  · have entries := journal_mutate changed
    obtain ⟨members, source, -, same⟩ := replacePass_eq_ok passed
    have cleared : replaced.journal = [] := congrArg Search.journal same
    rw [size_replacePass passed, cleared] at entries
    simpa using entries
  · have entries := journal_spawn (by exact fits) born
    simpa using entries

omit [Source σ α] in
theorem keeps_evaluate_select :
    Keeps (do evaluate plan problem; select plan : SearchM σ α Unit)
      fun s => (s.journal, s.readings) := by
  apply Keeps.bind
  · rintro s ⟨⟩ t success
    obtain ⟨bounds, evaluated, -, -, rfl⟩ := evaluate_eq_ok_iff.1 success
    rfl
  · rintro ⟨⟩ s ⟨⟩ t success
    obtain ⟨printed, same⟩ := select_eq plan s
    cases success.symm.trans same
    rfl

/-- A generation journals a mutation for each member past the protected ranks at most. -/
theorem journal_evolve (fits : PairsFit plan s.population.size)
    (success : evolve wheel plan problem s = .ok () t) :
    t.journal.length ≤ s.population.size - plan.elitism := by
  obtain ⟨pool, u, gathered, rest⟩ := evolve_eq_ok_iff.1 success
  have entries := journal_gather fits gathered
  have journal := (Prod.mk.inj (keeps_evaluate_select _ _ _ rest)).1
  rw [journal]
  exact entries

/-- A generation does not read the clock. -/
theorem keeps_readings_evolve : Keeps (evolve wheel plan problem) (·.readings) := by
  intro s x t success
  obtain ⟨pool, u, gathered, rest⟩ := evolve_eq_ok_iff.1 success
  have readings := (Prod.mk.inj (keeps_evaluate_select _ _ _ rest)).2
  exact readings.trans (congrArg Prod.snd (keeps_gather s pool u gathered))

theorem pairCount_eq_ok {size : Nat} {pairs : Int} :
    pairCount plan size = .ok pairs ↔
      Scalar.truncate? (Scalar.ofInt size * plan.crossoverRate / Scalar.ofInt 2) = some pairs := by
  unfold pairCount
  simp only
  split <;> simp_all

/-- On rationals nothing is rounded away. -/
theorem pairCount_rat {plan : Plan ℚ} (nonneg : 0 ≤ plan.crossoverRate) (size : Nat) :
    pairCount plan size = .ok ⌊(size : ℚ) * plan.crossoverRate / 2⌋ := by
  rw [pairCount_eq_ok]
  have share : (0 : ℚ) ≤ (size : ℤ) * plan.crossoverRate / (2 : ℤ) := by positivity
  exact_mod_cast Scalar.truncate?_rat share

/-- On lawful scalars the pairs fit for a crossover rate between zero and one. -/
theorem pairsFit [LawfulScalar α] [MonotoneScalar α] (rate : IsRate plan.crossoverRate)
    {size : Nat} (small : size < 2 ^ 53) : PairsFit plan size := by
  intro pairs counted
  have whole := pairCount_eq_ok.1 counted
  obtain ⟨n, nonneg, same⟩ := LawfulScalar.truncate_half small rate.1 rate.2
  obtain rfl : pairs = n := Option.some.inj (whole.symm.trans same)
  exact ⟨nonneg, MonotoneScalar.two_mul_truncate_le small rate.1 rate.2 whole⟩

end Search

end EvoSched
