import EvoSched.Proofs.Search.Evolution

set_option autoImplicit false

namespace EvoSched

variable {σ α : Type}

theorem resolve_natCast_eq_some {size place found : Nat}
    (same : resolve size (place : Int) = some found) : found = place := by
  grind [resolve]

theorem getElem?_of_nth {β : Type} {xs : List β} {place : Nat} {x : β}
    (found : nth xs (place : Int) = .ok x) : xs[place]? = some x := by
  unfold nth at found
  split at found
  · rename_i y same
    cases found
    obtain ⟨other, resolved, taken⟩ := Option.bind_eq_some_iff.1 same
    rwa [← resolve_natCast_eq_some resolved]
  · cases found

theorem eq_set_of_setNth {β : Type} {xs ys : List β} {place : Nat} {x : β}
    (found : setNth xs (place : Int) x = .ok ys) : ys = xs.set place x := by
  unfold setNth at found
  split at found
  · rename_i other resolved
    cases found
    rw [resolve_natCast_eq_some resolved]
  · cases found

namespace Search

theorem onSource_eq_ok_iff {β : Type} {act : Draw σ β} {s t : Search σ α} {x : β} :
    onSource act s = .ok x t ↔ ∃ source, act s.source = .ok x source ∧ t = { s with source } := by
  unfold onSource
  cases act s.source with
  | error fault source => simp
  | ok y source => simp [eq_comm]

end Search

/-- As many members as before, the first `count` of them the same. -/
structure Population.SameFront (count : Nat) (p q : Population α) : Prop where
  length : q.members.length = p.members.length
  front : q.members.take count = p.members.take count

theorem Population.SameFront.trans {count : Nat} {p q r : Population α}
    (first : SameFront count p q) (second : SameFront count q r) : SameFront count p r :=
  ⟨second.length.trans first.length, second.front.trans first.front⟩

theorem Population.SameFront.head {count : Nat} {p q : Population α}
    (same : SameFront count p q) (positive : 0 < count) : q.members.head? = p.members.head? := by
  have front := congrArg List.head? same.front
  rwa [List.head?_take, List.head?_take, if_neg positive.ne', if_neg positive.ne'] at front

variable [Scalar α] [Source σ α] {plan : Plan α} {problem : Problem α} {wheel : Wheel σ α}
  {p : Population α} {source source' : σ}

/-- At one rank either nothing happens, or the member there gives its place to a mutant. -/
theorem Population.mutateRank_eq_ok {rate : α} {rank : Nat} {q : Population α}
    {entries : List Mutation}
    (success : p.mutateRank rate (rank : Int) source = .ok (entries, q) source') :
    ¬ (Source.unit source).1 < rate ∧ entries = [] ∧ q = p ∨
      (Source.unit source).1 < rate ∧ ∃ (c mutant : Candidate α) (change : GeneChange),
        p.members[rank]? = some c ∧
          c.mutate (Source.unit source).2 = .ok (change, mutant) source' ∧
          entries = [⟨rank, change⟩] ∧ q = { p with members := p.members.set rank mutant } := by
  obtain ⟨u, _, drawn, rest⟩ := bind_eq_ok.1 success
  cases drawn
  split at rest
  · rename_i below
    obtain ⟨c, _, asked, rest⟩ := bind_eq_ok.1 rest
    obtain ⟨⟨change, mutant⟩, _, mutated, rest⟩ := bind_eq_ok.1 rest
    obtain ⟨members, _, replaced, rest⟩ := bind_eq_ok.1 rest
    cases rest
    obtain ⟨found, rfl⟩ := ofResult_eq_ok.1 asked
    obtain ⟨set, rfl⟩ := ofResult_eq_ok.1 replaced
    obtain rfl := eq_set_of_setNth set
    exact .inr ⟨below, c, mutant, change, getElem?_of_nth found, mutated, rfl, rfl⟩
  · rename_i above
    cases rest
    exact .inl ⟨above, rfl, rfl⟩

theorem Population.sameFront_mutateRank {rate : α} {count rank : Nat} {q : Population α}
    {entries : List Mutation} (behind : count ≤ rank)
    (success : p.mutateRank rate (rank : Int) source = .ok (entries, q) source') :
    SameFront count p q := by
  rcases mutateRank_eq_ok success with ⟨-, -, rfl⟩ | ⟨-, c, mutant, change, -, -, -, rfl⟩
  · exact ⟨rfl, rfl⟩
  · exact ⟨List.length_set, List.take_set_of_le behind⟩

namespace Search

variable {s t : Search σ α}

theorem mutateRanks_cons_eq_ok {rate : α} {rank : Int} {rest : List Int} {entries : List Mutation}
    (success : mutateRanks rate (rank :: rest) s = .ok entries t) :
    ∃ (first later : List Mutation) (p : Population α) (source : σ),
      s.population.mutateRank rate rank s.source = .ok (first, p) source ∧
        mutateRanks rate rest { s with source, population := p } = .ok later t ∧
        entries = first ++ later := by
  obtain ⟨_, _, found, success⟩ := bind_eq_ok.1 success
  cases found
  obtain ⟨⟨first, p⟩, _, drawn, success⟩ := bind_eq_ok.1 success
  obtain ⟨source, mutated, rfl⟩ := onSource_eq_ok_iff.1 drawn
  obtain ⟨_, _, kept, success⟩ := bind_eq_ok.1 success
  cases kept
  obtain ⟨later, _, tail, success⟩ := bind_eq_ok.1 success
  cases success
  exact ⟨first, later, p, source, mutated, tail, rfl⟩

theorem sameFront_mutateRanks {rate : α} {count : Nat} {ranks : List Int}
    (behind : ∀ rank ∈ ranks, ∃ place : Nat, rank = place ∧ count ≤ place)
    {entries : List Mutation} (success : mutateRanks rate ranks s = .ok entries t) :
    Population.SameFront count s.population t.population := by
  induction ranks generalizing s entries with
  | nil =>
      cases success
      exact ⟨rfl, rfl⟩
  | cons rank rest ih =>
      obtain ⟨⟨place, rfl, low⟩, others⟩ := List.forall_mem_cons.1 behind
      obtain ⟨first, later, q, source, mutated, tail, -⟩ := mutateRanks_cons_eq_ok success
      exact (Population.sameFront_mutateRank low mutated).trans (ih others tail)

/-- Mutation leaves the first members, as many as the plan protects, as they are. -/
theorem sameFront_mutate (success : mutate plan s = .ok () t) :
    Population.SameFront plan.elitism s.population t.population := by
  obtain ⟨entries, u, mutated, success⟩ := bind_eq_ok.1 success
  cases success
  obtain ⟨p, _, found, success⟩ := bind_eq_ok.1 mutated
  cases found
  have behind : ∀ rank ∈ s.population.openRanks plan.elitism,
      ∃ place : Nat, rank = place ∧ plan.elitism ≤ place := by
    intro rank member
    obtain ⟨k, -, rfl⟩ := List.mem_map.1 member
    exact ⟨plan.elitism + k, by simp, Nat.le_add_right _ _⟩
  have same := sameFront_mutateRanks behind success
  exact same

end Search

/-- What an offer leaves in the place of a member: the member itself, or a candidate that has been
evaluated and is no less fit. -/
def Candidate.Succeeds (problem : Problem α) (bounds : Bounds α) (timeWeight : α)
    (parent next : Candidate α) : Prop :=
  next = parent ∨ next.Scored problem bounds timeWeight ∧ parent.fitness ≤ next.fitness

namespace Search

variable {s t : Search σ α} {bounds : Bounds α}

/-- An offer leaves the member as it is, or puts a child of it in its place that is no less fit and
duplicates no member. -/
theorem offer_eq_ok {parent next : Candidate α}
    (success : offer wheel plan problem (some bounds) p parent source = .ok next source') :
    next = parent ∨ ∃ mate child before middle after, wheel p before = .ok mate middle ∧
      parent.twoPoint mate.member middle = .ok child after ∧
      child.evaluate problem bounds plan.timeWeight = .ok next ∧
      parent.fitness ≤ next.fitness ∧ p.includes next = false := by
  obtain ⟨u, before, -, rest⟩ := bind_eq_ok.1 success
  split at rest
  · obtain ⟨mate, middle, spun, rest⟩ := bind_eq_ok.1 rest
    obtain ⟨child, after, crossed, rest⟩ := bind_eq_ok.1 rest
    obtain ⟨required, _, known, rest⟩ := bind_eq_ok.1 rest
    cases (ofResult_eq_ok.1 known).1
    obtain ⟨scored, _, evaluated, rest⟩ := bind_eq_ok.1 rest
    split at rest
    · rename_i accepted
      cases rest
      obtain ⟨fitter, unknown⟩ := Bool.and_eq_true_iff.1 accepted
      exact .inr ⟨mate, child, before, middle, after, spun, crossed,
        (ofResult_eq_ok.1 evaluated).1, of_decide_eq_true fitter, by simpa using unknown⟩
    · cases rest
      exact .inl rfl
  · cases rest
    exact .inl rfl

theorem succeeds_of_offer {parent next : Candidate α}
    (success : offer wheel plan problem (some bounds) p parent source = .ok next source') :
    parent.Succeeds problem bounds plan.timeWeight next := by
  rcases offer_eq_ok success with kept | ⟨mate, child, _, _, _, -, -, evaluated, fitter, -⟩
  · exact .inl kept
  · exact .inr ⟨Candidate.scored_of_evaluate evaluated, fitter⟩

/-- Every parent is offered a child, and what comes of it takes the place of the parent. -/
theorem offers_of_offerEach {bounds : Option (Bounds α)} {parents members : List (Candidate α)}
    (success : offerEach wheel plan problem bounds p parents source = .ok members source') :
    List.Forall₂ (fun parent next => ∃ before after,
      offer wheel plan problem bounds p parent before = .ok next after) parents members := by
  induction parents generalizing source members with
  | nil =>
      cases success
      exact .nil
  | cons parent rest ih =>
      obtain ⟨next, middle, offered, success⟩ := bind_eq_ok.1 success
      obtain ⟨others, _, tail, success⟩ := bind_eq_ok.1 success
      cases success
      exact .cons ⟨source, middle, offered⟩ (ih tail)

theorem succeeds_of_offerEach {parents members : List (Candidate α)}
    (success : offerEach wheel plan problem (some bounds) p parents source =
      .ok members source') :
    List.Forall₂ (Candidate.Succeeds problem bounds plan.timeWeight) parents members :=
  (offers_of_offerEach success).imp fun _ _ ⟨_, _, offered⟩ => succeeds_of_offer offered

theorem replacePass_eq_ok (success : replacePass wheel plan problem s = .ok () t) :
    ∃ members source, offerEach wheel plan problem s.bounds s.population s.population.members
        s.source = .ok members source ∧
      t = { s with source, population := { s.population with members } } := by
  obtain ⟨_, _, found, success⟩ := bind_eq_ok.1 success
  cases found
  obtain ⟨members, _, drawn, success⟩ := bind_eq_ok.1 success
  obtain ⟨source, offered, rfl⟩ := onSource_eq_ok_iff.1 drawn
  cases success
  exact ⟨members, source, offered, rfl⟩

theorem succeeds_of_replacePass (known : s.bounds = some bounds)
    (success : replacePass wheel plan problem s = .ok () t) :
    List.Forall₂ (Candidate.Succeeds problem bounds plan.timeWeight) s.population.members
      t.population.members := by
  obtain ⟨members, source, offered, rfl⟩ := replacePass_eq_ok success
  rw [known] at offered
  exact succeeds_of_offerEach offered

omit [Scalar α] [Source σ α] in
/-- Every slot is filled by a copy for it. -/
theorem copied_of_copies {slots : List Nat} {kept : List (Candidate α)}
    (success : copies wheel plan p slots source = .ok kept source') :
    List.Forall₂ (fun index c => ∃ before after, copyFor wheel plan p index before = .ok c after)
      slots kept := by
  induction slots generalizing source kept with
  | nil =>
      cases success
      exact .nil
  | cons index rest ih =>
      obtain ⟨c, middle, copied, success⟩ := bind_eq_ok.1 success
      obtain ⟨others, _, tail, success⟩ := bind_eq_ok.1 success
      cases success
      exact .cons ⟨source, middle, copied⟩ (ih tail)

omit [Scalar α] [Source σ α] in
/-- The slots of the first ranks hold copies of the members of these ranks. -/
theorem elites_of_copies {slots : List Nat} {kept : List (Candidate α)}
    (success : copies wheel plan p slots source = .ok kept source') :
    List.Forall₂ (fun index c => index < plan.elitism → p.members[index]? = some c)
      slots kept := by
  refine (copied_of_copies success).imp fun index c ⟨_, _, copied⟩ elite => ?_
  rw [copyFor, if_pos elite] at copied
  exact getElem?_of_nth (ofResult_eq_ok.1 copied).1

/-- The children bred from a population of some size leave a slot for a copy. -/
def LeavesCopy (plan : Plan α) (size : Nat) : Prop :=
  ∀ pairs, pairCount plan size = .ok pairs → 2 * pairs < size

/-- Breeding copies into the slots that the pairs leave, and then makes the pairs. -/
theorem breed_eq_ok {bred : Population α}
    (success : breed wheel plan p source = .ok bred source') :
    ∃ pairs kept middle children, pairCount plan p.size = .ok pairs ∧
      copies wheel plan p (List.range (p.size - 2 * pairs).toNat) source = .ok kept middle ∧
      litter wheel p pairs.toNat middle = .ok children source' ∧
      bred.members = kept ++ children := by
  obtain ⟨pairs, _, given, rest⟩ := bind_eq_ok.1 success
  obtain ⟨counted, rfl⟩ := ofResult_eq_ok.1 given
  obtain ⟨kept, middle, copied, rest⟩ := bind_eq_ok.1 rest
  obtain ⟨children, _, born, rest⟩ := bind_eq_ok.1 rest
  cases rest
  exact ⟨pairs, kept, middle, children, counted, copied, born, rfl⟩

/-- The member in front is the first to be copied. -/
theorem head_of_breed {bred : Population α} (elitist : 0 < plan.elitism)
    (room : LeavesCopy plan p.size)
    (success : breed wheel plan p source = .ok bred source') :
    bred.members.head? = p.members.head? := by
  obtain ⟨pairs, kept, _, children, counted, copied, -, members⟩ := breed_eq_ok success
  have few := room pairs counted
  obtain ⟨slots, enough⟩ : ∃ slots, ((p.size : Int) - 2 * pairs).toNat = slots + 1 :=
    Nat.exists_eq_succ_of_ne_zero (by omega)
  rw [enough, List.range_succ_eq_map] at copied
  obtain ⟨c, others, first, -, rfl⟩ := List.forall₂_cons_left_iff.1 (elites_of_copies copied)
  have front : p.members.head? = some c := List.head?_eq_getElem?.trans (first elitist)
  rw [front, members]
  rfl

/-- The members that a generation breeds, after mutation. The population stays as it is. -/
def spawn (wheel : Wheel σ α) (plan : Plan α) : SearchM σ α (Population α) := do
  let p ← getPopulation
  let bred ← onSource (breed wheel plan p)
  let (_, mutated) ← aside bred (mutate plan)
  pure mutated

/-- The pool of the next generation: the members after replacing and mutation, or the spawned ones,
in front of the present ones where these are merged. -/
def gather (wheel : Wheel σ α) (plan : Plan α) (problem : Problem α) :
    SearchM σ α (Population α) := do
  modify fun s => { s with journal := [] }
  match plan.strategy with
  | .replace => do
    replacePass wheel plan problem
    mutate plan
    getPopulation
  | .grow mergeParents => do
    let p ← getPopulation
    let spawned ← spawn wheel plan
    pure (if mergeParents then { spawned with members := spawned.members ++ p.members }
      else spawned)

section Stages

omit [Scalar α] [Source σ α] in
/-- A pool that is worked on aside and then set is one worked on in place. -/
theorem set_aside_eq_ok_iff {pool : Population α} {act : SearchM σ α Unit} :
    (do
      let (_, next) ← aside pool act
      setPopulation next : SearchM σ α Unit) s = .ok () t ↔
      act { s with population := pool } = .ok () t := by
  rw [bind_eq_ok]
  constructor
  · rintro ⟨⟨_, next⟩, u, worked, set⟩
    obtain ⟨v, inner, rfl, rfl⟩ := aside_eq_ok_iff.1 worked
    cases set
    exact inner
  · intro inner
    exact ⟨((), t.population), _, aside_eq_ok_iff.2 ⟨t, inner, rfl, rfl⟩, rfl⟩

theorem evolveInPlace_eq_ok_iff :
    evolveInPlace wheel plan problem s = .ok () t ↔
      ∃ replaced mutated, replacePass wheel plan problem s = .ok () replaced ∧
        mutate plan replaced = .ok () mutated ∧
        (do evaluate plan problem; select plan : SearchM σ α Unit) mutated = .ok () t := by
  constructor
  · intro success
    obtain ⟨_, replaced, passed, rest⟩ := bind_eq_ok.1 success
    obtain ⟨_, mutated, changed, rest⟩ := bind_eq_ok.1 rest
    exact ⟨replaced, mutated, passed, changed, rest⟩
  · rintro ⟨replaced, mutated, passed, changed, rest⟩
    exact bind_ok passed (bind_ok changed rest)

theorem evolve_eq_evolveInPlace (replaces : plan.strategy = .replace) (s : Search σ α) :
    evolve wheel plan problem s = evolveInPlace wheel plan problem { s with journal := [] } := by
  unfold evolve
  rw [replaces]
  rfl

theorem evolveByBreeding_eq_ok_iff {mergeParents : Bool} :
    evolveByBreeding mergeParents wheel plan problem s = .ok () t ↔
      ∃ spawned u, spawn wheel plan s = .ok spawned u ∧
        (do evaluate plan problem; select plan : SearchM σ α Unit) { u with
          population :=
            if mergeParents then { spawned with members := spawned.members ++ s.population.members }
            else spawned } = .ok () t := by
  constructor
  · intro success
    obtain ⟨_, _, found, rest⟩ := bind_eq_ok.1 success
    cases found
    obtain ⟨bred, v, drawn, rest⟩ := bind_eq_ok.1 rest
    obtain ⟨⟨_, spawned⟩, u, changed, rest⟩ := bind_eq_ok.1 rest
    refine ⟨spawned, u, bind_ok rfl (bind_ok drawn (bind_ok changed rfl)), ?_⟩
    cases mergeParents with
    | false => exact set_aside_eq_ok_iff.1 rest
    | true =>
        obtain ⟨_, _, emptied, rest⟩ := bind_eq_ok.1 rest
        cases emptied
        obtain ⟨pool, _, joined, rest⟩ := bind_eq_ok.1 rest
        cases joined
        have inner := set_aside_eq_ok_iff.1 rest
        exact inner
  · rintro ⟨spawned, u, born, rest⟩
    obtain ⟨_, _, found, born⟩ := bind_eq_ok.1 born
    cases found
    obtain ⟨bred, v, drawn, born⟩ := bind_eq_ok.1 born
    obtain ⟨⟨_, _⟩, _, changed, born⟩ := bind_eq_ok.1 born
    cases born
    refine bind_ok rfl (bind_ok drawn (bind_ok changed ?_))
    cases mergeParents with
    | false => exact set_aside_eq_ok_iff.2 rest
    | true => exact bind_ok rfl (set_aside_eq_ok_iff.2 rest)

/-- A generation gathers its pool, evaluates it and cuts it to size. -/
theorem evolve_eq_ok_iff :
    evolve wheel plan problem s = .ok () t ↔
      ∃ pool u, gather wheel plan problem s = .ok pool u ∧
        (do evaluate plan problem; select plan : SearchM σ α Unit) { u with population := pool } =
          .ok () t := by
  have cleared : evolve wheel plan problem s = .ok () t ↔
      (match plan.strategy with
        | .replace => evolveInPlace wheel plan problem
        | .grow mergeParents => evolveByBreeding mergeParents wheel plan problem)
        { s with journal := [] } = .ok () t := Iff.rfl
  rw [cleared]
  unfold gather
  cases plan.strategy with
  | replace =>
      simp only [evolveInPlace_eq_ok_iff]
      constructor
      · rintro ⟨replaced, mutated, passed, changed, rest⟩
        refine ⟨mutated.population, mutated, ?_, rest⟩
        exact bind_ok rfl (bind_ok passed (bind_ok changed rfl))
      · rintro ⟨pool, u, gathered, rest⟩
        obtain ⟨_, _, begun, gathered⟩ := bind_eq_ok.1 gathered
        cases begun
        obtain ⟨_, replaced, passed, gathered⟩ := bind_eq_ok.1 gathered
        obtain ⟨_, mutated, changed, gathered⟩ := bind_eq_ok.1 gathered
        cases gathered
        exact ⟨replaced, u, passed, changed, rest⟩
  | grow mergeParents =>
      simp only [evolveByBreeding_eq_ok_iff]
      constructor
      · rintro ⟨spawned, u, born, rest⟩
        exact ⟨_, u, bind_ok rfl (bind_ok rfl (bind_ok born rfl)), rest⟩
      · rintro ⟨pool, u, gathered, rest⟩
        obtain ⟨_, _, begun, gathered⟩ := bind_eq_ok.1 gathered
        cases begun
        obtain ⟨_, _, found, gathered⟩ := bind_eq_ok.1 gathered
        cases found
        obtain ⟨spawned, _, born, gathered⟩ := bind_eq_ok.1 gathered
        cases gathered
        exact ⟨spawned, u, born, rest⟩

end Stages

/-- A pool is what replacing and mutation leave, or what is spawned, alone or in front of the
present members. -/
theorem gather_eq_ok {pool : Population α} (success : gather wheel plan problem s = .ok pool t) :
    (plan.strategy = .replace ∧ ∃ replaced,
      replacePass wheel plan problem { s with journal := [] } = .ok () replaced ∧
      mutate plan replaced = .ok () t ∧ pool = t.population) ∨
    ∃ mergeParents spawned, plan.strategy = .grow mergeParents ∧
      spawn wheel plan { s with journal := [] } = .ok spawned t ∧
      pool =
        if mergeParents then { spawned with members := spawned.members ++ s.population.members }
        else spawned := by
  obtain ⟨_, _, cleared, success⟩ := bind_eq_ok.1 success
  cases cleared
  cases strategy : plan.strategy with
  | replace =>
      simp only [strategy] at success
      obtain ⟨_, replaced, passed, success⟩ := bind_eq_ok.1 success
      obtain ⟨_, mutated, changed, success⟩ := bind_eq_ok.1 success
      cases success
      exact .inl ⟨rfl, replaced, passed, changed, rfl⟩
  | grow mergeParents =>
      simp only [strategy] at success
      obtain ⟨_, _, found, success⟩ := bind_eq_ok.1 success
      cases found
      obtain ⟨spawned, _, born, success⟩ := bind_eq_ok.1 success
      cases success
      exact .inr ⟨mergeParents, spawned, rfl, born, rfl⟩

/-- Merging puts the spawned members in front of the present ones. -/
theorem spawned_of_gather (merges : plan.strategy = .grow true) {pool : Population α}
    (success : gather wheel plan problem s = .ok pool t) :
    ∃ spawned, spawn wheel plan { s with journal := [] } = .ok spawned t ∧
      pool.members = spawned.members ++ s.population.members := by
  rcases gather_eq_ok success with ⟨replaces, -⟩ | ⟨mergeParents, spawned, breeds, born, rfl⟩
  · cases merges.symm.trans replaces
  · cases merges.symm.trans breeds
    exact ⟨spawned, born, rfl⟩

omit [Scalar α] [Source σ α] in
theorem keeps_aside {β : Type} {other : Population α} {act : SearchM σ α β}
    (keeps : Keeps act lasting) : Keeps (aside other act) lasting := by
  rintro s ⟨x, q⟩ t success
  obtain ⟨u, inner, -, rfl⟩ := aside_eq_ok_iff.1 success
  have same := keeps _ x u inner
  exact same

theorem keeps_spawn : Keeps (spawn wheel plan : SearchM σ α (Population α)) lasting := by
  apply Keeps.bind (.bind .get fun _ => .pure)
  intro p
  apply Keeps.bind (keeps_onSource fun _ _ => rfl)
  intro bred
  apply Keeps.bind (keeps_aside keeps_mutate)
  intro changed
  exact .pure

theorem keeps_gather : Keeps (gather wheel plan problem) lasting := by
  have cleared : Keeps (modify fun s => { s with journal := [] } : SearchM σ α Unit) lasting :=
    .modify fun _ => rfl
  apply cleared.bind
  intro _
  cases plan.strategy with
  | replace =>
      apply Keeps.bind (keeps_replacePass wheel)
      intro _
      exact Keeps.bind keeps_mutate fun _ => .bind .get fun _ => .pure
  | grow mergeParents =>
      apply Keeps.bind (.bind .get fun _ => .pure)
      intro p
      exact Keeps.bind keeps_spawn fun _ => .pure

/-- However a generation evolves, its population is evaluated and selected at the end. -/
theorem selected_of_evolve (known : s.bounds = some bounds)
    (success : evolve wheel plan problem s = .ok () t) :
    t.population.Selected problem bounds plan.timeWeight ∧ t.bounds = some bounds := by
  obtain ⟨pool, u, gathered, rest⟩ := evolve_eq_ok_iff.1 success
  have lasts := keeps_gather s pool u gathered
  have kept : u.bounds = some bounds := (congrArg Prod.fst lasts).trans known
  exact selected_of_evaluate_select (by exact kept) rest

theorem spawn_eq_ok {spawned : Population α} (success : spawn wheel plan s = .ok spawned t) :
    ∃ bred source u, breed wheel plan s.population s.source = .ok bred source ∧
      mutate plan { s with source, population := bred } = .ok () u ∧ spawned = u.population ∧
      t = { u with population := s.population } := by
  obtain ⟨_, _, found, success⟩ := bind_eq_ok.1 success
  cases found
  obtain ⟨bred, _, drawn, success⟩ := bind_eq_ok.1 success
  obtain ⟨source, born, rfl⟩ := onSource_eq_ok_iff.1 drawn
  obtain ⟨⟨_, mutated⟩, _, changed, success⟩ := bind_eq_ok.1 success
  cases success
  obtain ⟨u, inner, rfl, rfl⟩ := aside_eq_ok_iff.1 changed
  exact ⟨bred, source, u, born, inner, rfl, rfl⟩

theorem head_of_spawn {spawned : Population α} (elitist : 0 < plan.elitism)
    (room : LeavesCopy plan s.population.size)
    (success : spawn wheel plan s = .ok spawned t) :
    spawned.members.head? = s.population.members.head? := by
  obtain ⟨bred, source, u, born, inner, rfl, -⟩ := spawn_eq_ok success
  exact ((sameFront_mutate inner).head elitist).trans (head_of_breed elitist room born)

/-- The plan leaves the best of a population of some size an heir in the next pool: it protects a
rank from mutation and replaces, it merges, or it protects a rank and breeding leaves a slot for a
copy. -/
def KeepsBest (plan : Plan α) (size : Nat) : Prop :=
  match plan.strategy with
  | .replace => 0 < plan.elitism
  | .grow true => True
  | .grow false => 0 < plan.elitism ∧ LeavesCopy plan size

/-- The next pool holds the member in front, or one that is no less fit in its place. -/
theorem heir_of_gather {best : Candidate α} {pool : Population α}
    (keeps : KeepsBest plan s.population.size) (known : s.bounds = some bounds)
    (front : s.population.members.head? = some best)
    (scored : best.Scored problem bounds plan.timeWeight) (compares : best.fitness ≤ best.fitness)
    (gathered : gather wheel plan problem s = .ok pool t) :
    ∃ heir ∈ pool.members,
      heir.Scored problem bounds plan.timeWeight ∧ best.fitness ≤ heir.fitness := by
  unfold KeepsBest at keeps
  rcases gather_eq_ok gathered with
    ⟨replaces, replaced, passed, changed, rfl⟩ | ⟨mergeParents, spawned, breeds, born, rfl⟩
  · simp only [replaces] at keeps
    have successors := succeeds_of_replacePass (by exact known) passed
    obtain ⟨others, split⟩ := List.head?_eq_some_iff.1 front
    rw [split, List.forall₂_cons_left_iff] at successors
    obtain ⟨next, rest, succeeds, -, members⟩ := successors
    have head : t.population.members.head? = some next := by
      rw [(sameFront_mutate changed).head keeps, members]
      rfl
    refine ⟨next, List.mem_of_mem_head? head, ?_⟩
    rcases succeeds with rfl | ⟨evaluated, fitter⟩
    · exact ⟨scored, compares⟩
    · exact ⟨evaluated, fitter⟩
  · simp only [breeds] at keeps
    refine ⟨best, ?_, scored, compares⟩
    cases mergeParents with
    | true => exact List.mem_append_right _ (List.mem_of_mem_head? front)
    | false =>
        have head := (head_of_spawn keeps.1 (by exact keeps.2) born).trans front
        exact List.mem_of_mem_head? head

end Search

end EvoSched
