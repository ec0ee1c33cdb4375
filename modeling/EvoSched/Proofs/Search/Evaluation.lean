import EvoSched.Proofs.Computation
import EvoSched.Proofs.Population
import EvoSched.Search

set_option autoImplicit false

namespace EvoSched

variable {σ α : Type}

namespace Search

/-- A step that reports something and leaves all else as it was. -/
def Prints (act : SearchM σ α Unit) : Prop := ∀ s, ∃ printed, act s = .ok () { s with printed }

theorem Prints.bind {first second : SearchM σ α Unit} (prints : Prints first)
    (others : Prints second) : Prints (first >>= fun _ => second) := by
  intro s
  obtain ⟨middle, begun⟩ := prints s
  obtain ⟨printed, ended⟩ := others { s with printed := middle }
  exact ⟨printed, bind_ok begun ended⟩

theorem Prints.none : Prints (pure () : SearchM σ α Unit) := fun s => ⟨s.printed, rfl⟩

theorem prints_say (line : String) : Prints (say line : SearchM σ α Unit) := fun _ => ⟨_, rfl⟩

theorem prints_sayEach (lines : List String) : Prints (sayEach lines : SearchM σ α Unit) := by
  induction lines with
  | nil => exact .none
  | cons line rest ih => exact (prints_say line).bind ih

theorem evaluateInOrder_eq_iff {evaluate : Candidate α → Except Fault (Candidate α)}
    {members evaluated : List (Candidate α)} :
    evaluateInOrder evaluate members = (evaluated, none) ↔
      members.mapM evaluate = .ok evaluated := by
  rw [mapM_eq_ok_iff]
  induction members generalizing evaluated with
  | nil => simp [evaluateInOrder, eq_comm]
  | cons c rest ih =>
      rw [evaluateInOrder, List.forall₂_cons_left_iff]
      cases first : evaluate c with
      | error fault =>
          constructor
          · intro same
            cases same
          · rintro ⟨d, others, absurd, -⟩
            cases absurd
      | ok d =>
          simp only [Prod.mk.injEq]
          constructor
          · rintro ⟨rfl, finished⟩
            exact ⟨d, _, rfl, ih.1 (Prod.ext rfl finished), rfl⟩
          · rintro ⟨_, others, same, tail, rfl⟩
            cases same
            rw [ih.2 tail]
            exact ⟨rfl, rfl⟩

/-- The members before the first that fails are evaluated, and it and those behind it stay as they
are. -/
theorem evaluateInOrder_of_error {evaluate : Candidate α → Except Fault (Candidate α)}
    {before after evaluated : List (Candidate α)} {failing : Candidate α} {fault : Fault}
    (done : before.mapM evaluate = .ok evaluated) (failed : evaluate failing = .error fault) :
    evaluateInOrder evaluate (before ++ failing :: after) =
      (evaluated ++ failing :: after, some fault) := by
  rw [mapM_eq_ok_iff] at done
  induction done with
  | nil => simp [evaluateInOrder, failed]
  | cons first others ih => simp [evaluateInOrder, first, ih]

/-- One member after the other. -/
theorem inOrder_eq_ok_iff {evaluate : Candidate α → Except Fault (Candidate α)}
    {members : List (Candidate α)} {t : Search σ α}
    (leave finish : List (Candidate α) → Search σ α) :
    (match evaluateInOrder evaluate members with
      | (evaluated, some fault) => EStateM.Result.error fault (leave evaluated)
      | (evaluated, none) => .ok () (finish evaluated)) = .ok () t ↔
      ∃ evaluated, members.mapM evaluate = .ok evaluated ∧ t = finish evaluated := by
  simp only [← evaluateInOrder_eq_iff]
  cases evaluateInOrder evaluate members with
  | mk evaluated outcome =>
      cases outcome with
      | some fault => simp
      | none => simp [eq_comm]

theorem knownBounds_eq_ok_iff {bounds : Bounds α} {s t : Search σ α} :
    knownBounds s = .ok bounds t ↔ s.bounds = some bounds ∧ t = s := by
  unfold knownBounds
  rw [bind_eq_ok]
  constructor
  · rintro ⟨_, _, found, rest⟩
    cases found
    obtain ⟨required, same⟩ := ofResult_eq_ok.1 rest
    refine ⟨?_, same⟩
    unfold requireBounds at required
    split at required
    · cases required
      assumption
    · cases required
  · rintro ⟨known, rfl⟩
    refine ⟨t, t, rfl, ofResult_eq_ok.2 ⟨?_, rfl⟩⟩
    rw [known]
    rfl

end Search

variable [Scalar α]

/-- Time, cost and fitness are those of the outcome that the genes have now. -/
def Candidate.Scored (problem : Problem α) (bounds : Bounds α) (timeWeight : α)
    (c : Candidate α) : Prop :=
  ∃ outcome, problem.outcome c.genes = .ok outcome ∧ c.time = outcome.makespan ∧
    c.cost = outcome.totalCost ∧
    c.fitness = bounds.fitness timeWeight outcome.makespan outcome.totalCost

/-- All members are scored, and the total is the sum of their fitness in their present order. -/
structure Population.Coherent (problem : Problem α) (bounds : Bounds α) (timeWeight : α)
    (p : Population α) : Prop where
  scored : ∀ c ∈ p.members, c.Scored problem bounds timeWeight
  total : p.total = Population.totalFitness p.members

/-- Sorted and cut from a pool of scored candidates. -/
def Population.Selected (problem : Problem α) (bounds : Bounds α) (timeWeight : α)
    (p : Population α) : Prop :=
  ∃ (pool : Population α) (position : Int),
    (∀ c ∈ pool.members, c.Scored problem bounds timeWeight) ∧ p = pool.truncate position

theorem Population.Selected.coherent {problem : Problem α} {bounds : Bounds α} {timeWeight : α}
    {p : Population α} (selected : p.Selected problem bounds timeWeight) :
    p.Coherent problem bounds timeWeight := by
  obtain ⟨pool, position, scored, rfl⟩ := selected
  exact ⟨fun c member => scored c (Population.mem_truncate member), rfl⟩

theorem Candidate.evaluate_eq_ok_iff {problem : Problem α} {bounds : Bounds α} {timeWeight : α}
    {c d : Candidate α} :
    c.evaluate problem bounds timeWeight = .ok d ↔
      ∃ outcome, problem.outcome c.genes = .ok outcome ∧
        c.scored bounds timeWeight outcome = d := by
  rw [Candidate.evaluate, result_bind_eq_ok]
  constructor
  · rintro ⟨outcome, success, same⟩
    cases same
    exact ⟨outcome, success, rfl⟩
  · rintro ⟨outcome, success, rfl⟩
    exact ⟨outcome, success, rfl⟩

theorem Candidate.evaluate_eq_error_iff {problem : Problem α} {bounds : Bounds α} {timeWeight : α}
    {c : Candidate α} {fault : Fault} :
    c.evaluate problem bounds timeWeight = .error fault ↔
      problem.outcome c.genes = .error fault := by
  rw [Candidate.evaluate, result_bind_eq_error]
  constructor
  · rintro (failed | ⟨outcome, -, absurd⟩)
    · exact failed
    · cases absurd
  · exact .inl

theorem Candidate.scored_of_evaluate {problem : Problem α} {bounds : Bounds α} {timeWeight : α}
    {c d : Candidate α} (success : c.evaluate problem bounds timeWeight = .ok d) :
    d.Scored problem bounds timeWeight := by
  obtain ⟨outcome, found, rfl⟩ := Candidate.evaluate_eq_ok_iff.1 success
  exact ⟨outcome, found, rfl, rfl, rfl⟩

/-- Evaluation changes nothing about a candidate that is scored already. -/
theorem Candidate.Scored.evaluate {problem : Problem α} {bounds : Bounds α} {timeWeight : α}
    {c : Candidate α} (scored : c.Scored problem bounds timeWeight) :
    c.evaluate problem bounds timeWeight = .ok c := by
  obtain ⟨genes, top, fitness, time, cost⟩ := c
  obtain ⟨outcome, found, rfl, rfl, rfl⟩ := scored
  exact Candidate.evaluate_eq_ok_iff.2 ⟨outcome, found, rfl⟩

theorem Candidate.mapM_evaluate_of_scored {problem : Problem α} {bounds : Bounds α} {timeWeight : α}
    {members : List (Candidate α)} (scored : ∀ c ∈ members, c.Scored problem bounds timeWeight) :
    members.mapM (Candidate.evaluate problem bounds timeWeight) = .ok members := by
  rw [mapM_eq_ok_iff, List.forall₂_same]
  intro c member
  exact (scored c member).evaluate

namespace Search

/-- Scoring all members once all outcomes are known is scoring them one by one. -/
theorem mapM_evaluate_eq_ok_iff {problem : Problem α} {bounds : Bounds α} {timeWeight : α}
    {members evaluated : List (Candidate α)} :
    members.mapM (Candidate.evaluate problem bounds timeWeight) = .ok evaluated ↔
      ∃ outcomes, (members.mapM fun c => problem.outcome c.genes) = .ok outcomes ∧
        evaluated =
          List.zipWith (fun c outcome => c.scored bounds timeWeight outcome) members outcomes := by
  simp only [mapM_eq_ok_iff, Candidate.evaluate_eq_ok_iff]
  induction members generalizing evaluated with
  | nil => simp
  | cons c rest ih =>
      rw [List.forall₂_cons_left_iff]
      constructor
      · rintro ⟨d, others, ⟨outcome, first, rfl⟩, tail, rfl⟩
        obtain ⟨outcomes, known, rfl⟩ := ih.1 tail
        exact ⟨outcome :: outcomes, .cons first known, rfl⟩
      · rintro ⟨outcomes, known, rfl⟩
        obtain ⟨outcome, others, first, tail, rfl⟩ := List.forall₂_cons_left_iff.1 known
        exact ⟨_, _, ⟨outcome, first, rfl⟩, ih.2 ⟨others, tail, rfl⟩, rfl⟩

/-- All members at once: the outcomes first, then the scores. -/
theorem together_eq_ok_iff {problem : Problem α} {bounds : Bounds α} {timeWeight : α}
    {members : List (Candidate α)} {s t : Search σ α} (finish : List (Candidate α) → Search σ α) :
    (match members.mapM fun c => problem.outcome c.genes with
      | .error fault => EStateM.Result.error fault s
      | .ok outcomes => .ok () (finish
          (List.zipWith (fun (c : Candidate α) outcome => c.scored bounds timeWeight outcome)
            members outcomes))) = .ok () t ↔
      ∃ evaluated, members.mapM (Candidate.evaluate problem bounds timeWeight) = .ok evaluated ∧
        t = finish evaluated := by
  simp only [mapM_evaluate_eq_ok_iff]
  cases members.mapM fun c => problem.outcome c.genes with
  | error fault =>
      constructor
      · intro absurd
        cases absurd
      · rintro ⟨_, ⟨outcomes, absurd, -⟩, -⟩
        cases absurd
  | ok outcomes =>
      constructor
      · intro success
        cases success
        exact ⟨_, ⟨outcomes, rfl, rfl⟩, rfl⟩
      · rintro ⟨_, ⟨_, same, rfl⟩, rfl⟩
        cases same
        rfl

/-- Evaluation needs bounds and outcomes for all members. It scores them, sums up in their order and
then sorts; the number of workers makes no difference. -/
theorem evaluate_eq_ok_iff {plan : Plan α} {problem : Problem α} {s t : Search σ α} :
    evaluate plan problem s = .ok () t ↔
      ∃ bounds evaluated, s.bounds = some bounds ∧
        s.population.members.mapM (Candidate.evaluate problem bounds plan.timeWeight) =
          .ok evaluated ∧
        t = { s with
              population :=
                ({ s.population with members := evaluated } : Population α).recompute.sort } := by
  unfold evaluate
  cases s.bounds with
  | none =>
      constructor
      · intro absurd
        cases absurd
      · rintro ⟨bounds, evaluated, absurd, -⟩
        cases absurd
  | some bounds =>
      extract_lets p finish
      simp only [Option.some.injEq, exists_and_left, exists_eq_left']
      split
      · exact together_eq_ok_iff finish
      · exact inOrder_eq_ok_iff _ finish

section Faults

variable {plan : Plan α} {problem : Problem α} {bounds : Bounds α} {s : Search σ α}

/-- All members before `failing` can be evaluated, with `evaluated` as their results, and `failing`
cannot. -/
structure HaltsAt (problem : Problem α) (bounds : Bounds α) (timeWeight : α)
    (members before : List (Candidate α)) (failing : Candidate α)
    (after evaluated : List (Candidate α)) (fault : Fault) : Prop where
  split : members = before ++ failing :: after
  scored : before.mapM (Candidate.evaluate problem bounds timeWeight) = .ok evaluated
  failed : problem.outcome failing.genes = .error fault

theorem exists_haltsAt {timeWeight : α} {members : List (Candidate α)} {fault : Fault}
    (failed : members.mapM (Candidate.evaluate problem bounds timeWeight) = .error fault) :
    ∃ before failing after evaluated,
      HaltsAt problem bounds timeWeight members before failing after evaluated fault := by
  obtain ⟨before, failing, after, evaluated, split, scored, failure⟩ := mapM_eq_error_iff.1 failed
  exact ⟨before, failing, after, evaluated, split, scored,
    Candidate.evaluate_eq_error_iff.1 failure⟩

/-- The workers fail with the first member that has no outcome, in the order of the members. -/
theorem HaltsAt.outcomes {timeWeight : α} {members before : List (Candidate α)}
    {failing : Candidate α} {after evaluated : List (Candidate α)} {fault : Fault}
    (halts : HaltsAt problem bounds timeWeight members before failing after evaluated fault) :
    (members.mapM fun c => problem.outcome c.genes) = .error fault := by
  obtain ⟨outcomes, known, -⟩ := mapM_evaluate_eq_ok_iff.1 halts.scored
  exact mapM_eq_error_iff.2 ⟨before, failing, after, outcomes, halts.split, known, halts.failed⟩

/-- One by one, the members before the first without an outcome are scored. -/
theorem evaluate_inOrder_of_haltsAt (single : ¬ (1 < plan.workers ∧ 1 < s.population.size))
    (known : s.bounds = some bounds) {before : List (Candidate α)} {failing : Candidate α}
    {after evaluated : List (Candidate α)} {fault : Fault}
    (halts : HaltsAt problem bounds plan.timeWeight s.population.members before failing after
      evaluated fault) :
    evaluate plan problem s = .error fault
      { s with population := { s.population with members := evaluated ++ failing :: after } } := by
  have order : evaluateInOrder (Candidate.evaluate problem bounds plan.timeWeight)
      (before ++ failing :: after) = (evaluated ++ failing :: after, some fault) :=
    evaluateInOrder_of_error halts.scored (Candidate.evaluate_eq_error_iff.2 halts.failed)
  rw [← halts.split] at order
  unfold evaluate
  rw [known]
  simp only [if_neg single, order]

/-- Several workers leave all members as they were. A single member is left to one worker, which has
none to score before it. -/
theorem evaluate_several_of_haltsAt (several : 1 < plan.workers) (known : s.bounds = some bounds)
    {before : List (Candidate α)} {failing : Candidate α} {after evaluated : List (Candidate α)}
    {fault : Fault}
    (halts : HaltsAt problem bounds plan.timeWeight s.population.members before failing after
      evaluated fault) :
    evaluate plan problem s = .error fault s := by
  by_cases shared : 1 < s.population.size
  · unfold evaluate
    rw [known]
    simp only [if_pos (And.intro several shared), halts.outcomes]
  · have length := congrArg List.length halts.split
    rw [List.length_append, List.length_cons] at length
    rw [Population.size] at shared
    obtain rfl : before = [] := List.length_eq_zero_iff.1 (by omega)
    obtain rfl : evaluated = [] := Except.ok.inj halts.scored.symm
    have stopped := evaluate_inOrder_of_haltsAt (fun both => shared both.2) known halts
    rwa [List.nil_append, ← List.nil_append (failing :: after), ← halts.split] at stopped

theorem evaluate_of_boundless (none : s.bounds = none) :
    evaluate plan problem s = .error .boundsMissing s := by
  unfold evaluate
  rw [none]

end Faults

theorem scored_of_evaluate {plan : Plan α} {problem : Problem α} {bounds : Bounds α}
    {s t : Search σ α} (known : s.bounds = some bounds)
    (success : evaluate plan problem s = .ok () t) :
    (∀ c ∈ t.population.members, c.Scored problem bounds plan.timeWeight) ∧
      t.bounds = some bounds := by
  obtain ⟨_, evaluated, same, each, rfl⟩ := evaluate_eq_ok_iff.1 success
  cases known.symm.trans same
  refine ⟨fun c member => ?_, known⟩
  have kept : c ∈ evaluated := Population.mem_sorted.1 member
  obtain ⟨before, -, first⟩ := exists_of_mem_mapM each kept
  exact Candidate.scored_of_evaluate first

theorem mem_of_evaluate {plan : Plan α} {problem : Problem α} {bounds : Bounds α}
    {s t : Search σ α} {c : Candidate α} (known : s.bounds = some bounds)
    (scored : c.Scored problem bounds plan.timeWeight) (member : c ∈ s.population.members)
    (success : evaluate plan problem s = .ok () t) : c ∈ t.population.members := by
  obtain ⟨_, evaluated, same, each, rfl⟩ := evaluate_eq_ok_iff.1 success
  cases known.symm.trans same
  obtain ⟨d, inside, first⟩ := exists_image_of_mapM each member
  cases scored.evaluate.symm.trans first
  exact Population.mem_sorted.2 inside

theorem prints_describe (title : String) : Prints (describe title : SearchM σ α Unit) := by
  intro s
  obtain ⟨printed, success⟩ := (prints_say _).bind (prints_sayEach
    (s.population.summary.map ("    " ++ ·))) s
  exact ⟨printed, bind_ok rfl success⟩

/-- Selection always succeeds; apart from the report it truncates the population. -/
theorem select_eq (plan : Plan α) (s : Search σ α) :
    ∃ printed, select plan s =
      .ok () { s with population := s.population.truncate plan.targetSize, printed } := by
  unfold select
  cases plan.verbose with
  | false => exact ⟨s.printed, rfl⟩
  | true =>
      obtain ⟨before, first⟩ := prints_describe "Before Selection" s
      obtain ⟨printed, last⟩ := prints_describe "After Selection"
        { s with population := s.population.truncate plan.targetSize, printed := before }
      exact ⟨printed, bind_ok first (bind_ok rfl (bind_ok rfl last))⟩

theorem evaluate_select_eq_ok {plan : Plan α} {problem : Problem α} {s t : Search σ α}
    (success : (do evaluate plan problem; select plan : SearchM σ α Unit) s = .ok () t) :
    ∃ u, evaluate plan problem s = .ok () u ∧ t.bounds = u.bounds ∧
      t.population = u.population.truncate plan.targetSize := by
  obtain ⟨_, u, evaluated, cut⟩ := bind_eq_ok.1 success
  obtain ⟨printed, same⟩ := select_eq plan u
  cases cut.symm.trans same
  exact ⟨u, evaluated, rfl, rfl⟩

/-- A pool whose scores descend already, and that is small enough, is scored and keeps its order. -/
theorem evaluate_select_of_descending [OrderedScalar α] {plan : Plan α} {problem : Problem α}
    {bounds : Bounds α} {s : Search σ α} {members : List (Candidate α)}
    (quiet : plan.verbose = false) (known : s.bounds = some bounds)
    (each : s.population.members.mapM (Candidate.evaluate problem bounds plan.timeWeight) =
      .ok members)
    (comparable : ∀ c ∈ members, Population.isComparable c = true)
    (descending : Population.Descending members) (few : members.length ≤ plan.targetSize) :
    (do evaluate plan problem; select plan : SearchM σ α Unit) s =
      .ok () { s with population := ⟨members, Population.totalFitness members⟩ } := by
  have ordered := Population.sorted_of_descending comparable descending
  have sorted_pool : ({ s.population with members } : Population α).recompute.sort =
      ⟨members, Population.totalFitness members⟩ := by
    rw [Population.sort, Population.recompute, ordered]
  have cut : (⟨members, Population.totalFitness members⟩ : Population α).truncate plan.targetSize =
      ⟨members, Population.totalFitness members⟩ := by
    have kept := Population.members_truncate ⟨members, Population.totalFitness members⟩
      plan.targetSize
    rw [ordered, List.take_of_length_le few] at kept
    exact congrArg (fun kept => (⟨kept, Population.totalFitness kept⟩ : Population α)) kept
  have evaluated := evaluate_eq_ok_iff.2 ⟨bounds, members, known, each, rfl⟩
  rw [sorted_pool] at evaluated
  refine bind_ok evaluated ?_
  unfold select
  rw [quiet]
  refine bind_ok rfl (bind_ok rfl ?_)
  rw [cut]
  rfl

/-- Evaluation and selection leave a selected population. -/
theorem selected_of_evaluate_select {plan : Plan α} {problem : Problem α} {bounds : Bounds α}
    {s t : Search σ α} (known : s.bounds = some bounds)
    (success : (do evaluate plan problem; select plan : SearchM σ α Unit) s = .ok () t) :
    t.population.Selected problem bounds plan.timeWeight ∧ t.bounds = some bounds := by
  obtain ⟨middle, evaluated, sameBounds, population⟩ := evaluate_select_eq_ok success
  obtain ⟨scored, kept⟩ := scored_of_evaluate known evaluated
  exact ⟨⟨middle.population, plan.targetSize, scored, population⟩, sameBounds.trans kept⟩

end Search

end EvoSched
