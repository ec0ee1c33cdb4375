import EvoSched.Proofs.Search.Evolution
import EvoSched.Proofs.Search.Evaluation

set_option autoImplicit false

namespace EvoSched

variable {σ α : Type}

namespace Search

/-- The same value in states that differ in their reports, or the same fault after the same
draws. -/
inductive Agrees {β : Type} :
    EStateM.Result Fault (Search σ α) β → EStateM.Result Fault (Search σ α) β → Prop
  | ok (x : β) (s : Search σ α) (printed : String) : Agrees (.ok x s) (.ok x { s with printed })
  | error (fault : Fault) {s t : Search σ α} (same : t.source = s.source) :
      Agrees (.error fault s) (.error fault t)

theorem Agrees.of_ok {β : Type} {result result' : EStateM.Result Fault (Search σ α) β} {x : β}
    {s : Search σ α} (agrees : Agrees result result') (success : result = .ok x s) :
    ∃ printed, result' = .ok x { s with printed } := by
  cases agrees with
  | ok y t printed =>
      cases success
      exact ⟨printed, rfl⟩
  | error fault same => cases success

theorem Agrees.of_error {β : Type} {result result' : EStateM.Result Fault (Search σ α) β}
    {fault : Fault} {s : Search σ α} (agrees : Agrees result result')
    (failed : result = .error fault s) : ∃ t, result' = .error fault t ∧ t.source = s.source := by
  cases agrees with
  | ok y t printed => cases failed
  | error fault same =>
      cases failed
      exact ⟨_, rfl, same⟩

def Matches {β : Type} (act act' : SearchM σ α β) : Prop :=
  ∀ s printed, Agrees (act s) (act' { s with printed })

namespace Matches

variable {β γ : Type} {act act' : SearchM σ α β}

theorem pure (x : β) : Matches (Pure.pure x : SearchM σ α β) (Pure.pure x) :=
  fun s printed => .ok x s printed

theorem bind {next next' : β → SearchM σ α γ} (first : Matches act act')
    (second : ∀ x, Matches (next x) (next' x)) : Matches (act >>= next) (act' >>= next') := by
  intro s printed
  have begun := first s printed
  change Agrees (act.bind next s) (act'.bind next' { s with printed })
  unfold EStateM.bind
  generalize act s = result at begun ⊢
  generalize act' { s with printed } = result' at begun ⊢
  cases begun with
  | ok x t printed => exact second x t printed
  | error fault same => exact .error fault same

/-- What reads the state but not the reports. -/
theorem get {next next' : Search σ α → SearchM σ α β}
    (blind : ∀ s printed, next' { s with printed } = next' s)
    (each : ∀ s, Matches (next s) (next' s)) :
    Matches (MonadState.get >>= next) (MonadState.get >>= next') := by
  intro s printed
  change Agrees (next s s) (next' { s with printed } { s with printed })
  rw [blind s printed]
  exact each s s printed

theorem modify {change : Search σ α → Search σ α}
    (blind : ∀ s printed, change { s with printed } = { change s with printed }) :
    Matches (modify change) (modify change) := by
  intro s printed
  change Agrees (.ok () (change s)) (.ok () (change { s with printed }))
  rw [blind s printed]
  exact .ok () (change s) printed

theorem setPopulation (p : Population α) :
    Matches (setPopulation p : SearchM σ α Unit) (Search.setPopulation p) :=
  .modify fun _ _ => rfl

theorem getPopulation :
    Matches (getPopulation : SearchM σ α (Population α)) Search.getPopulation :=
  .get (fun _ _ => rfl) fun _ => .pure _

theorem ofResult (result : Except Fault β) :
    Matches (EvoSched.ofResult result : SearchM σ α β) (EvoSched.ofResult result) := by
  intro s printed
  cases result with
  | ok x => exact .ok x s printed
  | error fault => exact .error fault rfl

theorem onSource (act : Draw σ β) :
    Matches (onSource act : SearchM σ α β) (Search.onSource act) := by
  intro s printed
  unfold Search.onSource
  simp only
  cases act s.source with
  | ok x source => exact .ok x { s with source } printed
  | error fault source => exact .error fault rfl

theorem aside (other : Population α) (same : Matches act act') :
    Matches (aside other act) (Search.aside other act') := by
  intro s printed
  have inner := same { s with population := other } printed
  unfold Search.aside
  simp only at inner ⊢
  generalize act { s with population := other } = result at inner ⊢
  generalize act' { s with population := other, printed } = result' at inner ⊢
  cases inner with
  | ok x t printed => exact .ok _ { t with population := s.population } printed
  | error fault same => exact .error fault same

/-- What only reports, and then gives the same value, matches. -/
theorem of_reports {x : β} (reports : ∀ s, ∃ printed, act s = .ok x { s with printed })
    (reports' : ∀ s, ∃ printed, act' s = .ok x { s with printed }) : Matches act act' := by
  intro s printed
  obtain ⟨first, done⟩ := reports s
  obtain ⟨second, done'⟩ := reports' { s with printed }
  rw [done, done']
  exact .ok x { s with printed := first } second

/-- A report in front makes no difference on either side. -/
theorem prints_left {report : SearchM σ α Unit} (prints : Prints report)
    (same : Matches act act') : Matches (report >>= fun _ => act) act' := by
  intro s printed
  obtain ⟨middle, reported⟩ := prints s
  rw [bind_of_ok reported]
  exact same { s with printed := middle } printed

theorem prints_right {report : SearchM σ α Unit} (prints : Prints report)
    (same : Matches act act') : Matches act (report >>= fun _ => act') := by
  intro s printed
  obtain ⟨middle, reported⟩ := prints { s with printed }
  rw [bind_of_ok reported]
  exact same s middle

end Matches

variable [Scalar α]

/-- Plans that differ at most in their reports, their workers and the number of generations. -/
structure SameSearch (plan plan' : Plan α) : Prop where
  populationSize : plan'.populationSize = plan.populationSize
  targetSize : plan'.targetSize = plan.targetSize
  maxSeconds : plan'.maxSeconds = plan.maxSeconds
  mutationRate : plan'.mutationRate = plan.mutationRate
  crossoverRate : plan'.crossoverRate = plan.crossoverRate
  timeWeight : plan'.timeWeight = plan.timeWeight
  elitism : plan'.elitism = plan.elitism
  strategy : plan'.strategy = plan.strategy

variable {plan plan' : Plan α} {problem : Problem α}

/-- On one worker or on several, evaluation faults where a candidate cannot be scored, and draws
nothing. -/
theorem evaluate_of_error {bounds : Bounds α} {s : Search σ α} {fault : Fault}
    (known : s.bounds = some bounds)
    (failed : s.population.members.mapM (Candidate.evaluate problem bounds plan.timeWeight) =
      .error fault) :
    ∃ t, evaluate plan problem s = .error fault t ∧ t.source = s.source := by
  obtain ⟨before, failing, after, evaluated, halts⟩ := exists_haltsAt failed
  by_cases several : 1 < plan.workers
  · exact ⟨s, evaluate_several_of_haltsAt several known halts, rfl⟩
  · exact ⟨_, evaluate_inOrder_of_haltsAt (by omega) known halts, rfl⟩

theorem matches_evaluate (same : SameSearch plan plan') :
    Matches (evaluate plan problem : SearchM σ α Unit) (evaluate plan' problem) := by
  intro s printed
  rcases Option.eq_none_or_eq_some s.bounds with none | ⟨bounds, known⟩
  · unfold evaluate
    simp only [none]
    exact .error _ rfl
  · cases each : s.population.members.mapM
      (Candidate.evaluate problem bounds plan.timeWeight) with
    | error fault =>
        have failed : ∃ t, evaluate plan problem s = .error fault t ∧ t.source = s.source :=
          evaluate_of_error known each
        rw [← same.timeWeight] at each
        have failed' : ∃ t, evaluate plan' problem { s with printed } = .error fault t ∧
            t.source = s.source := evaluate_of_error known each
        obtain ⟨t, failed, drawn⟩ := failed
        obtain ⟨t', failed', drawn'⟩ := failed'
        rw [failed, failed']
        exact .error fault (drawn'.trans drawn.symm)
    | ok evaluated =>
        have done : evaluate plan problem s = .ok () _ :=
          evaluate_eq_ok_iff.2 ⟨bounds, evaluated, known, each, rfl⟩
        rw [← same.timeWeight] at each
        have done' : evaluate plan' problem { s with printed } = .ok () _ :=
          evaluate_eq_ok_iff.2 ⟨bounds, evaluated, known, each, rfl⟩
        rw [done, done']
        exact .ok () _ printed

theorem matches_select (same : SameSearch plan plan') :
    Matches (select plan : SearchM σ α Unit) (select plan') := by
  intro s printed
  obtain ⟨first, done⟩ := select_eq plan s
  obtain ⟨second, done'⟩ := select_eq plan' { s with printed }
  rw [done, done', same.targetSize]
  exact .ok ()
    { s with population := s.population.truncate plan.targetSize, printed := first } second

variable [Source σ α] {wheel : Wheel σ α}

theorem matches_mutateRanks (rate : α) (ranks : List Int) :
    Matches (mutateRanks rate ranks : SearchM σ α (List Mutation)) (mutateRanks rate ranks) := by
  induction ranks with
  | nil => exact .pure []
  | cons rank rest ih =>
      refine .bind .getPopulation fun p => .bind (.onSource _) ?_
      rintro ⟨entries, q⟩
      exact .bind (.setPopulation q) fun _ => .bind ih fun _ => .pure _

theorem matches_mutate (same : SameSearch plan plan') :
    Matches (mutate plan : SearchM σ α Unit) (mutate plan') := by
  unfold mutate mutateFrom
  rw [same.mutationRate, same.elitism]
  refine .bind (.bind .getPopulation fun p => matches_mutateRanks _ _) fun entries => ?_
  exact .modify fun _ _ => rfl

theorem SameSearch.offerEach (same : SameSearch plan plan') (bounds : Option (Bounds α))
    (p : Population α) (parents : List (Candidate α)) :
    offerEach wheel plan' problem bounds p parents =
      Search.offerEach wheel plan problem bounds p parents := by
  induction parents with
  | nil => rfl
  | cons parent rest ih =>
      rw [Search.offerEach, Search.offerEach, offer, offer, ih, same.crossoverRate,
        same.timeWeight]

theorem SameSearch.breed (same : SameSearch plan plan') (p : Population α) :
    breed wheel plan' p = Search.breed wheel plan p := by
  have copies (slots : List Nat) :
      copies wheel plan' p slots = Search.copies wheel plan p slots := by
    induction slots with
    | nil => rfl
    | cons index rest ih => rw [Search.copies, Search.copies, copyFor, copyFor, ih, same.elitism]
  simp only [Search.breed, copies, pairCount, same.crossoverRate]

theorem matches_replacePass (same : SameSearch plan plan') :
    Matches (replacePass wheel plan problem) (replacePass wheel plan' problem) := by
  refine .get (fun _ _ => rfl) fun s => ?_
  simp only [same.offerEach]
  exact .bind (.onSource _) fun members => .setPopulation _

omit [Source σ α] in
theorem matches_evaluate_select (same : SameSearch plan plan') :
    Matches (do evaluate plan problem; select plan : SearchM σ α Unit)
      (do evaluate plan' problem; select plan') :=
  .bind (matches_evaluate same) fun _ => matches_select same

/-- Generations match. -/
theorem matches_evolve (same : SameSearch plan plan') :
    Matches (evolve wheel plan problem) (evolve wheel plan' problem) := by
  unfold evolve
  refine .bind (.modify fun _ _ => rfl) fun _ => ?_
  rw [same.strategy]
  cases plan.strategy with
  | replace =>
      exact .bind (matches_replacePass same) fun _ => .bind (matches_mutate same) fun _ =>
        matches_evaluate_select same
  | grow mergeParents =>
      simp only
      unfold evolveByBreeding
      refine .bind .getPopulation fun p => ?_
      rw [same.breed]
      refine .bind (.onSource _) fun bred => .bind (.aside bred (matches_mutate same)) ?_
      rintro ⟨_, mutated⟩
      have next (pool : Population α) : Matches
          (aside pool (do evaluate plan problem; select plan) >>= fun result =>
            setPopulation result.2 : SearchM σ α Unit)
          (aside pool (do evaluate plan' problem; select plan') >>= fun result =>
            setPopulation result.2) :=
        .bind (.aside pool (matches_evaluate_select same)) fun _ => .setPopulation _
      cases mergeParents with
      | false => exact next mutated
      | true => exact .bind (.setPopulation _) fun _ => next _

end Search

end EvoSched
