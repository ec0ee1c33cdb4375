import EvoSched.Proofs.Search.Pool
import EvoSched.Run

/-!
The course of a run: the states in which it decides whether to go on, one for each generation. What
holds after the launch and is kept by a generation holds in all of them, and a result is drawn up in
the last.
-/

set_option autoImplicit false

namespace EvoSched

variable {σ α : Type} [Scalar α]

/-- A record of this population: its size and mean, and the scores of the member in front. -/
def Record.Describes (r : Record α) (p : Population α) : Prop :=
  ∃ best, p.member 0 = .ok best ∧ r.bestFitness = best.fitness ∧
    r.meanFitness = p.meanFitness ∧ r.bestTime = best.time ∧ r.bestCost = best.cost ∧
    r.populationSize = p.size

/-- A record made at this point of a search: of its population, numbered, with the time since the
start and the length of the journal. -/
structure Record.TakenFrom (r : Record α) (clock : Nat → α) (started : α) (generation : Nat)
    (s : Search σ α) : Prop where
  describes : r.Describes s.population
  generation : r.generation = generation
  elapsed : r.elapsed = clock s.readings - started
  mutations : r.mutations = some s.journal.length

namespace Run

variable {plan : Plan α} {problem : Problem α} {clock : Nat → α}

theorem record_eq_ok_iff {started : α} {generation : Nat} {s t : Search σ α} {r : Record α} :
    record clock started generation s = .ok r t ↔
      ∃ best, s.population.member 0 = .ok best ∧
        t = { s with readings := s.readings + 1 } ∧
        r = ⟨generation, best.fitness, s.population.meanFitness, best.time, best.cost,
          s.population.size, clock s.readings - started, some s.journal.length⟩ := by
  unfold record
  constructor
  · intro success
    obtain ⟨_, _, found, rest⟩ := bind_eq_ok.1 success
    cases found
    obtain ⟨best, _, taken, rest⟩ := bind_eq_ok.1 rest
    obtain ⟨front, rfl⟩ := ofResult_eq_ok.1 taken
    obtain ⟨_, _, read, rest⟩ := bind_eq_ok.1 rest
    cases read
    cases rest
    exact ⟨best, front, rfl, rfl⟩
  · rintro ⟨best, front, rfl, rfl⟩
    exact bind_ok rfl (bind_ok (ofResult_ok front s) rfl)

theorem record_of_front (clock : Nat → α) (started : α) (generation : Nat) {s : Search σ α}
    {best : Candidate α} (front : s.population.member 0 = .ok best) :
    ∃ r, record clock started generation s = .ok r { s with readings := s.readings + 1 } ∧
      r.bestFitness = best.fitness :=
  ⟨_, record_eq_ok_iff.2 ⟨best, front, rfl, rfl⟩, rfl⟩

theorem takenFrom_of_record {started : α} {generation : Nat} {s t : Search σ α} {r : Record α}
    (success : record clock started generation s = .ok r t) :
    r.TakenFrom clock started generation s ∧ t = { s with readings := s.readings + 1 } := by
  obtain ⟨best, front, same, rfl⟩ := record_eq_ok_iff.1 success
  exact ⟨⟨⟨best, front, rfl, rfl, rfl, rfl, rfl⟩, rfl, rfl, rfl⟩, same⟩

theorem prints_report (r : Record α) : Search.Prints (report plan r : SearchM σ α Unit) := by
  unfold report
  split
  · exact Search.prints_say _
  · exact .none

/-- A note of a generation: one more record, of the population as it is. -/
theorem note_eq_ok {progress later : Progress α} {s t : Search σ α}
    (success : note plan clock progress s = .ok later t) :
    ∃ r printed, r.TakenFrom clock progress.started (progress.generation + 1) s ∧
      later = ⟨progress.started, progress.generation + 1, progress.history ++ [r]⟩ ∧
      t = { s with readings := s.readings + 1, printed } := by
  obtain ⟨r, u, recorded, rest⟩ := bind_eq_ok.1 success
  obtain ⟨taken, rfl⟩ := takenFrom_of_record recorded
  obtain ⟨due, u, checked, rest⟩ := bind_eq_ok.1 rest
  obtain ⟨-, rfl⟩ := ofResult_eq_ok.1 checked
  cases due with
  | false =>
      cases rest
      exact ⟨r, s.printed, taken, rfl, rfl⟩
  | true =>
      obtain ⟨_, v, reported, rest⟩ := bind_eq_ok.1 rest
      obtain ⟨printed, same⟩ := prints_report r { s with readings := s.readings + 1 }
      cases reported.symm.trans same
      cases rest
      exact ⟨r, printed, taken, rfl, rfl⟩

/-- A plan that is not verbose reports nothing. -/
theorem report_of_quiet (quiet : plan.verbose = false) (r : Record α) (s : Search σ α) :
    report plan r s = .ok () s := by
  unfold report
  rw [quiet]
  rfl

theorem first_of_quiet (quiet : plan.verbose = false) (started : α) {s : Search σ α}
    {best : Candidate α} (front : s.population.member 0 = .ok best) :
    ∃ r, first plan clock started s = .ok ⟨started, 0, [r]⟩ { s with readings := s.readings + 1 } ∧
      r.bestFitness = best.fitness := by
  obtain ⟨r, recorded, same⟩ := record_of_front clock started 0 front
  exact ⟨r, bind_ok recorded (bind_ok (report_of_quiet quiet r _) rfl), same⟩

theorem note_of_quiet (quiet : plan.verbose = false) (due : 0 < plan.reportEvery)
    (progress : Progress α) {s : Search σ α} {best : Candidate α}
    (front : s.population.member 0 = .ok best) :
    ∃ r, note plan clock progress s = .ok
        ⟨progress.started, progress.generation + 1, progress.history ++ [r]⟩
        { s with readings := s.readings + 1 } ∧ r.bestFitness = best.fitness := by
  obtain ⟨r, recorded, same⟩ :=
    record_of_front clock progress.started (progress.generation + 1) front
  have checked : isReported plan (progress.generation + 1) =
      .ok ((progress.generation + 1) % plan.reportEvery == 0) := if_neg (by omega)
  refine ⟨r, bind_ok recorded (bind_ok (ofResult_ok checked _) ?_), same⟩
  cases (progress.generation + 1) % plan.reportEvery == 0 with
  | false => rfl
  | true => exact bind_ok (report_of_quiet quiet r _) rfl

/-- The decision to go on or to stop: to stop first where a member reaches both bounds, then where
no generation is left, then where there is a time limit and the clock has reached it. -/
theorem verdict_eq_ite (started : α) (more : Nat) (s : Search σ α) :
    verdict plan clock started more s =
      if s.population.hasOptimum then .ok (some .optimal) s
      else if more = 0 then .ok (some .maxGenerations) s
      else match plan.maxSeconds with
        | none => .ok none s
        | some limit =>
          .ok (if limit.reached (clock s.readings - started) then some .maxSeconds else none)
            { s with readings := s.readings + 1 } := by
  have start : verdict plan clock started more s =
      (if s.population.hasOptimum then pure (some .optimal)
        else if more = 0 then pure (some .maxGenerations)
        else do
          if ← timeUp plan clock started then pure (some .maxSeconds) else pure none :
        SearchM σ α (Option StopReason)) s := rfl
  rw [start]
  split
  · rfl
  · split
    · rfl
    · unfold timeUp
      cases plan.maxSeconds with
      | none => rfl
      | some limit =>
          refine bind_ok rfl ?_
          cases limit.reached (clock s.readings - started) <;> rfl

/-- A run always comes to a decision. It stops where a member reaches both bounds, and where no
generation is left. -/
theorem verdict_eq (started : α) (more : Nat) (s : Search σ α) :
    ∃ decision readings, verdict plan clock started more s = .ok decision { s with readings } ∧
      (decision = some .optimal ↔ s.population.hasOptimum = true) ∧
      (more = 0 → decision ≠ none) := by
  rw [verdict_eq_ite]
  split
  · rename_i optimum
    exact ⟨some .optimal, s.readings, rfl, by simp [optimum], by simp⟩
  · rename_i short
    split
    · exact ⟨some .maxGenerations, s.readings, rfl, by simp [short], by simp⟩
    · rename_i left
      split
      · exact ⟨none, s.readings, rfl, by simp [short], fun absurd => (left absurd).elim⟩
      · refine ⟨_, s.readings + 1, rfl, ?_, fun absurd => (left absurd).elim⟩
        split <;> simp [short]

/-- Without a time limit a run goes on as long as there is no optimum and a generation is left. -/
theorem verdict_of_timeless (timeless : plan.maxSeconds = none) (started : α) {more : Nat}
    {s : Search σ α} (left : more ≠ 0) (short : s.population.hasOptimum = false) :
    verdict plan clock started more s = .ok none s := by
  simp [verdict_eq_ite, timeless, left, short]

/-- A decision depends on the population and changes no more than the count of readings. -/
theorem verdict_eq_ok {started : α} {more : Nat} {s t : Search σ α} {decision : Option StopReason}
    (success : verdict plan clock started more s = .ok decision t) :
    (∃ readings, t = { s with readings }) ∧
      (decision = some .optimal ↔ s.population.hasOptimum = true) ∧
      (more = 0 → decision ≠ none) := by
  obtain ⟨_, readings, same, optimal, last⟩ := verdict_eq started more s
  cases success.symm.trans same
  exact ⟨⟨readings, rfl⟩, optimal, last⟩

/-- A run goes on only if it has no optimum and a generation is left. -/
theorem verdict_eq_none {started : α} {more : Nat} {s t : Search σ α}
    (success : verdict plan clock started more s = .ok none t) :
    s.population.hasOptimum = false ∧ more ≠ 0 ∧
      ∃ readings, s.readings ≤ readings ∧ t = { s with readings } := by
  rw [verdict_eq_ite] at success
  split at success
  · cases success
  · rename_i short
    split at success
    · cases success
    · rename_i left
      refine ⟨Bool.eq_false_iff.2 short, left, ?_⟩
      split at success
      · cases success
        exact ⟨s.readings, le_refl _, rfl⟩
      · obtain ⟨-, rfl⟩ := EStateM.Result.ok.inj success
        exact ⟨s.readings + 1, Nat.le_succ _, rfl⟩

/-- What each reason to stop means. The clock is read for the last one only. -/
theorem verdict_eq_some {started : α} {more : Nat} {s t : Search σ α} {reason : StopReason}
    (success : verdict plan clock started more s = .ok (some reason) t) :
    (reason = .optimal ∧ s.population.hasOptimum = true ∧ t = s) ∨
      (reason = .maxGenerations ∧ s.population.hasOptimum = false ∧ more = 0 ∧ t = s) ∨
      (reason = .maxSeconds ∧ s.population.hasOptimum = false ∧ more ≠ 0 ∧
        t = { s with readings := s.readings + 1 } ∧
        ∃ limit, plan.maxSeconds = some limit ∧
          limit.reached (clock s.readings - started) = true) := by
  rw [verdict_eq_ite] at success
  split at success
  · rename_i optimum
    cases success
    exact .inl ⟨rfl, optimum, rfl⟩
  · rename_i short
    have short := Bool.eq_false_iff.2 short
    split at success
    · rename_i spent
      cases success
      exact .inr (.inl ⟨rfl, short, spent, rfl⟩)
    · rename_i left
      split at success
      · cases success
      · rename_i limit limited
        obtain ⟨up, rfl⟩ := EStateM.Result.ok.inj success
        split at up
        · rename_i reached
          cases up
          exact .inr (.inr ⟨rfl, short, left, rfl, limit, limited, reached⟩)
        · cases up

/-- What a result says of the search that has stopped, and of the progress that it has made. -/
theorem conclude_eq_ok {progress : Progress α} {reason : StopReason} {s t : Search σ α}
    {result : RunResult α} (success : conclude plan clock progress reason s = .ok result t) :
    s.population.member 0 = .ok result.best ∧ result.population = s.population ∧
      result.history = progress.history ∧ result.stopReason = reason ∧
      s.bounds = some result.bounds ∧ result.generations = progress.generation ∧
      result.elapsed = clock s.readings - progress.started ∧
      result.totalMutations = (progress.history.map fun r => r.mutations.getD 0).sum ∧
      t.readings = s.readings + 1 := by
  obtain ⟨_, _, read, rest⟩ := bind_eq_ok.1 success
  cases read
  obtain ⟨_, _, found, rest⟩ := bind_eq_ok.1 rest
  cases found
  obtain ⟨best, _, taken, rest⟩ := bind_eq_ok.1 rest
  obtain ⟨front, rfl⟩ := ofResult_eq_ok.1 taken
  have total : (progress.history.map fun r => r.mutations.getD 0).foldl (· + ·) 0 =
      (progress.history.map fun r => r.mutations.getD 0).sum := List.sum_eq_foldl.symm
  revert rest
  cases plan.verbose with
  | false =>
      intro rest
      obtain ⟨bounds, _, found, rest⟩ := bind_eq_ok.1 rest
      obtain ⟨known, rfl⟩ := Search.knownBounds_eq_ok_iff.1 found
      cases rest
      exact ⟨front, rfl, rfl, rfl, known, rfl, rfl, total, rfl⟩
  | true =>
      intro rest
      obtain ⟨_, u, said, rest⟩ := bind_eq_ok.1 rest
      obtain ⟨printed, same⟩ := Search.prints_sayEach
        (closing progress.generation reason (clock s.readings - progress.started) best)
        { s with readings := s.readings + 1 }
      cases said.symm.trans same
      obtain ⟨bounds, _, found, rest⟩ := bind_eq_ok.1 rest
      obtain ⟨known, rfl⟩ := Search.knownBounds_eq_ok_iff.1 found
      cases rest
      exact ⟨front, rfl, rfl, rfl, known, rfl, rfl, total, rfl⟩

/-- The progress and the search of a run from `start` at the beginning of a generation, just after
the record of the one before. -/
inductive Reaches [Source σ α] (wheel : Wheel σ α) (plan : Plan α) (problem : Problem α)
    (clock : Nat → α) (start : Search σ α) : Progress α → Search σ α → Prop
  | launched {progress : Progress α} {s : Search σ α} :
      launch plan problem clock start = .ok progress s →
      Reaches wheel plan problem clock start progress s
  | evolved {progress later : Progress α} {s t u v : Search σ α} :
      Reaches wheel plan problem clock start progress s →
      verdict plan clock progress.started (plan.maxGenerations - progress.generation) s =
        .ok none t →
      Search.evolve wheel plan problem t = .ok () u →
      note plan clock progress u = .ok later v →
      Reaches wheel plan problem clock start later v

variable [Source σ α] {wheel : Wheel σ α} {start : Search σ α}

/-- Where the loop ends, the course has come to a state with a reason to stop. -/
theorem reaches_of_loop {more : Nat} {progress last : Progress α} {s t : Search σ α}
    {reason : StopReason} (reached : Reaches wheel plan problem clock start progress s)
    (left : plan.maxGenerations - progress.generation = more)
    (success : loop wheel plan problem clock more progress s = .ok (last, reason) t) :
    ∃ u, Reaches wheel plan problem clock start last u ∧
      verdict plan clock last.started (plan.maxGenerations - last.generation) u =
        .ok (some reason) t := by
  induction more generalizing progress s with
  | zero =>
      obtain ⟨decision, u, decided, rest⟩ := bind_eq_ok.1 success
      cases rest
      obtain ⟨-, -, some_reason⟩ := verdict_eq_ok decided
      obtain ⟨reason, rfl⟩ := Option.ne_none_iff_exists'.1 (some_reason rfl)
      rw [← left] at decided
      exact ⟨s, reached, decided⟩
  | succ more ih =>
      obtain ⟨decision, u, decided, rest⟩ := bind_eq_ok.1 success
      rw [← left] at decided
      cases decision with
      | some reason =>
          cases rest
          exact ⟨s, reached, decided⟩
      | none =>
          obtain ⟨_, v, evolved, rest⟩ := bind_eq_ok.1 rest
          obtain ⟨later, w, noted, rest⟩ := bind_eq_ok.1 rest
          obtain ⟨r, printed, -, same, -⟩ := note_eq_ok noted
          refine ih (.evolved reached decided evolved noted) ?_ rest
          rw [same]
          simp only
          omega

theorem launch_eq_ok {progress : Progress α} {s : Search σ α}
    (success : launch plan problem clock start = .ok progress s) :
    problem.check = .ok () ∧ ∃ u r printed,
      begin plan problem { start with readings := start.readings + 1 } = .ok () u ∧
        r.TakenFrom clock (clock start.readings) 0 u ∧
        progress = ⟨clock start.readings, 0, [r]⟩ ∧
        s = { u with readings := u.readings + 1, printed } := by
  obtain ⟨_, _, checked, rest⟩ := bind_eq_ok.1 success
  obtain ⟨passed, rfl⟩ := ofResult_eq_ok.1 checked
  obtain ⟨started, t, read, rest⟩ := bind_eq_ok.1 rest
  cases read
  obtain ⟨_, u, begun, rest⟩ := bind_eq_ok.1 rest
  obtain ⟨r, v, recorded, rest⟩ := bind_eq_ok.1 rest
  obtain ⟨taken, rfl⟩ := takenFrom_of_record recorded
  obtain ⟨_, w, reported, rest⟩ := bind_eq_ok.1 rest
  obtain ⟨printed, same⟩ := prints_report r { u with readings := u.readings + 1 }
  cases reported.symm.trans same
  cases rest
  exact ⟨passed, u, r, printed, begun, taken, rfl, rfl⟩

/-- A run that returns a result has come to a state with a reason to stop, and drawn up the result
there. -/
theorem course_of_run {result : RunResult α} {t : Search σ α}
    (success : runOn wheel plan problem clock start = .ok result t) :
    ∃ last s u reason, Reaches wheel plan problem clock start last s ∧
      verdict plan clock last.started (plan.maxGenerations - last.generation) s =
        .ok (some reason) u ∧
      conclude plan clock last reason u = .ok result t := by
  obtain ⟨progress, s, launched, rest⟩ := bind_eq_ok.1 success
  obtain ⟨⟨last, reason⟩, u, looped, concluded⟩ := bind_eq_ok.1 rest
  obtain ⟨-, _, _, _, -, -, same, -⟩ := launch_eq_ok launched
  have left : plan.maxGenerations - progress.generation = plan.maxGenerations := by
    rw [same]
    rfl
  obtain ⟨v, reached, decided⟩ := reaches_of_loop (.launched launched) left looped
  exact ⟨last, v, u, reason, reached, decided, concluded⟩

/-- The first pool: drawn candidates. -/
def assemble (plan : Plan α) (problem : Problem α) : SearchM σ α Unit := do
  modify fun s => { s with journal := [] }
  let _ ← Search.measure problem
  Search.populate plan problem.jobs.length (problem.nodes.length - 1)

theorem begin_eq_ok_iff {s t : Search σ α} :
    begin plan problem s = .ok () t ↔ ∃ u, assemble plan problem s = .ok () u ∧
      (do Search.evaluate plan problem; Search.select plan : SearchM σ α Unit) u = .ok () t := by
  constructor
  · intro success
    obtain ⟨_, cleared, first, rest⟩ := bind_eq_ok.1 success
    obtain ⟨bounds, measured, second, rest⟩ := bind_eq_ok.1 rest
    obtain ⟨_, u, third, rest⟩ := bind_eq_ok.1 rest
    exact ⟨u, bind_ok first (bind_ok second third), rest⟩
  · rintro ⟨u, assembled, rest⟩
    obtain ⟨_, cleared, first, assembled⟩ := bind_eq_ok.1 assembled
    obtain ⟨bounds, measured, second, third⟩ := bind_eq_ok.1 assembled
    exact bind_ok first (bind_ok second (bind_ok third rest))

/-- The first pool is drawn after the bounds are taken, with a new journal. -/
theorem assemble_eq_ok {s u : Search σ α} (success : assemble plan problem s = .ok () u) :
    ∃ bounds members source, problem.bounds = .ok bounds ∧
      Search.drawCandidates problem.jobs.length (problem.nodes.length - 1) plan.populationSize
        s.source = .ok members source ∧
      u = { s with
        journal := [], bounds := some bounds, source
        population := { Population.empty with members } } := by
  obtain ⟨_, _, cleared, rest⟩ := bind_eq_ok.1 success
  cases cleared
  obtain ⟨_, v, measured, populated⟩ := bind_eq_ok.1 rest
  obtain ⟨_, _, found, kept⟩ := bind_eq_ok.1 measured
  obtain ⟨known, rfl⟩ := ofResult_eq_ok.1 found
  cases kept
  obtain ⟨members, _, sourced, set⟩ := bind_eq_ok.1 populated
  obtain ⟨source, drawn, rfl⟩ := Search.onSource_eq_ok_iff.1 sourced
  cases set
  exact ⟨_, members, source, known, drawn, rfl⟩

theorem bounds_of_assemble {s u : Search σ α} (success : assemble plan problem s = .ok () u) :
    ∃ bounds, problem.bounds = .ok bounds ∧ u.bounds = some bounds := by
  obtain ⟨bounds, _, _, known, -, rfl⟩ := assemble_eq_ok success
  exact ⟨bounds, known, rfl⟩

theorem selected_of_begin {bounds : Bounds α} {s t : Search σ α}
    (known : problem.bounds = .ok bounds) (success : begin plan problem s = .ok () t) :
    t.population.Selected problem bounds plan.timeWeight ∧ t.bounds = some bounds := by
  obtain ⟨u, assembled, rest⟩ := begin_eq_ok_iff.1 success
  obtain ⟨_, same, taken⟩ := bounds_of_assemble assembled
  cases known.symm.trans same
  exact Search.selected_of_evaluate_select taken rest

/-- What is known wherever a run decides whether to go on: the population is selected, and so was
every population that a record was made of, the last one of this one. -/
structure Settled (problem : Problem α) (bounds : Bounds α) (timeWeight : α)
    (progress : Progress α) (s : Search σ α) : Prop where
  known : s.bounds = some bounds
  selected : s.population.Selected problem bounds timeWeight
  recorded : ∀ r ∈ progress.history,
    ∃ p : Population α, p.Selected problem bounds timeWeight ∧ r.Describes p
  latest : ∃ r, progress.history.getLast? = some r ∧ r.Describes s.population

omit [Source σ α] in
theorem Settled.add_record {bounds : Bounds α} {timeWeight : α} {s : Search σ α}
    {p : Population α} {history : List (Record α)} {r : Record α} {started : α} {generation : Nat}
    (recorded : ∀ r ∈ history,
      ∃ p : Population α, p.Selected problem bounds timeWeight ∧ r.Describes p)
    (known : s.bounds = some bounds) (same : s.population = p)
    (selected : p.Selected problem bounds timeWeight) (describes : r.Describes p) :
    Settled problem bounds timeWeight ⟨started, generation, history ++ [r]⟩ s := by
  subst same
  refine ⟨known, selected, ?_, ⟨r, List.getLast?_concat, describes⟩⟩
  intro other member
  rcases List.mem_append.1 member with member | member
  · exact recorded other member
  · cases List.mem_singleton.1 member
    exact ⟨s.population, selected, describes⟩

theorem settled_of_launch {bounds : Bounds α} {progress : Progress α} {s : Search σ α}
    (known : problem.bounds = .ok bounds)
    (success : launch plan problem clock start = .ok progress s) :
    Settled problem bounds plan.timeWeight progress s := by
  obtain ⟨-, u, r, printed, begun, taken, rfl, rfl⟩ := launch_eq_ok success
  obtain ⟨selected, kept⟩ := selected_of_begin known begun
  have recorded : ∀ r ∈ ([] : List (Record α)), ∃ p : Population α,
      p.Selected problem bounds plan.timeWeight ∧ r.Describes p := nofun
  exact Settled.add_record recorded kept rfl selected taken.describes

theorem settled_of_generation {bounds : Bounds α} {progress later : Progress α} {more : Nat}
    {s t u v : Search σ α} (settled : Settled problem bounds plan.timeWeight progress s)
    (decided : verdict plan clock progress.started more s = .ok none t)
    (evolved : Search.evolve wheel plan problem t = .ok () u)
    (noted : note plan clock progress u = .ok later v) :
    Settled problem bounds plan.timeWeight later v := by
  obtain ⟨⟨readings, rfl⟩, -⟩ := verdict_eq_ok decided
  obtain ⟨selected, kept⟩ := Search.selected_of_evolve (by exact settled.known) evolved
  obtain ⟨r, printed, taken, rfl, rfl⟩ := note_eq_ok noted
  exact Settled.add_record settled.recorded kept rfl selected taken.describes

theorem settled_of_reaches {bounds : Bounds α} {progress : Progress α} {s : Search σ α}
    (known : problem.bounds = .ok bounds)
    (reached : Reaches wheel plan problem clock start progress s) :
    Settled problem bounds plan.timeWeight progress s := by
  induction reached with
  | launched success => exact settled_of_launch known success
  | evolved reached decided evolved noted ih =>
      exact settled_of_generation ih decided evolved noted

/-- A run that has begun has taken the bounds of its problem. -/
theorem exists_bounds_of_reaches {progress : Progress α} {s : Search σ α}
    (reached : Reaches wheel plan problem clock start progress s) :
    ∃ bounds, problem.bounds = .ok bounds := by
  induction reached with
  | launched success =>
      obtain ⟨-, _, _, _, begun, -⟩ := launch_eq_ok success
      obtain ⟨u, assembled, -⟩ := begin_eq_ok_iff.1 begun
      obtain ⟨bounds, known, -⟩ := bounds_of_assemble assembled
      exact ⟨bounds, known⟩
  | evolved reached decided evolved noted ih => exact ih

/-- What a run has to show for itself in the end. -/
theorem settled_of_run {result : RunResult α} {t : Search σ α}
    (success : runOn wheel plan problem clock start = .ok result t) :
    problem.bounds = .ok result.bounds ∧
      result.population.Selected problem result.bounds plan.timeWeight ∧
      result.population.member 0 = .ok result.best ∧
      (∀ r ∈ result.history, ∃ p : Population α,
        p.Selected problem result.bounds plan.timeWeight ∧ r.Describes p) ∧
      (result.stopReason = .optimal → result.population.hasOptimum = true) := by
  obtain ⟨last, s, u, reason, reached, decided, concluded⟩ := course_of_run success
  obtain ⟨bounds, known⟩ := exists_bounds_of_reaches reached
  have settled := settled_of_reaches known reached
  obtain ⟨⟨readings, rfl⟩, optimal, -⟩ := verdict_eq_ok decided
  obtain ⟨front, population, history, stop, taken, -⟩ := conclude_eq_ok concluded
  obtain rfl : bounds = result.bounds := Option.some.inj (settled.known.symm.trans taken)
  rw [population, history, stop]
  exact ⟨known, settled.selected, front, settled.recorded,
    fun same => optimal.1 (congrArg some same)⟩

end Run

end EvoSched
