import EvoSched.Proofs.Run.Course
import EvoSched.Proofs.Settings

set_option autoImplicit false

namespace EvoSched

namespace Run

variable {σ α : Type} {problem : Problem α}

theorem member_zero_ok {p : Population α} (fit : p.Fit problem) :
    ∃ best ∈ p.members, p.member 0 = .ok best :=
  nth_ok (le_refl 0) (Int.natCast_pos.2 (List.length_pos_iff.2 fit.some_member))

variable [Scalar α] {plan : Plan α} {clock : Nat → α}

theorem record_ok (clock : Nat → α) (started : α) (generation : Nat) {s : Search σ α}
    (fit : s.population.Fit problem) :
    ∃ r, record clock started generation s = .ok r { s with readings := s.readings + 1 } := by
  obtain ⟨best, -, front⟩ := member_zero_ok fit
  obtain ⟨r, recorded, -⟩ := record_of_front clock started generation front
  exact ⟨r, recorded⟩

theorem note_ok (valid : plan.Valid) (clock : Nat → α) (progress : Progress α) {s : Search σ α}
    (fit : s.population.Fit problem) : ∃ later t, note plan clock progress s = .ok later t := by
  obtain ⟨r, recorded⟩ := record_ok clock progress.started (progress.generation + 1) fit
  have checked : isReported plan (progress.generation + 1) =
      .ok ((progress.generation + 1) % plan.reportEvery == 0) :=
    if_neg (by have := valid.reportEvery; omega)
  have lookup := ofResult_ok checked { s with readings := s.readings + 1 }
  obtain ⟨printed, reported⟩ := prints_report r { s with readings := s.readings + 1 }
  cases due : (progress.generation + 1) % plan.reportEvery == 0 with
  | false =>
      rw [due] at lookup
      exact ⟨_, _, bind_ok recorded (bind_ok lookup rfl)⟩
  | true =>
      rw [due] at lookup
      exact ⟨_, _, bind_ok recorded (bind_ok lookup (bind_ok reported rfl))⟩

theorem conclude_ok (clock : Nat → α) (progress : Progress α) (reason : StopReason)
    {s : Search σ α} (ready : s.Ready problem) :
    ∃ result t, conclude plan clock progress reason s = .ok result t := by
  obtain ⟨best, -, front⟩ := member_zero_ok ready.fit
  obtain ⟨bounds, known⟩ := ready.known
  have finish : ∀ u : Search σ α, u.bounds = s.bounds → Search.knownBounds u = .ok bounds u := by
    intro u same
    exact Search.knownBounds_eq_ok_iff.2 ⟨same.trans known, rfl⟩
  have taken := ofResult_ok front { s with readings := s.readings + 1 }
  unfold conclude
  cases plan.verbose with
  | false =>
      have ended := finish { s with readings := s.readings + 1 } rfl
      exact ⟨_, _, bind_ok rfl (bind_ok rfl (bind_ok taken (bind_ok ended rfl)))⟩
  | true =>
      obtain ⟨printed, said⟩ := Search.prints_sayEach
        (closing progress.generation reason (clock s.readings - progress.started) best)
        { s with readings := s.readings + 1 }
      have ended := finish { s with readings := s.readings + 1, printed } rfl
      exact ⟨_, _, bind_ok rfl (bind_ok rfl (bind_ok taken (bind_ok said (bind_ok ended rfl))))⟩

variable [LawfulScalar α] [Source σ α] [LawfulSource σ α]

theorem begin_ok (valid : plan.Valid) (fine : problem.Acceptable) (s : Search σ α) :
    ∃ t, begin plan problem s = .ok () t ∧ t.Ready problem ∧
      t.population.size ≤ plan.targetSize := by
  obtain ⟨bounds, known⟩ := Problem.exists_bounds fine
  obtain ⟨members, source, drawn, length, fit⟩ := Search.onSource_ok
    (Candidate.yields_drawCandidates fine.some_node plan.populationSize)
    { s with journal := [], bounds := some bounds }
  have some_member : members ≠ [] := by
    rw [← List.length_pos_iff, length]
    exact valid.populationSize
  obtain ⟨_, t, selected, ready, size⟩ :=
    ((Search.achieves_evaluate fine).bind fun _ => Search.achieves_select valid)
      { s with
        journal := [], bounds := some bounds, source
        population := { Population.empty with members } }
      ⟨⟨bounds, rfl⟩, some_member, fit⟩
  refine ⟨t, ?_, ready, size⟩
  have measured : Search.measure problem { s with journal := [] } =
      .ok bounds { s with journal := [], bounds := some bounds } :=
    bind_ok (ofResult_ok known _) rfl
  refine bind_ok rfl (bind_ok measured ?_)
  exact bind_ok (bind_ok drawn rfl) selected

/-- Wherever a run decides whether to go on, its candidates are fit, and no more than the target
size. -/
theorem ready_of_reaches (valid : plan.Valid) (fine : problem.Acceptable)
    (small : plan.targetSize < 2 ^ 53) {start s : Search σ α} {progress : Progress α}
    (reached : Reaches Wheel.spin plan problem clock start progress s) :
    s.Ready problem ∧ s.population.size ≤ plan.targetSize := by
  induction reached with
  | launched success =>
      obtain ⟨-, u, r, printed, begun, -, -, rfl⟩ := launch_eq_ok success
      obtain ⟨_, same, ready, size⟩ := begin_ok valid fine
        { start with readings := start.readings + 1 }
      cases begun.symm.trans same
      exact ⟨⟨ready.known, ready.fit⟩, size⟩
  | evolved reached decided evolved noted ih =>
      obtain ⟨⟨readings, rfl⟩, -⟩ := verdict_eq_ok decided
      obtain ⟨ready, size⟩ := (Search.achieves_evolve valid fine).of_eq_ok
        (by exact ⟨⟨ih.1.known, ih.1.fit⟩, ih.2.trans_lt small⟩) evolved
      obtain ⟨r, printed, -, -, rfl⟩ := note_eq_ok noted
      exact ⟨⟨ready.known, ready.fit⟩, size⟩

theorem launch_ok (valid : plan.Valid) (fine : problem.Acceptable) (clock : Nat → α)
    (start : Search σ α) :
    ∃ progress s, launch plan problem clock start = .ok progress s ∧ s.Ready problem ∧
      s.population.size ≤ plan.targetSize := by
  obtain ⟨t, begun, ready, size⟩ := begin_ok valid fine
    { start with readings := start.readings + 1 }
  obtain ⟨r, recorded⟩ := record_ok clock (clock start.readings) 0 ready.fit
  obtain ⟨printed, reported⟩ := prints_report r { t with readings := t.readings + 1 }
  refine ⟨⟨clock start.readings, 0, [r]⟩, { t with readings := t.readings + 1, printed }, ?_,
    ⟨ready.known, ready.fit⟩, size⟩
  have passed := Problem.check_eq_ok_iff.2 fine
  refine bind_ok (ofResult_ok passed start) (bind_ok rfl ?_)
  apply bind_ok begun
  apply bind_ok recorded
  apply bind_ok reported
  rfl

theorem loop_ok (valid : plan.Valid) (fine : problem.Acceptable)
    (small : plan.targetSize < 2 ^ 53) (clock : Nat → α) (more : Nat) (progress : Progress α)
    {s : Search σ α} (ready : s.Ready problem) (size : s.population.size ≤ plan.targetSize) :
    ∃ last reason t, loop Wheel.spin plan problem clock more progress s = .ok (last, reason) t ∧
      t.Ready problem := by
  induction more generalizing progress s with
  | zero =>
      obtain ⟨decision, readings, decided, -⟩ := verdict_eq progress.started 0 s
      exact ⟨_, _, _, bind_ok decided rfl, ready.known, ready.fit⟩
  | succ more ih =>
      obtain ⟨decision, readings, decided, -⟩ := verdict_eq progress.started (more + 1) s
      cases decision with
      | some reason =>
          exact ⟨_, _, _, bind_ok decided rfl, ready.known, ready.fit⟩
      | none =>
          obtain ⟨_, u, evolved, nextReady, nextSize⟩ := Search.achieves_evolve valid fine
            { s with readings } ⟨⟨ready.known, ready.fit⟩, size.trans_lt small⟩
          obtain ⟨later, v, noted⟩ := note_ok valid clock progress nextReady.fit
          obtain ⟨r, printed, -, -, same⟩ := note_eq_ok noted
          have laterReady : v.Ready problem ∧ v.population.size ≤ plan.targetSize := by
            rw [same]
            exact ⟨⟨nextReady.known, nextReady.fit⟩, nextSize⟩
          obtain ⟨last, reason, t, looped, ended⟩ := ih later laterReady.1 laterReady.2
          refine ⟨last, reason, t, ?_, ended⟩
          apply bind_ok decided
          apply bind_ok evolved
          apply bind_ok noted
          exact looped

/-- A run returns a result, and fit candidates with it. -/
theorem exists_result (valid : plan.Valid) (fine : problem.Acceptable)
    (small : plan.targetSize < 2 ^ 53) (clock : Nat → α) (start : Search σ α) :
    ∃ result t, run plan problem clock start = .ok result t ∧ result.population.Fit problem ∧
      result.best ∈ result.population.members := by
  obtain ⟨progress, s, launched, ready, size⟩ := launch_ok valid fine clock start
  obtain ⟨last, reason, u, looped, ended⟩ :=
    loop_ok valid fine small clock plan.maxGenerations progress ready size
  obtain ⟨result, t, concluded⟩ := conclude_ok clock last reason ended
  obtain ⟨front, population, -⟩ := conclude_eq_ok concluded
  refine ⟨result, t, bind_ok launched (bind_ok looped concluded), ?_, ?_⟩
  · rw [population]
    exact ended.fit
  · rw [population]
    exact Population.mem_of_front front

theorem exists_result_of_settings {σ : Type} [Source σ Float] {entries : List (String × Document)}
    {settings : Settings} {problem : Problem Float}
    (configured : Settings.ofEntries entries = .ok settings) (clock : Nat → Float)
    (start : Search σ Float) (lawful : LawfulSource σ Float)
    (small : settings.targetSize < 2 ^ 53) (accepted : problem.check = .ok ()) :
    ∃ result t, run settings.plan problem clock start = .ok result t := by
  obtain ⟨result, t, success, -⟩ := exists_result (Settings.valid_plan configured)
    (Problem.check_eq_ok_iff.1 accepted) small clock start
  exact ⟨result, t, success⟩

/-- A run on doubles, with settings that passed their checks and a problem that passed its own, on a
source that keeps its promises, never faults: it returns a result, and the candidates it returns,
like those at the beginning of every generation, hold one node for every job. -/
theorem run_safe {σ : Type} [Source σ Float] [LawfulSource σ Float]
    {entries : List (String × Document)} {settings : Settings} {problem : Problem Float}
    (configured : Settings.ofEntries entries = .ok settings)
    (small : settings.targetSize < 2 ^ 53) (accepted : problem.check = .ok ())
    (clock : Nat → Float) (start : Search σ Float) :
    (∀ progress s, Reaches Wheel.spin settings.plan problem clock start progress s →
      s.population.Fit problem) ∧
    ∃ result t, run settings.plan problem clock start = .ok result t ∧
      result.population.Fit problem ∧ result.best ∈ result.population.members := by
  have valid := Settings.valid_plan configured
  have fine := Problem.check_eq_ok_iff.1 accepted
  exact ⟨fun _ _ reached => (ready_of_reaches valid fine small reached).1.fit,
    exists_result valid fine small clock start⟩

/-- One job that any of two nodes can run. -/
def errand : Problem Float where
  jobs := [⟨4, 0, 0, 0, 1, none⟩]
  nodes := [⟨2, 1, 0, 0, none⟩, ⟨1, 1, 0, 0, none⟩]

theorem check_errand : errand.check = .ok () := by decide +kernel

theorem lawful_steady : LawfulSource (Steady Float) Float :=
  Steady.lawful (by decide +kernel) (by decide +kernel)

theorem run_safe_errand :
    ∃ settings result t, Settings.ofEntries [] = .ok settings ∧
      run settings.plan errand (fun _ => 0) (Search.start (⟨⟩ : Steady Float)) = .ok result t ∧
      result.population.Fit errand := by
  have lawful := lawful_steady
  have usable : (match Settings.ofEntries [] with
      | .ok settings => decide (settings.targetSize < 2 ^ 53)
      | .error _ => false) = true := by decide +kernel
  cases configured : Settings.ofEntries [] with
  | error fault =>
      rw [configured] at usable
      cases usable
  | ok settings =>
      rw [configured] at usable
      obtain ⟨-, result, t, success, fit, -⟩ := run_safe configured (of_decide_eq_true usable)
        check_errand (fun _ => 0)
        (Search.start (⟨⟩ : Steady Float))
      exact ⟨settings, result, t, rfl, success, fit⟩

end Run

end EvoSched
