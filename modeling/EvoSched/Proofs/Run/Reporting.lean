import EvoSched.Proofs.Run.Safety
import EvoSched.Proofs.Search.Reporting

set_option autoImplicit false

namespace EvoSched

open Search (Agrees Matches SameSearch Prints)

namespace Run

variable {σ α : Type} [Scalar α] {plan plan' : Plan α} {problem : Problem α} {clock : Nat → α}

omit [Scalar α] in
theorem matches_now (clock : Nat → α) : Matches (now clock : SearchM σ α α) (now clock) :=
  fun s printed => .ok (clock s.readings) { s with readings := s.readings + 1 } printed

theorem matches_record (clock : Nat → α) (started : α) (generation : Nat) :
    Matches (record clock started generation : SearchM σ α (Record α))
      (record clock started generation) := by
  refine .get (fun _ _ => rfl) fun s => .bind (.ofResult _) fun best => ?_
  exact .bind (matches_now clock) fun t => .pure _

theorem matches_report (r : Record α) :
    Matches (report plan r : SearchM σ α Unit) (report plan' r) :=
  .of_reports (prints_report r) (prints_report r)

theorem matches_verdict (same : SameSearch plan plan') (started : α) {more more' : Nat}
    (left : more = 0 ↔ more' = 0) :
    Matches (verdict plan clock started more : SearchM σ α (Option StopReason))
      (verdict plan' clock started more') := by
  intro s printed
  rw [verdict_eq_ite, verdict_eq_ite, same.maxSeconds]
  simp only [left]
  split
  · exact .ok _ s printed
  · split
    · exact .ok _ s printed
    · split
      · exact .ok _ s printed
      · exact .ok _ { s with readings := s.readings + 1 } printed

theorem matches_note (due : 0 < plan.reportEvery) (due' : 0 < plan'.reportEvery)
    (progress : Progress α) :
    Matches (note plan clock progress : SearchM σ α (Progress α)) (note plan' clock progress) := by
  have noted {plan : Plan α} (due : 0 < plan.reportEvery) (r : Record α) (s : Search σ α) :
      ∃ printed, (do
        if ← ofResult (isReported plan (progress.generation + 1)) then report plan r
        pure { progress with
          generation := progress.generation + 1
          history := progress.history ++ [r] } : SearchM σ α (Progress α)) s =
        .ok ⟨progress.started, progress.generation + 1, progress.history ++ [r]⟩
          { s with printed } := by
    have checked : isReported plan (progress.generation + 1) =
        .ok ((progress.generation + 1) % plan.reportEvery == 0) := if_neg (by omega)
    rw [bind_of_ok (ofResult_ok checked s)]
    cases (progress.generation + 1) % plan.reportEvery == 0 with
    | false => exact ⟨s.printed, rfl⟩
    | true =>
        have prints : Prints (report plan r : SearchM σ α Unit) := prints_report r
        obtain ⟨printed, reported⟩ := prints s
        exact ⟨printed, bind_ok reported rfl⟩
  exact .bind (matches_record clock _ _) fun r => .of_reports (noted due r) (noted due' r)

theorem matches_conclude (same : SameSearch plan plan') (progress : Progress α)
    (reason : StopReason) :
    Matches (conclude plan clock progress reason : SearchM σ α (RunResult α))
      (conclude plan' clock progress reason) := by
  unfold conclude
  refine .bind (matches_now clock) fun t => .get (fun _ _ => rfl) fun s => ?_
  refine .bind (.ofResult _) fun best => ?_
  have rest (result : Bounds α → RunResult α) : Matches
      (do let bounds ← Search.knownBounds; pure (result bounds) : SearchM σ α (RunResult α))
      (do let bounds ← Search.knownBounds; pure (result bounds)) :=
    .bind (.get (fun _ _ => rfl) fun u => .ofResult _) fun bounds => .pure _
  have said (elapsed : α) : Prints (Search.sayEach
      (closing progress.generation reason elapsed best) : SearchM σ α Unit) :=
    Search.prints_sayEach _
  rw [same.strategy]
  cases plan.verbose <;> cases plan'.verbose
  · exact rest _
  · exact .prints_right (said _) (rest _)
  · exact .prints_left (said _) (rest _)
  · exact .prints_left (said _) (.prints_right (said _) (rest _))

variable [Source σ α] {wheel : Wheel σ α}

theorem matches_begin (same : SameSearch plan plan') :
    Matches (begin plan problem : SearchM σ α Unit) (begin plan' problem) := by
  refine .bind (.modify fun _ _ => rfl) fun _ => ?_
  refine .bind (.bind (.ofResult _) fun bounds => .bind (.modify fun _ _ => rfl) fun _ => .pure _)
    fun bounds => ?_
  unfold Search.populate
  rw [same.populationSize]
  exact .bind (.bind (.onSource _) fun members => .setPopulation _)
    fun _ => Search.matches_evaluate_select same

theorem matches_launch (same : SameSearch plan plan') :
    Matches (launch plan problem clock : SearchM σ α (Progress α))
      (launch plan' problem clock) := by
  refine .bind (.ofResult _) fun _ => .bind (matches_now clock) fun started => ?_
  refine .bind (matches_begin same) fun _ => .bind (matches_record clock _ _) fun r => ?_
  exact .bind (matches_report r) fun _ => .pure _

theorem matches_loop (same : SameSearch plan plan') (due : 0 < plan.reportEvery)
    (due' : 0 < plan'.reportEvery) (more : Nat) (progress : Progress α) :
    Matches (loop wheel plan problem clock more progress)
      (loop wheel plan' problem clock more progress) := by
  induction more generalizing progress with
  | zero => exact .bind (matches_verdict same _ Iff.rfl) fun reason => .pure _
  | succ more ih =>
      refine .bind (matches_verdict same _ Iff.rfl) fun decision => ?_
      cases decision with
      | some reason => exact .pure _
      | none =>
          exact .bind (Search.matches_evolve same) fun _ =>
            .bind (matches_note due due' progress) fun later => ih later

theorem matches_run (same : SameSearch plan plan') (due : 0 < plan.reportEvery)
    (due' : 0 < plan'.reportEvery) (generations : plan'.maxGenerations = plan.maxGenerations) :
    Matches (runOn wheel plan problem clock) (runOn wheel plan' problem clock) := by
  unfold runOn
  rw [generations]
  refine .bind (matches_launch same) fun progress => ?_
  refine .bind (matches_loop same due due' _ progress) ?_
  rintro ⟨last, reason⟩
  exact matches_conclude same last reason

/-- Settings that differ only in their reports and workers, and in what breeding does with parents
where there is no breeding, describe the same search. -/
theorem sameSearch_of_settings (settings : Settings) {verbose mergeParents : Document}
    (reportEvery workers : Nat)
    (merging : settings.strategy = .grow → mergeParents = settings.mergeParents) :
    SameSearch settings.plan
      { settings with verbose, reportEvery, workers, mergeParents : Settings }.plan := by
  unfold Settings.plan
  refine ⟨rfl, rfl, rfl, rfl, rfl, rfl, rfl, ?_⟩
  cases strategy : settings.strategy with
  | replace => rfl
  | grow => simp only [merging strategy]

/-- Neither reports nor workers have an influence on the search: runs on doubles by two accepted
settings that differ in nothing else give the same result and leave the source of draws in the same
state, or fault alike. With an accepted problem and a source that keeps its promises there is such a
result. -/
theorem run_ignores_reporting {σ : Type} [Source σ Float]
    {entries entries' : List (String × Document)} {settings : Settings}
    {verbose mergeParents : Document} {reportEvery workers : Nat} {problem : Problem Float}
    (configured : Settings.ofEntries entries = .ok settings)
    (configured' : Settings.ofEntries entries' =
      .ok { settings with verbose, reportEvery, workers, mergeParents })
    (merging : settings.strategy = .grow → mergeParents = settings.mergeParents)
    (clock : Nat → Float) (start : Search σ Float) :
    (∀ result t, run settings.plan problem clock start = .ok result t →
      ∃ t', run { settings with verbose, reportEvery, workers, mergeParents : Settings }.plan
          problem clock start = .ok result t' ∧ t'.source = t.source) ∧
    (∀ fault t, run settings.plan problem clock start = .error fault t →
      ∃ t', run { settings with verbose, reportEvery, workers, mergeParents : Settings }.plan
          problem clock start = .error fault t' ∧ t'.source = t.source) ∧
    (LawfulSource σ Float → settings.targetSize < 2 ^ 53 → problem.check = .ok () →
      ∃ result t, run settings.plan problem clock start = .ok result t) := by
  have agrees : Agrees (run settings.plan problem clock start)
      (run { settings with verbose, reportEvery, workers, mergeParents : Settings }.plan
        problem clock start) :=
    matches_run (sameSearch_of_settings settings reportEvery workers merging)
      (Settings.valid_plan configured).reportEvery (Settings.valid_plan configured').reportEvery
      (by simp only [Settings.plan]) start start.printed
  refine ⟨?_, ?_, ?_⟩
  · intro result t success
    obtain ⟨printed, same⟩ := agrees.of_ok success
    exact ⟨_, same, rfl⟩
  · intro fault t failed
    exact agrees.of_error failed
  · exact exists_result_of_settings configured clock start

theorem run_ignores_reporting_errand :
    ∃ result t t', run (Settings.standard 100 1 false 10).plan errand (fun _ => 0)
        (Search.start (⟨⟩ : Steady Float)) = .ok result t ∧
      run (Settings.standard 100 4 true 1).plan errand (fun _ => 0)
        (Search.start (⟨⟩ : Steady Float)) = .ok result t' ∧ t'.source = t.source := by
  have configured := Settings.ofEntries_standard (by decide : 0 < 100) one_pos
    (by decide : 0 < 10) false
  have configured' := Settings.ofEntries_standard (by decide : 0 < 100) (by decide : 0 < 4)
    one_pos true
  obtain ⟨alike, -, returns⟩ := run_ignores_reporting configured configured' (fun _ => rfl)
    (fun _ => 0) (Search.start (⟨⟩ : Steady Float))
  obtain ⟨result, t, success⟩ := returns lawful_steady (by decide) check_errand
  obtain ⟨t', same, drawn⟩ := alike result t success
  exact ⟨result, t, t', success, same, drawn⟩

end Run

end EvoSched
