import EvoSched.Proofs.Run.History
import EvoSched.Proofs.Run.Reporting

set_option autoImplicit false

namespace EvoSched

open Search (Agrees Matches SameSearch)

namespace Search

variable {σ α β γ δ : Type}

/-- Two computations match, or the first comes to a point where it stops in one way and the second
goes on in another. -/
def Outlasts (stop go : β → SearchM σ α γ) (act act' : SearchM σ α γ) : Prop :=
  ∀ s printed, Agrees (act s) (act' { s with printed }) ∨
    ∃ x t printed', act s = stop x t ∧ act' { s with printed } = go x { t with printed := printed' }

namespace Outlasts

variable {stop go : β → SearchM σ α γ} {act act' : SearchM σ α γ}

theorem of_matches (same : Matches act act') : Outlasts stop go act act' :=
  fun s printed => .inl (same s printed)

theorem after {first first' : SearchM σ α δ} {next next' : δ → SearchM σ α γ}
    (same : Matches first first') (rest : ∀ x, Outlasts stop go (next x) (next' x)) :
    Outlasts stop go (first >>= next) (first' >>= next') := by
  intro s printed
  have begun := same s printed
  cases result : first s with
  | ok x t =>
      obtain ⟨printed', result'⟩ := begun.of_ok result
      rw [bind_of_ok result, bind_of_ok result']
      exact rest x t printed'
  | error fault t =>
      obtain ⟨t', result', drawn⟩ := begun.of_error result
      rw [bind_error result, bind_error result']
      exact .inl (.error fault drawn)

theorem bind {next next' : γ → SearchM σ α δ} (outlasts : Outlasts stop go act act')
    (same : ∀ y, Matches (next y) (next' y)) :
    Outlasts (fun x => stop x >>= next) (fun x => go x >>= next') (act >>= next)
      (act' >>= next') := by
  intro s printed
  rcases outlasts s printed with agrees | ⟨x, t, printed', stopped, went⟩
  · left
    cases result : act s with
    | ok y t =>
        obtain ⟨printed', result'⟩ := agrees.of_ok result
        rw [bind_of_ok result, bind_of_ok result']
        exact same y t printed'
    | error fault t =>
        obtain ⟨t', result', drawn⟩ := agrees.of_error result
        rw [bind_error result, bind_error result']
        exact .error fault drawn
  · exact .inr ⟨x, t, printed', bind_congr_of_eq stopped, bind_congr_of_eq went⟩

end Outlasts

end Search

open Search (Outlasts)

namespace Run

variable {σ α : Type} [Scalar α] [Source σ α] {wheel : Wheel σ α} {plan plan' : Plan α}
  {problem : Problem α} {clock : Nat → α}

theorem loop_of_optimum (more : Nat) (progress : Progress α) {s : Search σ α}
    (optimum : s.population.hasOptimum = true) :
    loop wheel plan problem clock more progress s = .ok (progress, .optimal) s := by
  have decided : verdict plan clock progress.started more s = .ok (some .optimal) s := by
    rw [verdict_eq_ite, if_pos optimum]
  cases more with
  | zero => exact bind_ok decided rfl
  | succ more => exact bind_ok decided rfl

theorem loop_of_spent (progress : Progress α) {s : Search σ α}
    (short : s.population.hasOptimum = false) :
    loop wheel plan problem clock 0 progress s = .ok (progress, .maxGenerations) s := by
  have decided : verdict plan clock progress.started 0 s = .ok (some .maxGenerations) s := by
    rw [verdict_eq_ite, short]
    rfl
  exact bind_ok decided rfl

/-- With `extra` generations more, the loop does the same, or it goes on where the shorter one has
used up its generations. -/
theorem loop_outlasts (same : SameSearch plan plan') (due : 0 < plan.reportEvery)
    (due' : 0 < plan'.reportEvery) (extra more : Nat) (progress : Progress α) :
    Outlasts (fun last => pure (last, .maxGenerations))
      (fun last => loop wheel plan' problem clock extra last)
      (loop wheel plan problem clock more progress)
      (loop wheel plan' problem clock (more + extra) progress) := by
  induction more generalizing progress with
  | zero =>
      intro s printed
      rw [Nat.zero_add]
      rcases Bool.eq_false_or_eq_true s.population.hasOptimum with optimum | short
      · left
        have stops : loop wheel plan' problem clock extra progress { s with printed } =
            .ok (progress, .optimal) { s with printed } :=
          loop_of_optimum extra progress optimum
        rw [loop_of_optimum 0 progress optimum, stops]
        exact .ok _ s printed
      · exact .inr ⟨progress, s, printed, loop_of_spent progress short, rfl⟩
  | succ more ih =>
      rw [Nat.succ_add]
      refine .after (matches_verdict same _ (iff_of_false more.succ_ne_zero (Nat.succ_ne_zero _)))
        fun decision => ?_
      cases decision with
      | some reason => exact .of_matches (.pure _)
      | none =>
          exact .after (Search.matches_evolve same) fun _ =>
            .after (matches_note due due' progress) fun later => ih later

/-- So does a run. -/
theorem run_outlasts (same : SameSearch plan plan') (due : 0 < plan.reportEvery)
    (due' : 0 < plan'.reportEvery) {extra : Nat}
    (longer : plan'.maxGenerations = plan.maxGenerations + extra) :
    Outlasts (fun last => conclude plan clock last .maxGenerations)
      (fun last => do
        let (last, reason) ← loop wheel plan' problem clock extra last
        conclude plan' clock last reason)
      (runOn wheel plan problem clock) (runOn wheel plan' problem clock) := by
  unfold runOn
  rw [longer]
  refine .after (matches_launch same) fun progress => ?_
  exact (loop_outlasts same due due' extra _ progress).bind fun stopped =>
    matches_conclude same stopped.1 stopped.2

variable {start : Search σ α} {result result' : RunResult α} {t t' : Search σ α}

/-- The history of a longer run begins with that of the shorter one. -/
theorem history_of_longer (same : SameSearch plan plan') (due : 0 < plan.reportEvery)
    (due' : 0 < plan'.reportEvery) {extra : Nat}
    (longer : plan'.maxGenerations = plan.maxGenerations + extra)
    (success : runOn wheel plan problem clock start = .ok result t)
    (success' : runOn wheel plan' problem clock start = .ok result' t') :
    result.history = result'.history.take (result.generations + 1) := by
  rw [← length_history success]
  apply List.prefix_iff_eq_take.1
  rcases run_outlasts same due due' longer start start.printed with
    agrees | ⟨last, u, printed, stopped, went⟩
  · obtain ⟨printed, again⟩ := agrees.of_ok success
    cases success'.symm.trans again
    exact List.prefix_rfl
  · obtain ⟨⟨final, reason⟩, v, looped, concluded⟩ := bind_eq_ok.1 (went.symm.trans success')
    obtain ⟨-, -, history, -⟩ := conclude_eq_ok (stopped.symm.trans success)
    obtain ⟨-, -, history', -⟩ := conclude_eq_ok concluded
    rw [history, history']
    exact prefix_of_loop looped

/-- A run that stops for another reason than its budget stops so with any larger one. -/
theorem stop_of_longer (same : SameSearch plan plan') (due : 0 < plan.reportEvery)
    (due' : 0 < plan'.reportEvery) {extra : Nat}
    (longer : plan'.maxGenerations = plan.maxGenerations + extra)
    (success : runOn wheel plan problem clock start = .ok result t)
    (other : result.stopReason ≠ .maxGenerations) :
    ∃ t', runOn wheel plan' problem clock start = .ok result t' ∧ t'.source = t.source := by
  rcases run_outlasts same due due' longer start start.printed with
    agrees | ⟨last, u, printed, stopped, -⟩
  · obtain ⟨printed, again⟩ := agrees.of_ok success
    exact ⟨_, again, rfl⟩
  · obtain ⟨-, -, -, reason, -⟩ := conclude_eq_ok (stopped.symm.trans success)
    exact absurd reason other

/-- A larger budget of generations only extends a run: on doubles, of two runs by accepted settings
that differ in their budgets, the history of the longer one begins with the whole history of the
shorter one, and both give the same result where the shorter one stops for another reason. -/
theorem run_extends {σ : Type} [Source σ Float] {entries entries' : List (String × Document)}
    {settings : Settings} {generations : Nat} {problem : Problem Float}
    (configured : Settings.ofEntries entries = .ok settings)
    (configured' : Settings.ofEntries entries' =
      .ok { settings with maxGenerations := generations })
    (longer : settings.maxGenerations ≤ generations) (clock : Nat → Float)
    (start : Search σ Float) :
    (∀ result t result' t', run settings.plan problem clock start = .ok result t →
      run { settings with maxGenerations := generations : Settings }.plan problem clock start =
        .ok result' t' →
      result.history = result'.history.take (result.generations + 1)) ∧
    (∀ result t, run settings.plan problem clock start = .ok result t →
      result.stopReason ≠ .maxGenerations →
      ∃ t', run { settings with maxGenerations := generations : Settings }.plan problem clock
        start = .ok result t' ∧ t'.source = t.source) ∧
    (LawfulSource σ Float → settings.targetSize < 2 ^ 53 → problem.check = .ok () →
      ∃ result t result' t', run settings.plan problem clock start = .ok result t ∧
        run { settings with maxGenerations := generations : Settings }.plan problem clock start =
          .ok result' t') := by
  have valid := Settings.valid_plan configured
  have valid' := Settings.valid_plan configured'
  have same : SameSearch settings.plan
      { settings with maxGenerations := generations : Settings }.plan := by
    unfold Settings.plan
    exact ⟨rfl, rfl, rfl, rfl, rfl, rfl, rfl, rfl⟩
  have budget : { settings with maxGenerations := generations : Settings }.plan.maxGenerations =
      settings.plan.maxGenerations + (generations - settings.maxGenerations) := by
    unfold Settings.plan
    exact (Nat.add_sub_cancel' longer).symm
  refine ⟨?_, ?_, ?_⟩
  · intro result t result' t' success success'
    exact history_of_longer same valid.reportEvery valid'.reportEvery budget success success'
  · intro result t success other
    exact stop_of_longer same valid.reportEvery valid'.reportEvery budget success other
  · intro lawful small accepted
    obtain ⟨result, t, success⟩ :=
      exists_result_of_settings configured clock start lawful small accepted
    obtain ⟨result', t', success'⟩ :=
      exists_result_of_settings configured' clock start lawful small accepted
    exact ⟨result, t, result', t', success, success'⟩

theorem run_extends_errand :
    ∃ result t result' t', run (Settings.standard 1 1 false 10).plan errand (fun _ => 0)
        (Search.start (⟨⟩ : Steady Float)) = .ok result t ∧
      run (Settings.standard 100 1 false 10).plan errand (fun _ => 0)
        (Search.start (⟨⟩ : Steady Float)) = .ok result' t' ∧
      result.history = result'.history.take (result.generations + 1) := by
  have configured := Settings.ofEntries_standard one_pos one_pos (by decide : 0 < 10) false
  have configured' := Settings.ofEntries_standard (by decide : 0 < 100) one_pos
    (by decide : 0 < 10) false
  obtain ⟨begins, -, returns⟩ := run_extends configured configured' (by decide) (fun _ => 0)
    (Search.start (⟨⟩ : Steady Float))
  obtain ⟨result, t, result', t', success, success'⟩ :=
    returns lawful_steady (by decide) check_errand
  exact ⟨result, t, result', t', success, success', begins _ _ _ _ success success'⟩

end Run

end EvoSched
