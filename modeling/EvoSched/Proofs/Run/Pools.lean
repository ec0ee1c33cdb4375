import Mathlib.Data.List.Chain
import EvoSched.Proofs.Run.Course

set_option autoImplicit false

namespace EvoSched.Run

variable {σ α : Type} [Scalar α] [Source σ α] {wheel : Wheel σ α} {plan : Plan α}
  {problem : Problem α} {clock : Nat → α} {start : Search σ α}

/-- A run from `start` goes on from `s`: it reads the clock, if at all, up to `t`, and the
generation that follows ends in `u`. -/
structure Turns (wheel : Wheel σ α) (plan : Plan α) (problem : Problem α) (clock : Nat → α)
    (start : Search σ α) (progress : Progress α) (s t u : Search σ α) : Prop where
  reached : Reaches wheel plan problem clock start progress s
  decided : verdict plan clock progress.started (plan.maxGenerations - progress.generation) s =
    .ok none t
  evolved : Search.evolve wheel plan problem t = .ok () u

/-- A run from `start` comes to evaluate the population of this state. -/
inductive Gathers (wheel : Wheel σ α) (plan : Plan α) (problem : Problem α) (clock : Nat → α)
    (start : Search σ α) : Search σ α → Prop
  | first {u : Search σ α} :
      problem.check = .ok () →
      assemble plan problem { start with readings := start.readings + 1 } = .ok () u →
      Gathers wheel plan problem clock start u
  | next {progress : Progress α} {s t u : Search σ α} {pool : Population α} :
      Reaches wheel plan problem clock start progress s →
      verdict plan clock progress.started (plan.maxGenerations - progress.generation) s =
        .ok none t →
      Search.gather wheel plan problem t = .ok pool u →
      Gathers wheel plan problem clock start { u with population := pool }

/-- A run from `start` comes to evaluate a pool with this candidate, whose scores are the new
ones. -/
def Evaluates (wheel : Wheel σ α) (plan : Plan α) (problem : Problem α) (clock : Nat → α)
    (start : Search σ α) (c : Candidate α) : Prop :=
  ∃ u v, Gathers wheel plan problem clock start u ∧ Search.evaluate plan problem u = .ok () v ∧
    c ∈ v.population.members

/-- No fitness that a run from `start` comes to evaluate is a NaN. -/
def Compares (wheel : Wheel σ α) (plan : Plan α) (problem : Problem α) (clock : Nat → α)
    (start : Search σ α) : Prop :=
  ∀ c, Evaluates wheel plan problem clock start c → Population.isComparable c = true

theorem Compares.pool (compares : Compares wheel plan problem clock start) {u v : Search σ α}
    (gathers : Gathers wheel plan problem clock start u)
    (evaluated : Search.evaluate plan problem u = .ok () v) :
    ∀ c ∈ v.population.members, Population.isComparable c = true :=
  fun c member => compares c ⟨u, v, gathers, evaluated, member⟩

theorem Turns.pool {progress : Progress α} {s t u : Search σ α}
    (turns : Turns wheel plan problem clock start progress s t u) :
    ∃ pool v w, Search.gather wheel plan problem t = .ok pool v ∧
      Search.evaluate plan problem { v with population := pool } = .ok () w ∧
      u.bounds = w.bounds ∧ u.population = w.population.truncate plan.targetSize := by
  obtain ⟨pool, v, gathered, rest⟩ := Search.evolve_eq_ok_iff.1 turns.evolved
  obtain ⟨w, evaluated, bounds, population⟩ := Search.evaluate_select_eq_ok rest
  exact ⟨pool, v, w, gathered, evaluated, bounds, population⟩

theorem pool_of_reaches {progress : Progress α} {s : Search σ α}
    (reached : Reaches wheel plan problem clock start progress s) :
    ∃ u v, Gathers wheel plan problem clock start u ∧ Search.evaluate plan problem u = .ok () v ∧
      s.population = v.population.truncate plan.targetSize := by
  cases reached with
  | launched success =>
      obtain ⟨accepted, t, r, printed, begun, -, -, rfl⟩ := launch_eq_ok success
      obtain ⟨u, assembled, rest⟩ := begin_eq_ok_iff.1 begun
      obtain ⟨v, evaluated, -, population⟩ := Search.evaluate_select_eq_ok rest
      exact ⟨u, v, .first accepted assembled, evaluated, population⟩
  | evolved reached decided evolved noted =>
      obtain ⟨pool, v, w, gathered, evaluated, -, population⟩ :=
        Turns.pool ⟨reached, decided, evolved⟩
      obtain ⟨r, printed, -, -, rfl⟩ := note_eq_ok noted
      exact ⟨_, w, .next reached decided gathered, evaluated, population⟩

theorem bounds_of_gathers {bounds : Bounds α} {u : Search σ α} (known : problem.bounds = .ok bounds)
    (gathers : Gathers wheel plan problem clock start u) : u.bounds = some bounds := by
  cases gathers with
  | first accepted assembled =>
      obtain ⟨_, same, taken⟩ := bounds_of_assemble assembled
      cases known.symm.trans same
      exact taken
  | next reached decided gathered =>
      obtain ⟨⟨readings, rfl⟩, -⟩ := verdict_eq_ok decided
      have settled := settled_of_reaches known reached
      have lasts := Search.keeps_gather _ _ _ gathered
      exact (congrArg Prod.fst lasts).trans settled.known

theorem scored_of_evaluates {bounds : Bounds α} {c : Candidate α}
    (known : problem.bounds = .ok bounds)
    (evaluates : Evaluates wheel plan problem clock start c) :
    c.Scored problem bounds plan.timeWeight := by
  obtain ⟨u, v, gathers, evaluated, member⟩ := evaluates
  have taken := bounds_of_gathers known gathers
  exact (Search.scored_of_evaluate taken evaluated).1 c member

theorem evaluates_of_reaches {progress : Progress α} {s : Search σ α} {c : Candidate α}
    (reached : Reaches wheel plan problem clock start progress s)
    (member : c ∈ s.population.members) : Evaluates wheel plan problem clock start c := by
  obtain ⟨u, v, gathers, evaluated, population⟩ := pool_of_reaches reached
  rw [population] at member
  exact ⟨u, v, gathers, evaluated, Population.mem_truncate member⟩

/-- What holds between the records of any two successive generations holds along a history. -/
theorem isChain_of_reaches {R : Record α → Record α → Prop}
    (step : ∀ {progress : Progress α} {s t u : Search σ α} {r r' : Record α},
      Turns wheel plan problem clock start progress s t u → r.Describes s.population →
      r'.TakenFrom clock progress.started (progress.generation + 1) u → R r r')
    {progress : Progress α} {s : Search σ α}
    (reached : Reaches wheel plan problem clock start progress s) :
    progress.history.IsChain R := by
  induction reached with
  | launched success =>
      obtain ⟨-, _, r, _, -, -, rfl, -⟩ := launch_eq_ok success
      exact List.isChain_singleton r
  | evolved reached decided evolved noted ih =>
      obtain ⟨bounds, known⟩ := exists_bounds_of_reaches reached
      obtain ⟨last, ends, before⟩ := (settled_of_reaches known reached).latest
      obtain ⟨r, printed, after, rfl, -⟩ := note_eq_ok noted
      apply List.isChain_append.2
      refine ⟨ih, List.isChain_singleton r, ?_⟩
      intro x final y initial
      cases ends.symm.trans final
      cases initial
      exact step ⟨reached, decided, evolved⟩ before after

/-- A result tells the whole history of the course, whose last record is one of the best
candidate. -/
theorem history_of_run {result : RunResult α} {t : Search σ α}
    (success : runOn wheel plan problem clock start = .ok result t) :
    ∃ last s r, Reaches wheel plan problem clock start last s ∧ result.history = last.history ∧
      s.population.member 0 = .ok result.best ∧ result.history.getLast? = some r ∧
      r.bestFitness = result.best.fitness := by
  obtain ⟨last, s, u, reason, reached, decided, concluded⟩ := course_of_run success
  obtain ⟨bounds, known⟩ := exists_bounds_of_reaches reached
  obtain ⟨r, ends, front, taken, best, -⟩ := (settled_of_reaches known reached).latest
  obtain ⟨⟨readings, rfl⟩, -⟩ := verdict_eq_ok decided
  obtain ⟨first, -, history, -⟩ := conclude_eq_ok concluded
  cases taken.symm.trans first
  exact ⟨last, s, r, reached, history, first, history ▸ ends, best⟩

/-- What is left of a run after some progress. -/
def finish (wheel : Wheel σ α) (plan : Plan α) (problem : Problem α) (clock : Nat → α)
    (progress : Progress α) : SearchM σ α (RunResult α) := do
  let (last, reason) ←
    loop wheel plan problem clock (plan.maxGenerations - progress.generation) progress
  conclude plan clock last reason

/-- Where a run that is to return a result goes on, the next generation and the rest succeed. -/
theorem finish_of_decided {progress : Progress α} {s t v : Search σ α} {result : RunResult α}
    (decided : verdict plan clock progress.started (plan.maxGenerations - progress.generation) s =
      .ok none t)
    (success : finish wheel plan problem clock progress s = .ok result v) :
    ∃ u later w, Search.evolve wheel plan problem t = .ok () u ∧
      note plan clock progress u = .ok later w ∧
      finish wheel plan problem clock later w = .ok result v := by
  obtain ⟨⟨last, reason⟩, x, looped, concluded⟩ := bind_eq_ok.1 success
  cases left : plan.maxGenerations - progress.generation with
  | zero =>
      obtain ⟨-, -, stops⟩ := verdict_eq_ok decided
      exact absurd rfl (stops left)
  | succ more =>
      rw [left] at decided looped
      obtain ⟨_, _, same, looped⟩ := bind_eq_ok.1 looped
      cases decided.symm.trans same
      obtain ⟨_, u, evolved, looped⟩ := bind_eq_ok.1 looped
      obtain ⟨later, w, noted, looped⟩ := bind_eq_ok.1 looped
      obtain ⟨r, printed, -, counted, -⟩ := note_eq_ok noted
      have fewer : plan.maxGenerations - later.generation = more := by
        rw [counted]
        simp only
        omega
      rw [← fewer] at looped
      exact ⟨u, later, w, evolved, noted, bind_ok looped concluded⟩

theorem finish_of_reaches {result : RunResult α} {v : Search σ α}
    (success : runOn wheel plan problem clock start = .ok result v) {progress : Progress α}
    {s : Search σ α} (reached : Reaches wheel plan problem clock start progress s) :
    finish wheel plan problem clock progress s = .ok result v := by
  induction reached with
  | launched launched =>
      obtain ⟨_, _, same, rest⟩ := bind_eq_ok.1 success
      cases launched.symm.trans same
      obtain ⟨-, _, _, _, -, -, rfl, -⟩ := launch_eq_ok launched
      exact rest
  | evolved reached decided evolved noted ih =>
      obtain ⟨_, _, _, same, again, rest⟩ := finish_of_decided decided ih
      cases evolved.symm.trans same
      cases noted.symm.trans again
      exact rest

theorem prefix_of_loop {more : Nat} {progress last : Progress α} {s t : Search σ α}
    {reason : StopReason}
    (success : loop wheel plan problem clock more progress s = .ok (last, reason) t) :
    progress.history <+: last.history := by
  induction more generalizing progress s with
  | zero =>
      obtain ⟨decision, u, -, rest⟩ := bind_eq_ok.1 success
      cases rest
      exact List.prefix_rfl
  | succ more ih =>
      obtain ⟨decision, u, -, rest⟩ := bind_eq_ok.1 success
      cases decision with
      | some reason =>
          cases rest
          exact List.prefix_rfl
      | none =>
          obtain ⟨_, v, -, rest⟩ := bind_eq_ok.1 rest
          obtain ⟨later, w, noted, rest⟩ := bind_eq_ok.1 rest
          obtain ⟨r, printed, -, rfl, -⟩ := note_eq_ok noted
          have grown : progress.history <+: progress.history ++ [r] := List.prefix_append _ _
          exact grown.trans (ih rest)

/-- A result forgets no record that was made on the way. -/
theorem prefix_of_run {result : RunResult α} {v : Search σ α}
    (success : runOn wheel plan problem clock start = .ok result v) {progress : Progress α}
    {s : Search σ α} (reached : Reaches wheel plan problem clock start progress s) :
    progress.history <+: result.history := by
  obtain ⟨⟨last, reason⟩, u, looped, concluded⟩ :=
    bind_eq_ok.1 (finish_of_reaches success reached)
  obtain ⟨-, -, history, -⟩ := conclude_eq_ok concluded
  rw [history]
  exact prefix_of_loop looped

/-- A run that returns a result cuts every pool that it evaluates to size and comes to decide about
it. -/
theorem reaches_of_gathers {result : RunResult α} {x u v : Search σ α}
    (success : runOn wheel plan problem clock start = .ok result x)
    (gathers : Gathers wheel plan problem clock start u)
    (evaluated : Search.evaluate plan problem u = .ok () v) :
    ∃ progress s, Reaches wheel plan problem clock start progress s ∧
      s.population = v.population.truncate plan.targetSize := by
  cases gathers with
  | first accepted assembled =>
      obtain ⟨progress, s, launched, -⟩ := bind_eq_ok.1 success
      obtain ⟨-, t, _, printed, begun, -, -, same⟩ := launch_eq_ok launched
      obtain ⟨_, again, rest⟩ := begin_eq_ok_iff.1 begun
      cases assembled.symm.trans again
      obtain ⟨_, repeated, -, population⟩ := Search.evaluate_select_eq_ok rest
      cases evaluated.symm.trans repeated
      refine ⟨progress, s, .launched launched, ?_⟩
      rw [same]
      exact population
  | next reached decided gathered =>
      obtain ⟨t, later, w, evolved, noted, -⟩ :=
        finish_of_decided decided (finish_of_reaches success reached)
      obtain ⟨_, _, _, again, repeated, -, population⟩ := Turns.pool ⟨reached, decided, evolved⟩
      cases gathered.symm.trans again
      cases evaluated.symm.trans repeated
      obtain ⟨r, printed, -, -, same⟩ := note_eq_ok noted
      refine ⟨later, w, .evolved reached decided evolved noted, ?_⟩
      rw [same]
      exact population

end EvoSched.Run
