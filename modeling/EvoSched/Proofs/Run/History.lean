import EvoSched.Proofs.Run.Pools
import EvoSched.Proofs.Search.Size

set_option autoImplicit false

namespace EvoSched.Run

variable {σ α : Type} [Scalar α] [Source σ α] {wheel : Wheel σ α} {plan : Plan α}
  {problem : Problem α} {clock : Nat → α} {start : Search σ α}

/-- The counters of a run from `start` that has come to `s`. -/
structure Counted (plan : Plan α) (clock : Nat → α) (start : Search σ α) (progress : Progress α)
    (s : Search σ α) : Prop where
  started : progress.started = clock start.readings
  within : progress.generation ≤ plan.maxGenerations
  numbered : progress.history.map (·.generation) =
    (List.range (progress.generation + 1)).map fun n : Nat => (n : Int)
  /-- The readings that the records were made at, in order. -/
  timed : ∃ moments : List Nat,
    progress.history.map (·.elapsed) = moments.map (fun k => clock k - clock start.readings) ∧
      moments.Pairwise (· < ·) ∧ ∀ k ∈ moments, start.readings < k ∧ k < s.readings
  later : start.readings < s.readings

theorem readings_of_begin {s t : Search σ α} (success : begin plan problem s = .ok () t) :
    t.readings = s.readings ∧ t.journal = [] := by
  obtain ⟨u, assembled, rest⟩ := begin_eq_ok_iff.1 success
  obtain ⟨bounds, members, source, -, -, rfl⟩ := assemble_eq_ok assembled
  obtain ⟨journal, readings⟩ := Prod.mk.inj (Search.keeps_evaluate_select _ _ _ rest)
  exact ⟨readings, journal⟩

theorem counted_of_reaches {progress : Progress α} {s : Search σ α}
    (reached : Reaches wheel plan problem clock start progress s) :
    Counted plan clock start progress s := by
  induction reached with
  | launched success =>
      obtain ⟨-, u, r, printed, begun, taken, rfl, rfl⟩ := launch_eq_ok success
      have read := (readings_of_begin begun).1
      simp only at read
      refine ⟨rfl, Nat.zero_le _, congrArg (· :: []) taken.generation, ⟨[u.readings],
        congrArg (· :: []) taken.elapsed, List.pairwise_singleton _ _, ?_⟩, by simp only; omega⟩
      rintro k (member : k ∈ [u.readings])
      obtain rfl := List.mem_singleton.1 member
      simp only
      omega
  | @evolved progress later s t u v reached decided evolved noted ih =>
      obtain ⟨-, left, readings, onward, rfl⟩ := verdict_eq_none decided
      have unread : u.readings = readings := Search.keeps_readings_evolve _ _ _ evolved
      obtain ⟨r, printed, taken, rfl, rfl⟩ := note_eq_ok noted
      obtain ⟨moments, times, increasing, past⟩ := ih.timed
      have begun := ih.later
      refine ⟨ih.started, ?_, ?_, ⟨moments ++ [u.readings], ?_, ?_, ?_⟩, by simp only; omega⟩
      · simp only
        omega
      · have longer : List.range (progress.generation + 1 + 1) =
            List.range (progress.generation + 1) ++ [progress.generation + 1] := List.range_succ
        simp only [longer, List.map_append, ih.numbered]
        exact congrArg _ (congrArg (· :: []) taken.generation)
      · rw [List.map_append, times, List.map_append, ← ih.started]
        exact congrArg _ (congrArg (· :: []) taken.elapsed)
      · refine List.pairwise_append.2 ⟨increasing, List.pairwise_singleton _ _, ?_⟩
        intro k member last (final : last ∈ [u.readings])
        obtain rfl := List.mem_singleton.1 final
        exact (past k member).2.trans_le (unread ▸ onward)
      · intro k member
        simp only
        rcases List.mem_append.1 member with member | member
        · have := past k member
          omega
        · obtain rfl := List.mem_singleton.1 member
          omega

omit [Source σ α] in
theorem Counted.length {progress : Progress α} {s : Search σ α}
    (counted : Counted plan clock start progress s) :
    progress.history.length = progress.generation + 1 := by
  simpa using congrArg List.length counted.numbered

omit [Source σ α] in
theorem Counted.generation {progress : Progress α} {s : Search σ α}
    (counted : Counted plan clock start progress s) {g : Nat} {r : Record α}
    (found : progress.history[g]? = some r) : r.generation = g := by
  have numbers := congrArg (·[g]?) counted.numbered
  have inside : g < progress.generation + 1 := by
    rw [← counted.length]
    exact (List.getElem?_eq_some_iff.1 found).1
  simp only [List.getElem?_map, found, List.getElem?_range inside, Option.map_some] at numbers
  exact Option.some.inj numbers

/-- Every record is one of a state of the course. -/
theorem reaches_of_record {progress : Progress α} {s : Search σ α}
    (reached : Reaches wheel plan problem clock start progress s) :
    ∀ r ∈ progress.history, ∃ earlier u, Reaches wheel plan problem clock start earlier u ∧
      r.generation = earlier.generation ∧ r.Describes u.population := by
  induction reached with
  | launched success =>
      obtain ⟨-, u, r, printed, -, taken, rfl, rfl⟩ := launch_eq_ok success
      intro other member
      obtain rfl := List.mem_singleton.1 member
      exact ⟨_, _, .launched success, taken.generation, taken.describes⟩
  | evolved reached decided evolved noted ih =>
      obtain ⟨r, printed, taken, rfl, rfl⟩ := note_eq_ok noted
      intro other member
      rcases List.mem_append.1 member with member | member
      · exact ih other member
      · obtain rfl := List.mem_singleton.1 member
        exact ⟨_, _, .evolved reached decided evolved noted, taken.generation, taken.describes⟩

theorem reaches_of_getElem? {progress : Progress α} {s : Search σ α}
    (reached : Reaches wheel plan problem clock start progress s) {g : Nat} {r : Record α}
    (found : progress.history[g]? = some r) :
    ∃ earlier u, Reaches wheel plan problem clock start earlier u ∧ earlier.generation = g ∧
      r.Describes u.population := by
  obtain ⟨earlier, u, passed, numbered, describes⟩ :=
    reaches_of_record reached r (List.mem_of_getElem? found)
  rw [(counted_of_reaches reached).generation found] at numbered
  exact ⟨earlier, u, passed, (Int.ofNat.inj numbered).symm, describes⟩

/-- A result tells of the state in which the run has stopped. -/
theorem end_of_run {result : RunResult α} {t : Search σ α}
    (success : runOn wheel plan problem clock start = .ok result t) :
    ∃ last s u, Reaches wheel plan problem clock start last s ∧
      verdict plan clock last.started (plan.maxGenerations - last.generation) s =
        .ok (some result.stopReason) u ∧
      result.history = last.history ∧ result.generations = last.generation ∧
      result.population = s.population ∧ s.population.member 0 = .ok result.best ∧
      result.elapsed = clock u.readings - last.started ∧
      result.totalMutations = (result.history.map fun r => r.mutations.getD 0).sum ∧
      t.readings = u.readings + 1 := by
  obtain ⟨last, s, u, reason, reached, decided, concluded⟩ := course_of_run success
  obtain ⟨⟨readings, rfl⟩, -⟩ := verdict_eq_ok decided
  obtain ⟨front, population, history, rfl, -, generations, elapsed, total, read⟩ :=
    conclude_eq_ok concluded
  rw [← history] at total
  exact ⟨last, s, _, reached, decided, history, generations, population, front, elapsed, total,
    read⟩

theorem length_history {result : RunResult α} {t : Search σ α}
    (success : runOn wheel plan problem clock start = .ok result t) :
    result.history.length = result.generations + 1 := by
  obtain ⟨last, s, u, reached, -, history, generations, -⟩ := end_of_run success
  rw [history, generations]
  exact (counted_of_reaches reached).length

/-- The first record counts no mutation. -/
theorem opening_of_reaches {progress : Progress α} {s : Search σ α}
    (reached : Reaches wheel plan problem clock start progress s) :
    ∃ r, progress.history[0]? = some r ∧ r.mutations = some 0 := by
  induction reached with
  | launched success =>
      obtain ⟨-, u, r, printed, begun, taken, rfl, rfl⟩ := launch_eq_ok success
      refine ⟨r, rfl, ?_⟩
      rw [taken.mutations, (readings_of_begin begun).2]
      rfl
  | evolved reached decided evolved noted ih =>
      obtain ⟨first, found, none⟩ := ih
      obtain ⟨r, printed, taken, rfl, rfl⟩ := note_eq_ok noted
      have inside := (List.getElem?_eq_some_iff.1 found).1
      exact ⟨first, (List.getElem?_append_left inside).trans found, none⟩

/-- A generation mutates no more than the members past the protected ranks. -/
theorem mutations_of_reaches (fits : ∀ size : Nat, size < 2 ^ 53 → Search.PairsFit plan size)
    {progress : Progress α} {s : Search σ α}
    (reached : Reaches wheel plan problem clock start progress s) :
    progress.history.IsChain fun r r' => r.populationSize < 2 ^ 53 →
      ∃ n : Nat, r'.mutations = some n ∧
        (n : Int) ≤ max 0 (r.populationSize - (plan.elitism : Int)) := by
  refine isChain_of_reaches ?_ reached
  intro progress s t u r r' turns before after small
  obtain ⟨⟨readings, rfl⟩, -⟩ := verdict_eq_ok turns.decided
  obtain ⟨best, -, -, -, -, -, size⟩ := before
  rw [size] at small ⊢
  have entries := Search.journal_evolve (by exact fits s.population.size (by omega)) turns.evolved
  refine ⟨_, after.mutations, ?_⟩
  simp only at entries
  omega

/-- A clock that never goes back. -/
def Forward (clock : Nat → α) : Prop := ∀ k, clock k ≤ clock (k + 1)

theorem Forward.le [OrderedScalar α] (forward : Forward clock) {i j : Nat} (before : i < j) :
    clock i ≤ clock j := by
  induction j, before using Nat.le_induction with
  | base => exact forward i
  | succ j before ih => exact OrderedScalar.le_trans ih (forward j)

omit [Source σ α] in
/-- As long as the clock never goes back, the times of later records are no smaller. -/
theorem Counted.elapsed [OrderedScalar α] [MonotoneScalar α] (forward : Forward clock)
    (finite : Scalar.isFinite (clock start.readings) = true) {progress : Progress α}
    {s : Search σ α} (counted : Counted plan clock start progress s) {k : Nat}
    (later : s.readings ≤ k) :
    (progress.history.map (·.elapsed) ++ [clock k - clock start.readings]).Pairwise (· ≤ ·) := by
  obtain ⟨moments, times, increasing, past⟩ := counted.timed
  have moved {i j : Nat} (before : i < j) :
      clock i - clock start.readings ≤ clock j - clock start.readings :=
    MonotoneScalar.sub_le_sub finite (forward.le before)
  rw [times]
  refine List.pairwise_append.2 ⟨?_, List.pairwise_singleton _ _, ?_⟩
  · exact List.pairwise_map.2 (increasing.imp moved)
  · intro x member y final
    obtain rfl := List.mem_singleton.1 final
    obtain ⟨i, among, rfl⟩ := List.mem_map.1 member
    exact moved ((past i among).2.trans_le later)

end EvoSched.Run
