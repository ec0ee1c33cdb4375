import EvoSched.Proofs.Run.Sizes
import EvoSched.Random.Source

set_option autoImplicit false

namespace EvoSched

namespace Run

variable {σ α : Type} [Scalar α] [Source σ α] {wheel : Wheel σ α} {plan : Plan α}
  {problem : Problem α} {clock : Nat → α} {start : Search σ α}

theorem size_le_of_reaches {progress : Progress α} {s : Search σ α}
    (reached : Reaches wheel plan problem clock start progress s) :
    s.population.size ≤ plan.targetSize := by
  cases reached with
  | launched success =>
      obtain ⟨-, u, r, printed, begun, -, -, rfl⟩ := launch_eq_ok success
      exact (size_of_begin begun).trans_le (Nat.min_le_left _ _)
  | evolved before decided evolved noted =>
      obtain ⟨pool, w, -, rest⟩ := Search.evolve_eq_ok_iff.1 evolved
      obtain ⟨r, printed, -, -, rfl⟩ := note_eq_ok noted
      exact (Search.size_evaluate_select rest).trans_le (Nat.min_le_left _ _)

/-- The numbers in a record of a result are those of a state of the course. -/
theorem extent_of_record {result : RunResult α} {t : Search σ α}
    (success : runOn wheel plan problem clock start = .ok result t) {g : Nat} {r : Record α}
    (found : result.history[g]? = some r) :
    r.generation = g ∧ g ≤ plan.maxGenerations ∧
      ∃ progress s, Reaches wheel plan problem clock start progress s ∧ progress.generation = g ∧
        r.populationSize = s.population.size ∧ s.population.size ≤ plan.targetSize := by
  obtain ⟨last, s, u, reached, -, history, -⟩ := end_of_run success
  rw [history] at found
  have counted := counted_of_reaches reached
  have inside := (List.getElem?_eq_some_iff.1 found).1
  rw [counted.length] at inside
  have within := counted.within
  obtain ⟨earlier, v, passed, numbered, best, -, -, -, -, -, size⟩ :=
    reaches_of_getElem? reached found
  exact ⟨counted.generation found, by omega, earlier, v, passed, numbered, size,
    size_le_of_reaches passed⟩

end Run

section

variable {σ : Type} [Source σ Float] {seeding : Seeding σ} {entropy : Nat} {seed : Document}
  {source : σ}

theorem Search.top_le_of_drawCandidates (started : seeding.start entropy seed = .ok source)
    {length top count : Nat} {members : List (Candidate Float)} {t : σ}
    (some_candidate : 0 < count) (some_gene : 0 < length)
    (drawn : Search.drawCandidates (length : Int) ((top : Int) - 1) count source =
      .ok members t) : top ≤ 2 ^ 63 := by
  obtain ⟨count, rfl⟩ := Nat.exists_eq_succ_of_ne_zero some_candidate.ne'
  obtain ⟨length, rfl⟩ := Nat.exists_eq_succ_of_ne_zero some_gene.ne'
  obtain ⟨c, u, first, -⟩ := bind_eq_ok.1 drawn
  obtain ⟨genes, v, many, -⟩ := bind_eq_ok.1 first
  obtain ⟨gene, w, once, -⟩ := bind_eq_ok.1 many
  have bound := seeding.high_le started once
  rw [Nat.pow_eq] at bound
  omega

/-- A run on a seeded source has at most as many nodes as its draws can tell apart. -/
theorem Run.nodes_le (started : seeding.start entropy seed = .ok source) {wheel : Wheel σ Float}
    {plan : Plan Float} {problem : Problem Float} {clock : Nat → Float}
    {result : RunResult Float} {t : Search σ Float} (some_candidate : 0 < plan.populationSize)
    (success : runOn wheel plan problem clock (Search.start source) = .ok result t) :
    problem.nodes.length ≤ 2 ^ 63 := by
  obtain ⟨progress, s, launched, -⟩ := bind_eq_ok.1 success
  obtain ⟨checked, u, r, printed, begun, -⟩ := launch_eq_ok launched
  obtain ⟨v, assembled, -⟩ := begin_eq_ok_iff.1 begun
  obtain ⟨bounds, members, rest, -, drawn, -⟩ := assemble_eq_ok assembled
  have some_job := (Problem.check_eq_ok_iff.1 checked).some_job
  exact Search.top_le_of_drawCandidates started some_candidate (List.length_pos_iff.2 some_job)
    drawn

end

end EvoSched
