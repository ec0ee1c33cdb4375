import EvoSched.Generation
import EvoSched.Proofs.Search.Evaluation

set_option autoImplicit false

namespace EvoSched

variable {σ α : Type}

theorem Wheel.spinAgain_congr {wheel wheel' : Wheel σ α} {p : Population α}
    (same : wheel p = wheel' p) (parent : Candidate α) (more : Nat) :
    wheel.spinAgain p parent more = wheel'.spinAgain p parent more := by
  induction more with
  | zero => exact same
  | succ more ih => rw [spinAgain, spinAgain, same, ih]

namespace Search

section Congruence

variable {wheel wheel' : Wheel σ α} {plan : Plan α} {problem : Problem α} {p : Population α}

theorem copies_congr (same : wheel p = wheel' p) (slots : List Nat) :
    copies wheel plan p slots = copies wheel' plan p slots := by
  induction slots with
  | nil => rfl
  | cons index rest ih => rw [copies, copies, copyFor, copyFor, same, ih]

variable [Scalar α] [Source σ α]

theorem offerEach_congr (same : wheel p = wheel' p) (bounds : Option (Bounds α))
    (parents : List (Candidate α)) :
    offerEach wheel plan problem bounds p parents =
      offerEach wheel' plan problem bounds p parents := by
  induction parents with
  | nil => rfl
  | cons parent rest ih => rw [offerEach, offerEach, offer, offer, same, ih]

theorem litter_congr (same : wheel p = wheel' p) (pairs : Nat) :
    litter wheel p pairs = litter wheel' p pairs := by
  have partner : ∀ parent attempts, wheel.partner p parent attempts =
      wheel'.partner p parent attempts :=
    fun parent attempts => Wheel.spinAgain_congr same parent _
  induction pairs with
  | zero => rfl
  | succ pairs ih => simp only [litter, same, partner, ih]

theorem breed_congr (same : wheel p = wheel' p) : breed wheel plan p = breed wheel' plan p := by
  simp only [breed, copies_congr same, litter_congr same]

theorem replacePass_congr {s : Search σ α} (same : wheel s.population = wheel' s.population) :
    replacePass wheel plan problem s = replacePass wheel' plan problem s := by
  apply bind_congr_of_ok
  intro t _ found
  cases found
  simp only [offerEach_congr same]

/-- A generation finds all parents in the population that it begins with. -/
theorem evolve_congr {s : Search σ α} (same : wheel s.population = wheel' s.population) :
    evolve wheel plan problem s = evolve wheel' plan problem s := by
  apply bind_congr_of_ok
  intro _ t cleared
  cases cleared
  cases plan.strategy with
  | replace => exact bind_congr_of_eq (replacePass_congr same)
  | grow mergeParents =>
      apply bind_congr_of_ok
      intro p u found
      cases found
      exact bind_congr_of_eq (congrArg (fun act => onSource act _) (breed_congr same))

end Congruence

theorem keeps_onSource {β γ : Type} {act : Draw σ β} {part : Search σ α → γ}
    (frame : ∀ s source, part { s with source } = part s) : Keeps (onSource act) part := by
  intro s x t success
  unfold onSource at success
  split at success
  · cases success
    exact frame s _
  · cases success

/-- What the steps of a generation do not touch: the bounds, and how often the clock was read. -/
def lasting (s : Search σ α) : Option (Bounds α) × Nat := (s.bounds, s.readings)

theorem keeps_setPopulation (p : Population α) :
    Keeps (setPopulation p : SearchM σ α Unit) lasting :=
  .modify fun _ => rfl

theorem aside_eq_ok_iff {β : Type} {other : Population α} {act : SearchM σ α β} {s t : Search σ α}
    {x : β} {q : Population α} :
    aside other act s = .ok (x, q) t ↔
      ∃ u, act { s with population := other } = .ok x u ∧ q = u.population ∧
        t = { u with population := s.population } := by
  unfold aside
  cases act { s with population := other } with
  | error fault u => simp
  | ok y u => simp [eq_comm, and_assoc]

variable [Scalar α] [Source σ α] {plan : Plan α} {problem : Problem α}

theorem keeps_mutateRanks (rate : α) (ranks : List Int) :
    Keeps (mutateRanks rate ranks : SearchM σ α (List Mutation)) lasting := by
  induction ranks with
  | nil => exact .pure
  | cons rank rest ih =>
      apply Keeps.bind (.bind .get fun _ => .pure)
      intro p
      apply Keeps.bind (keeps_onSource fun _ _ => rfl)
      intro drawn
      apply Keeps.bind (keeps_setPopulation _)
      intro _
      exact Keeps.bind ih fun _ => .pure

theorem keeps_mutate : Keeps (mutate plan : SearchM σ α Unit) lasting := by
  apply Keeps.bind (.bind (.bind .get fun _ => .pure) fun p => keeps_mutateRanks _ _)
  intro _
  exact .modify fun _ => rfl

theorem keeps_replacePass (wheel : Wheel σ α) :
    Keeps (replacePass wheel plan problem) lasting := by
  apply Keeps.bind .get
  intro s
  exact Keeps.bind (keeps_onSource fun _ _ => rfl) fun _ => keeps_setPopulation _

end Search

end EvoSched
