import Mathlib.Order.Defs.Unbundled
import EvoSched.Proofs.Computation

set_option autoImplicit false

namespace EvoSched

/-- With a result or with a fault, the computation leaves a state that stands in `rel` to the one
it began in. -/
def Moves {σ β : Type} (rel : σ → σ → Prop) (act : EStateM Fault σ β) : Prop :=
  ∀ s, rel s (endOf (act s))

namespace Moves

variable {σ β γ : Type} {rel rel' : σ → σ → Prop} {act : EStateM Fault σ β} {s t : σ}

theorem of_eq_ok (moves : Moves rel act) {x : β} (success : act s = .ok x t) : rel s t := by
  have effect := moves s
  rwa [success] at effect

theorem of_eq_error (moves : Moves rel act) {fault : Fault} (failed : act s = .error fault t) :
    rel s t := by
  have effect := moves s
  rwa [failed] at effect

theorem mono (moves : Moves rel act) (weaker : ∀ s t, rel s t → rel' s t) : Moves rel' act :=
  fun s => weaker s _ (moves s)

/-- The effect of a sequence, whose second part begins where the first has succeeded. -/
theorem bind_of_ok [IsTrans σ rel] {next : β → EStateM Fault σ γ} (first : Moves rel act)
    (second : ∀ s x t, act s = .ok x t → rel t (endOf (next x t))) :
    Moves rel (act >>= next) := by
  intro s
  cases result : act s with
  | error fault t =>
      rw [bind_error result]
      exact first.of_eq_error result
  | ok x t =>
      rw [EvoSched.bind_of_ok result]
      exact IsTrans.trans s t _ (first.of_eq_ok result) (second s x t result)

theorem bind [IsTrans σ rel] {next : β → EStateM Fault σ γ} (first : Moves rel act)
    (second : ∀ x, Moves rel (next x)) : Moves rel (act >>= next) :=
  first.bind_of_ok fun _ x t _ => second x t

theorem discard (moves : Moves rel act) : Moves rel (Functor.discard act) := by
  intro s
  have effect := moves s
  change rel s (endOf (act.map _ s))
  unfold EStateM.map
  cases result : act s with
  | error fault t => rwa [result] at effect
  | ok x t => rwa [result] at effect

variable [Std.Refl rel]

theorem pure {x : β} : Moves rel (Pure.pure x : EStateM Fault σ β) := fun s => refl s

theorem get : Moves rel (MonadState.get : EStateM Fault σ σ) := fun s => refl s

theorem throw {fault : Fault} : Moves rel (MonadExcept.throw fault : EStateM Fault σ β) :=
  fun s => refl s

theorem ofResult {result : Except Fault β} :
    Moves rel (EvoSched.ofResult result : EStateM Fault σ β) := by
  intro s
  cases result with
  | error fault => exact refl s
  | ok x => exact refl s

end Moves

end EvoSched
