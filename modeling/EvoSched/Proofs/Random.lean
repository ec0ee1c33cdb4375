import Mathlib.Data.Rat.Floor
import EvoSched.Proofs.Computation
import EvoSched.Proofs.Scalar.Exact
import EvoSched.Random.Source

set_option autoImplicit false

namespace EvoSched

/-- A draw that never faults, with results of one kind wherever the source stands. -/
def Yields {σ β : Type} (act : Draw σ β) (kind : β → Prop) : Prop :=
  ∀ s, ∃ x t, act s = .ok x t ∧ kind x

namespace Yields

variable {σ α β γ : Type} {act : Draw σ β} {kind : β → Prop}

theorem bind {next : β → Draw σ γ} {last : γ → Prop} (first : Yields act kind)
    (second : ∀ x, kind x → Yields (next x) last) : Yields (act >>= next) last := by
  intro s
  obtain ⟨x, t, success, meets⟩ := first s
  obtain ⟨y, u, success', meets'⟩ := second x meets t
  exact ⟨y, u, bind_ok success success', meets'⟩

theorem pure {x : β} (meets : kind x) : Yields (Pure.pure x : Draw σ β) kind :=
  fun s => ⟨x, s, rfl, meets⟩

theorem ofResult {result : Except Fault β} {x : β} (success : result = .ok x) (meets : kind x) :
    Yields (EvoSched.ofResult result : Draw σ β) kind := by
  subst success
  exact pure meets

variable [Source σ α]

theorem unit : Yields (Draw.unit : Draw σ α) fun _ => True :=
  fun s => ⟨(Source.unit s).1, (Source.unit s).2, rfl, trivial⟩

theorem below [Scalar α] [LawfulSource σ α] {low high : Int} (proper : low < high) :
    Yields (Draw.below low high : Draw σ Int) fun n => low ≤ n ∧ n < high :=
  fun s => LawfulSource.draw_mem s low high proper

end Yields

/-- What a source answers lies in the range that it was asked for. It may refuse a range. -/
class HonestSource (σ : Type) (α : outParam Type) [Scalar α] [Source σ α] : Prop where
  unit_mem : ∀ s : σ, (Scalar.zero : α) ≤ (Source.unit s).1 ∧ (Source.unit s).1 < Scalar.one
  draw_mem : ∀ {s t : σ} {low high n : Int}, low < high → Source.draw low high s = .ok n t →
    low ≤ n ∧ n < high

instance {σ α : Type} [Scalar α] [Source σ α] [LawfulSource σ α] : HonestSource σ α where
  unit_mem := LawfulSource.unit_mem
  draw_mem {s t low high n} room success := by
    obtain ⟨m, u, drawn, inside⟩ := LawfulSource.draw_mem s low high room
    rw [success] at drawn
    cases drawn
    exact inside

/-- Where the draw does not fault, its result is of one kind, wherever the source stands. -/
def Gives {σ β : Type} (act : Draw σ β) (kind : β → Prop) : Prop :=
  ∀ s x t, act s = .ok x t → kind x

namespace Gives

variable {σ β γ : Type} {act : Draw σ β} {kind : β → Prop}

theorem bind {next : β → Draw σ γ} {last : γ → Prop} (first : Gives act kind)
    (second : ∀ x, kind x → Gives (next x) last) : Gives (act >>= next) last := by
  intro s y u success
  obtain ⟨x, t, begun, ended⟩ := bind_eq_ok.1 success
  exact second x (first s x t begun) t y u ended

/-- Whatever the first part results in. -/
theorem after {next : β → Draw σ γ} {last : γ → Prop} (second : ∀ x, Gives (next x) last) :
    Gives (act >>= next) last :=
  bind (fun _ _ _ _ => trivial : Gives act fun _ => True) fun x _ => second x

theorem pure {x : β} (meets : kind x) : Gives (Pure.pure x : Draw σ β) kind := by
  intro s y t success
  cases success
  exact meets

theorem ofResult {result : Except Fault β} (meets : ∀ x, result = .ok x → kind x) :
    Gives (EvoSched.ofResult result : Draw σ β) kind :=
  fun _ x _ success => meets x (ofResult_eq_ok.1 success).1

end Gives

/-- The source whose units are all zero and whose whole numbers are the least of their ranges. -/
structure Steady (α : Type) where

namespace Steady

variable {α : Type} [Scalar α]

instance : Source (Steady α) α where
  unit s := (Scalar.zero, s)
  draw low high s := if low < high then .ok low s else .error (.emptyRange low) s

theorem lawful (nonneg : (Scalar.zero : α) ≤ Scalar.zero)
    (proper : (Scalar.zero : α) < Scalar.one) :
    LawfulSource (Steady α) α where
  unit_mem _ := ⟨nonneg, proper⟩
  draw_mem s low _ room := ⟨low, s, if_pos room, Int.le_refl low, room⟩

end Steady

/-- A source that counts how often it is asked for a unit or a whole number. -/
structure Metered (σ : Type) where
  source : σ
  calls : Nat

namespace Metered

variable {σ α : Type} [Source σ α]

instance : Source (Metered σ) α where
  unit s := ((Source.unit s.source).1, ⟨(Source.unit s.source).2, s.calls + 1⟩)
  draw low high s :=
    match Source.draw low high s.source with
    | .ok n source => .ok n ⟨source, s.calls + 1⟩
    | .error fault source => .error fault ⟨source, s.calls + 1⟩

theorem below_eq_ok {low high n : Int} {s t : σ} (success : Draw.below low high s = .ok n t)
    (calls : Nat) :
    (Draw.below low high : Draw (Metered σ) Int) ⟨s, calls⟩ = .ok n ⟨t, calls + 1⟩ := by
  change Source.draw low high s = _ at success
  change (match Source.draw low high s with
    | .ok n source => .ok n ⟨source, calls + 1⟩
    | .error fault source => .error fault ⟨source, calls + 1⟩ :
      EStateM.Result Fault (Metered σ) Int) = _
  rw [success]

end Metered

/-- A source whose units are all the same, and whose whole numbers lie in proportion to it. -/
structure Level where
  unit : ℚ
  nonneg : 0 ≤ unit
  below_one : unit < 1

namespace Level

instance : Source Level ℚ where
  unit s := (s.unit, s)
  draw low high s :=
    if low < high then .ok (low + ⌊s.unit * (high - low : ℤ)⌋) s else .error (.emptyRange low) s

instance : LawfulSource Level ℚ where
  unit_mem s := by
    rw [Scalar.zero_rat, Scalar.one_rat]
    exact ⟨s.nonneg, s.below_one⟩
  draw_mem s low high room := by
    have width : (0 : ℚ) < (high - low : ℤ) := by
      rw [Int.cast_pos]
      omega
    have low_end : 0 ≤ ⌊s.unit * (high - low : ℤ)⌋ :=
      Int.floor_nonneg.2 (mul_nonneg s.nonneg width.le)
    have high_end : ⌊s.unit * (high - low : ℤ)⌋ < high - low := by
      rw [Int.floor_lt]
      exact mul_lt_of_lt_one_left width s.below_one
    exact ⟨_, s, if_pos room, by omega, by omega⟩

theorem below_eq (s : Level) {low high : Int} (room : low < high) :
    Draw.below low high s = .ok (low + ⌊s.unit * (high - low : ℤ)⌋) s := if_pos room

end Level

end EvoSched
