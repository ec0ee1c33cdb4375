import Mathlib.Data.List.Forall2
import EvoSched.Fault

set_option autoImplicit false

namespace EvoSched

theorem result_bind_eq_ok {ε β γ : Type} {result : Except ε β} {next : β → Except ε γ} {y : γ} :
    result >>= next = .ok y ↔ ∃ x, result = .ok x ∧ next x = .ok y := by
  cases result with
  | error fault =>
      constructor
      · intro failed
        cases failed
      · rintro ⟨x, absurd, -⟩
        cases absurd
  | ok x =>
      constructor
      · intro success
        exact ⟨x, rfl, success⟩
      · rintro ⟨_, same, success⟩
        cases same
        exact success

theorem result_then_eq_ok {ε γ : Type} {first : Except ε Unit} {rest : Except ε γ} {y : γ} :
    (first >>= fun _ => rest) = .ok y ↔ first = .ok () ∧ rest = .ok y := by
  rw [result_bind_eq_ok]
  exact ⟨fun ⟨_, success, last⟩ => ⟨success, last⟩, fun ⟨success, last⟩ => ⟨(), success, last⟩⟩

theorem result_bind_eq_error {ε β γ : Type} {result : Except ε β} {next : β → Except ε γ}
    {fault : ε} :
    result >>= next = .error fault ↔
      result = .error fault ∨ ∃ x, result = .ok x ∧ next x = .error fault := by
  cases result with
  | error other =>
      constructor
      · intro failed
        cases failed
        exact .inl rfl
      · rintro (same | ⟨x, absurd, -⟩)
        · cases same
          rfl
        · cases absurd
  | ok x =>
      constructor
      · intro failed
        exact .inr ⟨x, rfl, failed⟩
      · rintro (absurd | ⟨_, same, failed⟩)
        · cases absurd
        · cases same
          exact failed

theorem mapM_eq_ok_iff {ε β γ : Type} {f : β → Except ε γ} {xs : List β} {ys : List γ} :
    xs.mapM f = .ok ys ↔ List.Forall₂ (fun x y => f x = .ok y) xs ys := by
  induction xs generalizing ys with
  | nil =>
      rw [List.mapM_nil, List.forall₂_nil_left_iff]
      constructor
      · intro same
        cases same
        rfl
      · rintro rfl
        rfl
  | cons x rest ih =>
      rw [List.mapM_cons, List.forall₂_cons_left_iff, result_bind_eq_ok]
      constructor
      · rintro ⟨y, first, success⟩
        obtain ⟨others, tail, same⟩ := result_bind_eq_ok.1 success
        cases same
        exact ⟨y, others, first, ih.1 tail, rfl⟩
      · rintro ⟨y, others, first, tail, rfl⟩
        exact ⟨y, first, result_bind_eq_ok.2 ⟨others, ih.2 tail, rfl⟩⟩

theorem mapM_ok {ε β γ : Type} {f : β → Except ε γ} {g : β → γ} {xs : List β}
    (each : ∀ x ∈ xs, f x = .ok (g x)) : xs.mapM f = .ok (xs.map g) := by
  rw [mapM_eq_ok_iff, List.forall₂_map_right_iff, List.forall₂_same]
  exact each

theorem mapM_exists {ε β γ : Type} {f : β → Except ε γ} {kind : γ → Prop} {xs : List β}
    (each : ∀ x ∈ xs, ∃ y, f x = .ok y ∧ kind y) :
    ∃ ys, xs.mapM f = .ok ys ∧ ys.length = xs.length ∧ ∀ y ∈ ys, kind y := by
  induction xs with
  | nil => exact ⟨[], rfl, rfl, nofun⟩
  | cons x rest ih =>
      obtain ⟨⟨y, first, meets⟩, others⟩ := List.forall_mem_cons.1 each
      obtain ⟨ys, tail, length, meet⟩ := ih others
      refine ⟨y :: ys, ?_, congrArg Nat.succ length, List.forall_mem_cons.2 ⟨meets, meet⟩⟩
      exact mapM_eq_ok_iff.2 (.cons first (mapM_eq_ok_iff.1 tail))

theorem exists_of_mem_mapM {ε β γ : Type} {f : β → Except ε γ} {xs : List β} {ys : List γ} {y : γ}
    (success : xs.mapM f = .ok ys) (member : y ∈ ys) : ∃ x ∈ xs, f x = .ok y := by
  rw [mapM_eq_ok_iff] at success
  induction success with
  | nil => cases member
  | cons first tail ih =>
      rcases List.mem_cons.1 member with rfl | member
      · exact ⟨_, List.mem_cons_self, first⟩
      · obtain ⟨x, inside, same⟩ := ih member
        exact ⟨x, List.mem_cons_of_mem _ inside, same⟩

theorem exists_image_of_mapM {ε β γ : Type} {f : β → Except ε γ} {xs : List β} {ys : List γ} {x : β}
    (success : xs.mapM f = .ok ys) (member : x ∈ xs) : ∃ y ∈ ys, f x = .ok y := by
  rw [mapM_eq_ok_iff] at success
  induction success with
  | nil => cases member
  | cons first tail ih =>
      rcases List.mem_cons.1 member with rfl | member
      · exact ⟨_, List.mem_cons_self, first⟩
      · obtain ⟨y, inside, same⟩ := ih member
        exact ⟨y, List.mem_cons_of_mem _ inside, same⟩

theorem mapM_append_eq_ok_iff {ε β γ : Type} {f : β → Except ε γ} {xs xs' : List β}
    {ys : List γ} :
    (xs ++ xs').mapM f = .ok ys ↔
      ∃ zs zs', xs.mapM f = .ok zs ∧ xs'.mapM f = .ok zs' ∧ ys = zs ++ zs' := by
  rw [List.mapM_append]
  simp only [result_bind_eq_ok]
  constructor
  · rintro ⟨zs, first, zs', second, same⟩
    cases same
    exact ⟨zs, zs', first, second, rfl⟩
  · rintro ⟨zs, zs', first, second, rfl⟩
    exact ⟨zs, first, zs', second, rfl⟩

/-- A list fails at the first of its elements that fails. -/
theorem mapM_eq_error_iff {ε β γ : Type} {f : β → Except ε γ} {xs : List β} {fault : ε} :
    xs.mapM f = .error fault ↔
      ∃ before x after ys, xs = before ++ x :: after ∧ before.mapM f = .ok ys ∧
        f x = .error fault := by
  induction xs with
  | nil => simp [pure, Except.pure]
  | cons x rest ih =>
      rw [List.mapM_cons, result_bind_eq_error]
      constructor
      · rintro (first | ⟨y, first, failed⟩)
        · exact ⟨[], x, rest, [], rfl, rfl, first⟩
        · rcases result_bind_eq_error.1 failed with tail | ⟨others, -, absurd⟩
          · obtain ⟨before, z, after, ys, rfl, done, failing⟩ := ih.1 tail
            refine ⟨x :: before, z, after, y :: ys, rfl, ?_, failing⟩
            exact mapM_eq_ok_iff.2 (.cons first (mapM_eq_ok_iff.1 done))
          · cases absurd
      · rintro ⟨before, z, after, ys, split, done, failing⟩
        cases before with
        | nil =>
            cases split
            exact .inl failing
        | cons _ before =>
            cases split
            rw [mapM_eq_ok_iff, List.forall₂_cons_left_iff] at done
            obtain ⟨y, others, first, tail, -⟩ := done
            have failed := ih.2 ⟨before, z, after, others, rfl, mapM_eq_ok_iff.2 tail, failing⟩
            exact .inr ⟨y, first, result_bind_eq_error.2 (.inl failed)⟩

theorem bind_eq_ok {ε σ β γ : Type} {act : EStateM ε σ β} {next : β → EStateM ε σ γ} {s u : σ}
    {y : γ} :
    (act >>= next) s = .ok y u ↔ ∃ x t, act s = .ok x t ∧ next x t = .ok y u := by
  change act.bind next s = _ ↔ _
  unfold EStateM.bind
  cases act s with
  | error fault t =>
      constructor
      · intro failed
        cases failed
      · rintro ⟨x, t, absurd, -⟩
        cases absurd
  | ok x t =>
      constructor
      · intro success
        exact ⟨x, t, rfl, success⟩
      · rintro ⟨_, _, same, success⟩
        cases same
        exact success

/-- A sequence succeeds where its two parts do. -/
theorem bind_ok {ε σ β γ : Type} {act : EStateM ε σ β} {next : β → EStateM ε σ γ} {s t u : σ}
    {x : β} {y : γ} (first : act s = .ok x t) (second : next x t = .ok y u) :
    (act >>= next) s = .ok y u :=
  bind_eq_ok.2 ⟨x, t, first, second⟩

/-- Where the first part succeeds, a sequence does what the second part does from there. -/
theorem bind_of_ok {ε σ β γ : Type} {act : EStateM ε σ β} {next : β → EStateM ε σ γ} {s t : σ}
    {x : β} (first : act s = .ok x t) : (act >>= next) s = next x t := by
  change act.bind next s = _
  unfold EStateM.bind
  rw [first]

theorem bind_error {ε σ β γ : Type} {act : EStateM ε σ β} {s t : σ} {fault : ε}
    (failed : act s = .error fault t) (next : β → EStateM ε σ γ) :
    (act >>= next) s = .error fault t := by
  change act.bind next s = _
  unfold EStateM.bind
  rw [failed]

theorem ofResult_eq_ok {σ β : Type} {result : Except Fault β} {s t : σ} {x : β} :
    ofResult result s = .ok x t ↔ result = .ok x ∧ t = s := by
  cases result with
  | error fault => simp [ofResult]
  | ok y => simp [ofResult, eq_comm]

theorem ofResult_ok {σ β : Type} {result : Except Fault β} {x : β} (success : result = .ok x)
    (s : σ) : ofResult result s = .ok x s :=
  ofResult_eq_ok.2 ⟨success, rfl⟩

/-- Two sequences that begin alike are alike if they go on alike from where the beginning ends. -/
theorem bind_congr_of_ok {ε σ β γ : Type} {act : EStateM ε σ β} {next next' : β → EStateM ε σ γ}
    {s : σ} (same : ∀ x t, act s = .ok x t → next x t = next' x t) :
    (act >>= next) s = (act >>= next') s := by
  change act.bind next s = act.bind next' s
  unfold EStateM.bind
  cases result : act s with
  | error fault t => rfl
  | ok x t => exact same x t result

theorem bind_congr_of_eq {ε σ β γ : Type} {act act' : EStateM ε σ β} {next : β → EStateM ε σ γ}
    {s t : σ} (same : act s = act' t) : (act >>= next) s = (act' >>= next) t := by
  change act.bind next s = act'.bind next t
  unfold EStateM.bind
  rw [same]

instance decidableEqOk {ε β : Type} [DecidableEq β] (result : Except ε β) (x : β) :
    Decidable (result = .ok x) :=
  match result with
  | .ok y => decidable_of_iff (y = x) (by rw [Except.ok.injEq])
  | .error _ => .isFalse nofun

/-- What a computation results in, if it succeeds. -/
def valueOf {ε σ β : Type} : EStateM.Result ε σ β → Option β
  | .ok x _ => some x
  | .error .. => none

/-- The state in which a computation ends. -/
def endOf {ε σ β : Type} : EStateM.Result ε σ β → σ
  | .ok _ s => s
  | .error _ s => s

theorem eq_ok_of_valueOf {ε σ β : Type} {result : EStateM.Result ε σ β} {x : β}
    (success : valueOf result = some x) : result = .ok x (endOf result) := by
  cases result with
  | error fault s => cases success
  | ok y s =>
      cases success
      rfl

/-- Where the computation succeeds, it leaves a part of the state as it was. -/
def Keeps {σ β γ : Type} (act : EStateM Fault σ β) (part : σ → γ) : Prop :=
  ∀ s x t, act s = .ok x t → part t = part s

namespace Keeps

variable {σ β γ δ : Type} {act : EStateM Fault σ β} {part : σ → γ}

theorem bind {next : β → EStateM Fault σ δ} (first : Keeps act part)
    (second : ∀ x, Keeps (next x) part) : Keeps (act >>= next) part := by
  intro s y u success
  obtain ⟨x, t, begun, ended⟩ := bind_eq_ok.1 success
  exact (second x t y u ended).trans (first s x t begun)

theorem pure {x : β} : Keeps (Pure.pure x : EStateM Fault σ β) part := by
  intro s y t success
  cases success
  rfl

theorem get : Keeps (MonadState.get : EStateM Fault σ σ) part := by
  intro s y t success
  cases success
  rfl

theorem modify {change : σ → σ} (same : ∀ s, part (change s) = part s) :
    Keeps (modify change) part := by
  intro s y t success
  cases success
  exact same s

end Keeps

/-- From every state that meets `pre` the computation succeeds; its result and the state it leaves
meet `post`. -/
def Achieves {σ β : Type} (pre : σ → Prop) (act : EStateM Fault σ β) (post : β → σ → Prop) : Prop :=
  ∀ s, pre s → ∃ x t, act s = .ok x t ∧ post x t

namespace Achieves

variable {σ β γ : Type} {pre : σ → Prop} {act : EStateM Fault σ β} {post : β → σ → Prop}

/-- What a run of the computation that did succeed has led to. -/
theorem of_eq_ok (achieves : Achieves pre act post) {s t : σ} {x : β} (start : pre s)
    (success : act s = .ok x t) : post x t := by
  obtain ⟨y, u, same, meets⟩ := achieves s start
  rw [success] at same
  cases same
  exact meets

theorem bind {next : β → EStateM Fault σ γ} {last : γ → σ → Prop} (first : Achieves pre act post)
    (second : ∀ x, Achieves (post x) (next x) last) : Achieves pre (act >>= next) last := by
  intro s start
  obtain ⟨x, t, success, meets⟩ := first s start
  obtain ⟨y, u, success', meets'⟩ := second x t meets
  exact ⟨y, u, bind_ok success success', meets'⟩

theorem pure {x : β} (meets : ∀ s, pre s → post x s) : Achieves pre (Pure.pure x) post :=
  fun s start => ⟨x, s, rfl, meets s start⟩

end Achieves

end EvoSched
