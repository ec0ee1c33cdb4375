import EvoSched.Proofs.Random
import EvoSched.Selection

set_option autoImplicit false

namespace EvoSched

namespace Wheel

variable {σ α : Type}

theorem pickAt_ok {members : List (Candidate α)} {position : Int} (low : 0 ≤ position)
    (high : position < members.length) :
    ∃ pick, pickAt members position = .ok pick ∧ pick.member ∈ members := by
  obtain ⟨place, rfl⟩ := Int.eq_ofNat_of_zero_le low
  have inside : place < members.length := by omega
  refine ⟨⟨place, members[place]⟩, ?_, List.getElem_mem inside⟩
  rw [pickAt, resolve_natCast inside]
  simp [inside]

theorem getElem?_of_pickAt {members : List (Candidate α)} {position : Int} {pick : Pick α}
    (success : pickAt members position = .ok pick) : members[pick.rank]? = some pick.member := by
  unfold pickAt at success
  split at success
  · cases success
  · split at success
    · cases success
    · rename_i member taken
      cases success
      exact taken

theorem yields_partner {wheel : Wheel σ α} {p : Population α}
    (spins : Yields (wheel p) fun pick => pick.member ∈ p.members) (parent : Candidate α)
    (attempts : Int) :
    Yields (wheel.partner p parent attempts) fun pick => pick.member ∈ p.members := by
  unfold partner
  generalize (attempts - 1).toNat = more
  induction more with
  | zero => exact spins
  | succ more ih =>
      apply Yields.bind spins
      intro pick member
      split
      · exact ih
      · exact .pure member

theorem gives_partner {wheel : Wheel σ α} {p : Population α}
    (spins : Gives (wheel p) fun pick => pick.member ∈ p.members) (parent : Candidate α)
    (attempts : Int) :
    Gives (wheel.partner p parent attempts) fun pick => pick.member ∈ p.members := by
  unfold partner
  generalize (attempts - 1).toNat = more
  induction more with
  | zero => exact spins
  | succ more ih =>
      refine .bind spins fun pick member => ?_
      split
      · exact ih
      · exact .pure member

variable [Scalar α]

/-- What a walk that begins at `spun` has added up after as many members as `count`. -/
def mileage (spun : α) (members : List (Candidate α)) (count : Nat) : α :=
  (members.take count).foldl (fun total c => total + c.fitness) spun

@[simp] theorem mileage_cons_succ (spun : α) (c : Candidate α) (rest : List (Candidate α))
    (count : Nat) :
    mileage spun (c :: rest) (count + 1) = mileage (spun + c.fitness) rest count := rfl

@[simp] theorem mileage_zero (spun : α) (members : List (Candidate α)) :
    mileage spun members 0 = spun := rfl

/-- A walk stops at the first member with which it reaches the position. -/
theorem walk_eq_some_iff {position spun : α} {start : Nat} {members : List (Candidate α)}
    {pick : Pick α} :
    walk position spun start members = some pick ↔
      ∃ k, pick.rank = start + k ∧ members[k]? = some pick.member ∧
        position ≤ mileage spun members (k + 1) ∧
        ∀ j < k, ¬ position ≤ mileage spun members (j + 1) := by
  induction members generalizing spun start with
  | nil => simp [walk]
  | cons c rest ih =>
      rw [walk]
      by_cases stops : position ≤ spun + c.fitness
      · simp only [stops, if_true, Option.some.injEq]
        constructor
        · rintro rfl
          exact ⟨0, rfl, rfl, stops, fun j early => absurd early (Nat.not_lt_zero j)⟩
        · rintro ⟨k, rank, found, -, earlier⟩
          cases k with
          | zero =>
              cases found
              have first : start = pick.rank := by omega
              rw [first]
          | succ k => exact absurd stops (earlier 0 (Nat.succ_pos k))
      · simp only [stops, if_false, ih]
        constructor
        · rintro ⟨k, rank, found, reaches, earlier⟩
          refine ⟨k + 1, by omega, found, reaches, fun j early => ?_⟩
          cases j with
          | zero => exact stops
          | succ j => exact earlier j (by omega)
        · rintro ⟨k, rank, found, reaches, earlier⟩
          cases k with
          | zero => exact absurd reaches stops
          | succ k =>
              refine ⟨k, by omega, found, reaches, fun j early => ?_⟩
              exact earlier (j + 1) (by omega)

/-- A position that all members together reach is reached on the walk. -/
theorem exists_walk {position spun : α} (start : Nat) {members : List (Candidate α)}
    (some_member : members ≠ []) (reaches : position ≤ mileage spun members members.length) :
    ∃ pick, walk position spun start members = some pick := by
  induction members generalizing spun start with
  | nil => exact absurd rfl some_member
  | cons c rest ih =>
      rw [walk]
      by_cases stops : position ≤ spun + c.fitness
      · exact ⟨⟨start, c⟩, by simp [stops]⟩
      · simp only [stops, if_false]
        have others : rest ≠ [] := by
          rintro rfl
          exact stops reaches
        exact ih (start + 1) others reaches

variable [Source σ α] {p : Population α} {s : σ}

theorem spin_of_total (some_member : p.members ≠ []) (positive : Scalar.zero < p.total) :
    spin p s = .ok
      ((walk ((Source.unit s).1 * p.total) Scalar.zero 0 p.members).getD
        ⟨p.size - 1, p.members.getLast some_member⟩) (Source.unit s).2 := by
  unfold spin
  rw [List.getLast?_eq_some_getLast some_member]
  simp only [positive, if_true]
  rfl

theorem spin_of_no_total (some_member : p.members ≠ []) (empty : ¬ Scalar.zero < p.total) :
    (spin p : Draw σ (Pick α)) s =
      (do let position ← Draw.below 0 p.size; ofResult (pickAt p.members position)) s := by
  unfold spin
  rw [List.getLast?_eq_some_getLast some_member]
  simp only [empty, if_false]

/-- A spin finds the member that the population has at the rank. -/
theorem getElem?_of_spin {pick : Pick α} {t : σ} (success : spin p s = .ok pick t) :
    p.members[pick.rank]? = some pick.member := by
  by_cases some_member : p.members = []
  · unfold spin at success
    rw [some_member] at success
    cases success
  · by_cases positive : Scalar.zero < p.total
    · rw [spin_of_total some_member positive] at success
      cases walked : walk ((Source.unit s).1 * p.total) Scalar.zero 0 p.members with
      | none =>
          rw [walked] at success
          cases success
          rw [Option.getD_none, Population.size, ← List.getLast?_eq_getElem?]
          exact List.getLast?_eq_some_getLast some_member
      | some found =>
          rw [walked] at success
          cases success
          obtain ⟨k, rank, member, -⟩ := walk_eq_some_iff.1 walked
          rw [Nat.zero_add] at rank
          rw [Option.getD_some, rank, member]
    · rw [spin_of_no_total some_member positive] at success
      obtain ⟨position, u, -, picked⟩ := bind_eq_ok.1 success
      exact getElem?_of_pickAt (ofResult_eq_ok.1 picked).1

theorem gives_spin (p : Population α) :
    Gives (spin p : Draw σ (Pick α)) fun pick => pick.member ∈ p.members :=
  fun _ _ _ success => List.mem_of_getElem? (getElem?_of_spin success)

/-- A spin finds a member wherever there are members, with a positive total or without. -/
theorem yields_spin [LawfulSource σ α] (some_member : p.members ≠ []) :
    Yields (spin p : Draw σ (Pick α)) fun pick => pick.member ∈ p.members := by
  intro s
  have found : ∃ pick t, (spin p : Draw σ (Pick α)) s = .ok pick t := by
    by_cases positive : Scalar.zero < p.total
    · exact ⟨_, _, spin_of_total some_member positive⟩
    · have positions := List.length_pos_iff.2 some_member
      have room : (0 : Int) < p.size := by
        unfold Population.size
        omega
      obtain ⟨position, t, drawn, low, high⟩ := LawfulSource.draw_mem s 0 p.size room
      obtain ⟨pick, picked, -⟩ := pickAt_ok low high
      rw [spin_of_no_total some_member positive]
      exact ⟨pick, t, bind_ok drawn (ofResult_ok picked t)⟩
  obtain ⟨pick, t, success⟩ := found
  exact ⟨pick, t, success, gives_spin p s pick t success⟩

/-- A spin asks the source for one number, a unit or a position. -/
theorem spin_metered {pick : Pick α} {t : σ} (success : spin p s = .ok pick t) (calls : Nat) :
    spin p (⟨s, calls⟩ : Metered σ) = .ok pick ⟨t, calls + 1⟩ := by
  by_cases some_member : p.members = []
  · unfold spin at success
    rw [some_member] at success
    cases success
  · by_cases positive : Scalar.zero < p.total
    · rw [spin_of_total some_member positive] at success ⊢
      cases success
      rfl
    · rw [spin_of_no_total some_member positive] at success ⊢
      obtain ⟨position, u, drawn, picked⟩ := bind_eq_ok.1 success
      obtain ⟨found, rfl⟩ := ofResult_eq_ok.1 picked
      exact bind_ok (Metered.below_eq_ok drawn calls) (ofResult_ok found _)

end Wheel

end EvoSched
