import EvoSched.Proofs.Search.Segment

set_option autoImplicit false

namespace EvoSched.Cut

variable {cut : Cut} {length low width : Nat} {outer : Bool}

/-- `length` marks that are `outer` but for the `width` of them behind the first `low`. -/
def runs (length low width : Nat) (outer : Bool) : List Bool :=
  List.replicate low outer ++ (List.replicate width (!outer) ++
    List.replicate (length - (low + width)) outer)

theorem map_not_runs : (runs length low width outer).map (!·) = runs length low width (!outer) := by
  simp only [runs, List.map_append, List.map_replicate]

theorem count_runs (room : low + width ≤ length) :
    (runs length low width outer).count true = if outer then length - width else width := by
  unfold runs
  rw [List.count_append, List.count_append, List.count_replicate, List.count_replicate,
    List.count_replicate]
  cases outer with
  | false =>
      simp
  | true =>
      have left_over : low + (length - (low + width)) = length - width := by omega
      simpa using left_over

theorem getElem?_runs (room : low + width ≤ length) {place : Nat} (inside : place < length) :
    (runs length low width outer)[place]? =
      some (if low ≤ place ∧ place < low + width then !outer else outer) := by
  unfold runs
  rcases Nat.lt_or_ge place low with before | from_low
  · have apart : ¬ (low ≤ place ∧ place < low + width) := by omega
    rw [List.getElem?_append_left (by simpa using before), List.getElem?_replicate, if_pos before,
      if_neg apart]
  · rw [List.getElem?_append_right (by simpa using from_low), List.length_replicate]
    rcases Nat.lt_or_ge place (low + width) with within | behind
    · have among : place - low < width := by omega
      rw [List.getElem?_append_left (by simpa using among), List.getElem?_replicate, if_pos among,
        if_pos ⟨from_low, within⟩]
    · have apart : ¬ (low ≤ place ∧ place < low + width) := by omega
      have among : place - low - width < length - (low + width) := by omega
      rw [List.getElem?_append_right (by rw [List.length_replicate]; omega),
        List.length_replicate, List.getElem?_replicate, if_pos among, if_neg apart]

/-- A mask is known by where its test changes. -/
theorem mask_eq_runs (room : low + width ≤ length)
    (changes : ∀ place : Nat, place < length →
      (cut.covers length place = true ↔ (low ≤ place ∧ place < low + width ↔ outer = false))) :
    cut.mask length = runs length low width outer := by
  apply List.ext_getElem?
  intro place
  by_cases inside : place < length
  · rw [getElem?_mask cut inside, getElem?_runs room inside, Option.some.injEq,
      Bool.eq_iff_iff, changes place inside]
    by_cases within : low ≤ place ∧ place < low + width
    · cases outer <;> simp [within]
    · cases outer <;> simp [within]
  · have size : (runs length low width outer).length = length := by
      simp only [runs, List.length_append, List.length_replicate]
      omega
    rw [List.getElem?_eq_none (by rw [length_mask]; omega), List.getElem?_eq_none (by omega)]

/-- A segment that ends before the end of the ring is one run. -/
theorem mask_of_inside (proper : cut.Proper length) (inside : cut.second < length) :
    cut.mask length =
      runs length cut.first.toNat (cut.second - cut.first).toNat false := by
  obtain ⟨low, start, some_place, whole⟩ := proper
  refine mask_eq_runs (by omega) fun place _ => ?_
  have short : ¬ (length : Int) ≤ cut.second := by omega
  rw [covers, if_neg short]
  simp only [Bool.and_eq_true, decide_eq_true_eq, iff_true]
  omega

/-- A segment that reaches the end leaves one run out. -/
theorem mask_of_around (proper : cut.Proper length) (around : length ≤ cut.second) :
    cut.mask length =
      runs length (cut.second - length).toNat (length - (cut.second - cut.first)).toNat true := by
  obtain ⟨low, start, some_place, whole⟩ := proper
  refine mask_eq_runs (by omega) fun place _ => ?_
  rw [covers, if_pos around]
  simp only [Bool.or_eq_true, decide_eq_true_eq, Bool.true_eq_false, iff_false]
  omega

theorem count_mask (proper : cut.Proper length) :
    ((cut.mask length).count true : Int) = cut.second - cut.first := by
  have bounds := proper
  obtain ⟨low, start, some_place, whole⟩ := bounds
  rcases lt_or_ge cut.second length with inside | around
  · rw [mask_of_inside proper inside, count_runs (by omega)]
    simp only [Bool.false_eq_true, if_false]
    omega
  · rw [mask_of_around proper around, count_runs (by omega)]
    simp only [if_true]
    omega

/-- The segment from the end of another on, up to the start of that one. -/
def complement (cut : Cut) (length : Nat) : Cut where
  first := cut.second % length
  second := cut.second % length + length - (cut.second - cut.first)

theorem Proper.complement_of_inside (proper : cut.Proper length)
    (inside : cut.second < length) :
    cut.complement length = ⟨cut.second, cut.first + length⟩ := by
  obtain ⟨low, start, some_place, whole⟩ := proper
  have ending : cut.second % length = cut.second := Int.emod_eq_of_lt (by omega) inside
  have turn : cut.second + length - (cut.second - cut.first) = cut.first + length := by omega
  rw [Cut.complement, ending, turn]

theorem Proper.complement_of_around (proper : cut.Proper length)
    (some_left : cut.second - cut.first < length) (around : length ≤ cut.second) :
    cut.complement length = ⟨cut.second - length, cut.first⟩ := by
  obtain ⟨low, start, some_place, whole⟩ := proper
  have ending : cut.second % length = cut.second - length := by
    rw [Int.emod_eq_sub_self_emod]
    exact Int.emod_eq_of_lt (by omega) (by omega)
  have turn : cut.second - length + length - (cut.second - cut.first) = cut.first := by omega
  rw [Cut.complement, ending, turn]

/-- Of a segment and what it leaves out, one reaches the end of the ring and the other does not. -/
theorem complement_spec (proper : cut.Proper length)
    (some_left : cut.second - cut.first < length) :
    (cut.complement length).Proper length ∧
      (cut.complement length).mask length = (cut.mask length).map (!·) := by
  have bounds := proper
  obtain ⟨low, start, some_place, whole⟩ := bounds
  rcases lt_or_ge cut.second length with inside | around
  · rw [proper.complement_of_inside inside]
    have rest : Proper ⟨cut.second, cut.first + length⟩ length := by
      constructor <;> dsimp only <;> omega
    have reaches : (length : Int) ≤ cut.first + length := by omega
    have size : (length : Int) - (cut.first + length - cut.second) = cut.second - cut.first := by
      omega
    refine ⟨rest, ?_⟩
    rw [mask_of_inside proper inside, mask_of_around rest reaches, map_not_runs]
    simp only [size, Int.add_sub_cancel, Bool.not_false]
  · rw [proper.complement_of_around some_left around]
    have rest : Proper ⟨cut.second - length, cut.first⟩ length := by
      constructor <;> dsimp only <;> omega
    have size : (length : Int) - (cut.second - cut.first) = cut.first - (cut.second - length) := by
      omega
    refine ⟨rest, ?_⟩
    rw [mask_of_around proper around, mask_of_inside rest start, map_not_runs]
    simp only [size, Bool.not_true]

/-- The mask is set where the segment passes, and nowhere else. -/
theorem getElem?_mask_eq_true_iff (proper : cut.Proper length) (place : Nat) :
    (cut.mask length)[place]? = some true ↔
      ∃ k, cut.first ≤ k ∧ k < cut.second ∧ k % length = place := by
  constructor
  · intro marked
    have inside : place < length := by
      have found := (List.getElem?_eq_some_iff.1 marked).1
      rwa [length_mask] at found
    rw [getElem?_mask cut inside, Option.some.injEq, covers_iff_spans proper inside] at marked
    obtain ⟨k, from_first, before, same⟩ := marked
    refine ⟨k, from_first, before, ?_⟩
    rw [← same.eq]
    exact Int.emod_eq_of_lt (by omega) (by omega)
  · rintro ⟨k, from_first, before, same⟩
    have some_place : (0 : Int) < length := by
      have := proper.first_nonneg
      have := proper.first_lt
      omega
    have inside : place < length := by
      have := Int.emod_lt_of_pos k some_place
      omega
    rw [getElem?_mask cut inside, Option.some.injEq, covers_iff_spans proper inside]
    refine ⟨k, from_first, before, ?_⟩
    rw [← same]
    exact Int.mod_modEq k length

/-- The mask of a segment has a mark for each place of the ring, and is set in the places that the
segment passes: as many as it is long. Unless these are all places, what the segment leaves out is a
segment too, and has the opposite mask. -/
theorem mask_marks_segment (proper : cut.Proper length) :
    (cut.mask length).length = length ∧
      (∀ place : Nat, (cut.mask length)[place]? = some true ↔
        ∃ k, cut.first ≤ k ∧ k < cut.second ∧ k % length = place) ∧
      ((cut.mask length).count true : Int) = cut.second - cut.first ∧
      (cut.second - cut.first < length →
        (cut.complement length).Proper length ∧
          (cut.mask length).map (!·) = (cut.complement length).mask length) := by
  refine ⟨cut.length_mask length, getElem?_mask_eq_true_iff proper, count_mask proper, ?_⟩
  intro some_left
  obtain ⟨rest, opposite⟩ := complement_spec proper some_left
  exact ⟨rest, opposite.symm⟩

/-- A segment that passes the end leaves out the two places behind the one that it holds there. -/
theorem mask_marks_segment_around :
    ((Cut.mk 3 6).mask 5).count true = 3 ∧ ((Cut.mk 3 6).mask 5)[0]? = some true ∧
      ((Cut.mk 3 6).mask 5).map (!·) = (Cut.mk 1 3).mask 5 := by
  have proper : (Cut.mk 3 6).Proper 5 := ⟨by decide, by decide, by decide, by decide⟩
  obtain ⟨-, marks, count, rest⟩ := mask_marks_segment proper
  refine ⟨Int.ofNat_inj.1 count, (marks 0).2 ⟨5, by decide, by decide, by decide⟩, ?_⟩
  exact (rest (by decide)).2

end EvoSched.Cut
