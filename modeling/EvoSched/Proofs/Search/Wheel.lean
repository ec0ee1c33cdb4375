import Mathlib.Algebra.Order.Field.Basic
import Mathlib.Order.Interval.Set.Defs
import EvoSched.Proofs.Selection

set_option autoImplicit false

namespace EvoSched

variable {σ α : Type} [Scalar α]

/-- The fitness of as many members as `count`, from the first on, added up in their order. -/
def Population.reached (p : Population α) (count : Nat) : α :=
  Population.totalFitness (p.members.take count)

/-- No fitness is negative, and the total is their sum, which is positive. -/
structure Population.Weighted (p : Population ℚ) : Prop where
  nonneg (c : Candidate ℚ) : c ∈ p.members → 0 ≤ c.fitness
  total : p.total = Population.totalFitness p.members
  positive : 0 < p.total

namespace Wheel

theorem mileage_zero_eq (p : Population α) (count : Nat) :
    mileage Scalar.zero p.members count = p.reached count := by
  rw [Population.reached, Population.totalFitness, Scalar.sum, List.foldl_map]
  rfl

/-- By the unit `u` the wheel stops at the member of a rank: those before it do not reach as far,
and with it they do. The first position of all is that of the first member. -/
def Lands (p : Population ℚ) (u : ℚ) (rank : Nat) : Prop :=
  p.reached rank < u * p.total ∧ u * p.total ≤ p.reached (rank + 1) ∨ u = 0 ∧ rank = 0

/-- The units by which a walk stops at the member of a rank. -/
def share (p : Population ℚ) (rank : Nat) : Set ℚ :=
  {u | 0 ≤ u ∧ u < 1 ∧
    ∃ member, walk (u * p.total) Scalar.zero 0 p.members = some ⟨rank, member⟩}

section Exact

variable {p : Population ℚ} {u : ℚ} {rank : Nat} {member : Candidate ℚ}

@[simp] theorem reached_zero (p : Population ℚ) : p.reached 0 = 0 := Scalar.zero_rat

theorem reached_succ (found : p.members[rank]? = some member) :
    p.reached (rank + 1) = p.reached rank + member.fitness := by
  simp [Population.reached, Population.totalFitness, List.take_add_one, found]

theorem reached_mono (weighted : p.Weighted) : Monotone p.reached := by
  apply monotone_nat_of_le_succ
  intro rank
  cases found : p.members[rank]? with
  | none => simp [Population.reached, List.take_add_one, found]
  | some c =>
      rw [reached_succ found]
      exact le_add_of_nonneg_right (weighted.nonneg c (List.mem_of_getElem? found))

theorem reached_le_total (weighted : p.Weighted) (rank : Nat) : p.reached rank ≤ p.total := by
  have whole : p.reached (max rank p.size) = p.total := by
    rw [weighted.total, Population.reached, List.take_of_length_le]
    exact le_max_right rank p.size
  rw [← whole]
  exact reached_mono weighted (le_max_left rank p.size)

theorem reached_nonneg (weighted : p.Weighted) (rank : Nat) : 0 ≤ p.reached rank := by
  rw [← reached_zero p]
  exact reached_mono weighted (Nat.zero_le rank)

theorem walk_iff_lands (weighted : p.Weighted) (low : 0 ≤ u) :
    walk (u * p.total) Scalar.zero 0 p.members = some ⟨rank, member⟩ ↔
      p.members[rank]? = some member ∧ Lands p u rank := by
  simp only [walk_eq_some_iff, mileage_zero_eq, Nat.zero_add, exists_eq_left', not_le]
  constructor
  · rintro ⟨found, reaches, earlier⟩
    refine ⟨found, ?_⟩
    cases rank with
    | zero =>
        rcases low.eq_or_lt with rfl | positive
        · exact .inr ⟨rfl, rfl⟩
        · rw [Lands, reached_zero]
          exact .inl ⟨mul_pos positive weighted.positive, reaches⟩
    | succ rank => exact .inl ⟨earlier rank (Nat.lt_succ_self rank), reaches⟩
  · rintro ⟨found, ⟨above, reaches⟩ | ⟨rfl, rfl⟩⟩
    · refine ⟨found, reaches, fun j early => ?_⟩
      exact (reached_mono weighted early).trans_lt above
    · rw [zero_mul]
      exact ⟨found, reached_nonneg weighted 1, nofun⟩

theorem some_member_of_weighted (weighted : p.Weighted) : p.members ≠ [] := by
  intro none
  have positive := weighted.positive
  rw [weighted.total, none] at positive
  exact absurd positive (lt_irrefl _)

/-- No unit is beyond the last member. -/
theorem exists_walk_of_weighted (weighted : p.Weighted) (high : u < 1) :
    ∃ pick, walk (u * p.total) Scalar.zero 0 p.members = some pick := by
  apply exists_walk 0 (some_member_of_weighted weighted)
  rw [mileage_zero_eq, Population.reached, List.take_length, ← weighted.total]
  exact mul_le_of_le_one_left weighted.positive.le high.le

theorem share_eq (weighted : p.Weighted) (found : p.members[rank]? = some member) :
    share p rank \ {0} =
      Set.Ioc (p.reached rank / p.total) (p.reached (rank + 1) / p.total) \ {1} := by
  have positive := weighted.positive
  ext u
  constructor
  · rintro ⟨⟨low, high, other, walked⟩, nonzero⟩
    rcases ((walk_iff_lands weighted low).1 walked).2 with ⟨above, reaches⟩ | ⟨zero, -⟩
    · exact ⟨⟨(div_lt_iff₀ positive).2 above, (le_div_iff₀ positive).2 reaches⟩, high.ne⟩
    · exact absurd zero nonzero
  · rintro ⟨⟨above, reaches⟩, below⟩
    have low : 0 < u := (div_nonneg (reached_nonneg weighted rank) positive.le).trans_lt above
    have whole : u ≤ 1 :=
      reaches.trans ((div_le_one positive).2 (reached_le_total weighted (rank + 1)))
    have lands : Lands p u rank :=
      .inl ⟨(div_lt_iff₀ positive).1 above, (le_div_iff₀ positive).1 reaches⟩
    exact ⟨⟨low.le, lt_of_le_of_ne whole below, member,
      (walk_iff_lands weighted low.le).2 ⟨found, lands⟩⟩, low.ne'⟩

/-- The members share the wheel in proportion to their fitness. A spin stops on the walk, at the
one member where its unit lands; a member without fitness is found by the unit 0 alone, in front of
all others. But for the units 0 and 1, of which the second is never drawn, the share of a member is
an interval as long as its part of the total. -/
structure Proportional (p : Population ℚ) : Prop where
  stops {σ : Type} [Source σ ℚ] (s : σ) : 0 ≤ (Source.unit s).1 → (Source.unit s).1 < 1 →
    ∃ pick, walk ((Source.unit s).1 * p.total) Scalar.zero 0 p.members = some pick ∧
      spin p s = .ok pick (Source.unit s).2
  lands {σ : Type} [Source σ ℚ] (s : σ) (rank : Nat) (member : Candidate ℚ) :
    0 ≤ (Source.unit s).1 → (Source.unit s).1 < 1 →
    (spin p s = .ok ⟨rank, member⟩ (Source.unit s).2 ↔
      p.members[rank]? = some member ∧ Lands p (Source.unit s).1 rank)
  worthless (u : ℚ) (rank : Nat) (member : Candidate ℚ) : p.members[rank]? = some member →
    member.fitness = 0 → Lands p u rank → u = 0 ∧ rank = 0
  share (rank : Nat) (member : Candidate ℚ) : p.members[rank]? = some member →
    share p rank \ {0} =
      Set.Ioc (p.reached rank / p.total) (p.reached (rank + 1) / p.total) \ {1} ∧
    (0 ∈ share p rank ↔ rank = 0) ∧
    p.reached (rank + 1) / p.total - p.reached rank / p.total = member.fitness / p.total

theorem spin_of_walk {σ : Type} [Source σ ℚ] {s : σ} {p : Population ℚ} {pick : Pick ℚ}
    (weighted : p.Weighted)
    (walked : walk ((Source.unit s).1 * p.total) Scalar.zero 0 p.members = some pick) :
    spin p s = .ok pick (Source.unit s).2 := by
  have positive : (Scalar.zero : ℚ) < p.total := by
    rw [Scalar.zero_rat]
    exact weighted.positive
  rw [spin_of_total (some_member_of_weighted weighted) positive, walked, Option.getD_some]

theorem proportional (weighted : p.Weighted) : Proportional p where
  stops s _ high := by
    obtain ⟨pick, walked⟩ := exists_walk_of_weighted weighted high
    exact ⟨pick, walked, spin_of_walk weighted walked⟩
  lands s rank member low high := by
    obtain ⟨pick, walked⟩ := exists_walk_of_weighted weighted high
    rw [← walk_iff_lands weighted low, walked, spin_of_walk weighted walked]
    simp
  worthless u rank member found none lands := by
    rcases lands with ⟨above, reaches⟩ | first
    · rw [reached_succ found, none, add_zero] at reaches
      exact absurd reaches (not_le.2 above)
    · exact first
  share rank member found := by
    refine ⟨share_eq weighted found, ?_, ?_⟩
    · constructor
      · rintro ⟨-, -, other, walked⟩
        rcases ((walk_iff_lands weighted (le_refl 0)).1 walked).2 with ⟨above, -⟩ | ⟨-, first⟩
        · rw [zero_mul] at above
          exact absurd (reached_nonneg weighted rank) (not_le.2 above)
        · exact first
      · rintro rfl
        exact ⟨le_refl 0, zero_lt_one, member,
          (walk_iff_lands weighted (le_refl 0)).2 ⟨found, .inr ⟨rfl, rfl⟩⟩⟩
    · rw [← sub_div, reached_succ found, add_sub_cancel_left]

end Exact

/-- Without rounding, members whose fitness makes up a positive total share the wheel in proportion
to it. In any case, also where no fitness compares and where the total is not theirs, a spin finds a
member, and asks the source once. -/
theorem spin_in_proportion :
    (∀ p : Population ℚ, p.Weighted → Proportional p) ∧
    ∀ {σ α : Type} [Scalar α] [Source σ α] [LawfulSource σ α] (p : Population α) (s : σ),
      p.members ≠ [] →
      ∃ pick t, spin p s = .ok pick t ∧ p.members[pick.rank]? = some pick.member ∧
        ∀ calls, spin p (⟨s, calls⟩ : Metered σ) = .ok pick ⟨t, calls + 1⟩ := by
  constructor
  · intro p weighted
    exact proportional weighted
  · intro σ α _ _ _ p s some_member
    obtain ⟨pick, t, success, -⟩ := yields_spin some_member s
    exact ⟨pick, t, success, getElem?_of_spin success, spin_metered success⟩

/-- Four candidates, the second without fitness. -/
def quartered : Population ℚ :=
  ⟨[⟨[0], 1, 1 / 4, 1, 0⟩, ⟨[1], 1, 0, 1, 0⟩, ⟨[1], 1, 1 / 4, 1, 0⟩, ⟨[0], 1, 1 / 2, 1, 0⟩], 1⟩

/-- Half of the wheel lies before the end of the third candidate, and a quarter before it. -/
theorem spin_in_proportion_quartered :
    spin quartered (⟨1 / 2, by norm_num, by norm_num⟩ : Level) =
      .ok ⟨2, ⟨[1], 1, 1 / 4, 1, 0⟩⟩ ⟨1 / 2, by norm_num, by norm_num⟩ ∧
    share quartered 2 \ {0} = Set.Ioc (1 / 4) (1 / 2) \ {1} ∧
    ∃ pick t, spin quartered
      (⟨⟨1 / 2, by norm_num, by norm_num⟩, 0⟩ : Metered Level) = .ok pick ⟨t, 1⟩ := by
  have sums : quartered.total = Population.totalFitness quartered.members ∧
      quartered.reached 2 / quartered.total = 1 / 4 ∧
      quartered.reached 3 / quartered.total = 1 / 2 ∧
      quartered.reached 2 < 1 / 2 * quartered.total ∧
      1 / 2 * quartered.total ≤ quartered.reached 3 ∧
      ∀ c ∈ quartered.members, 0 ≤ c.fitness := by
    decide +kernel
  obtain ⟨total, low, high, above, reaches, nonneg⟩ := sums
  have weighted : quartered.Weighted := ⟨nonneg, total, zero_lt_one⟩
  have half : (0 : ℚ) ≤ 1 / 2 ∧ (1 / 2 : ℚ) < 1 := by norm_num
  obtain ⟨exact_shares, always⟩ := spin_in_proportion
  have shares := exact_shares quartered weighted
  have found := (shares.lands (⟨1 / 2, half.1, half.2⟩ : Level) 2 _ half.1 half.2).2
    ⟨rfl, .inl ⟨above, reaches⟩⟩
  have third := (shares.share 2 _ rfl).1
  rw [low, high] at third
  obtain ⟨pick, t, -, -, metered⟩ :=
    always quartered (⟨1 / 2, half.1, half.2⟩ : Level) (List.cons_ne_nil _ _)
  exact ⟨found, third, pick, t, metered 0⟩

end Wheel

end EvoSched
