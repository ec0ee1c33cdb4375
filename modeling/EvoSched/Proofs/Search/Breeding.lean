import EvoSched.Proofs.Search.Children
import EvoSched.Proofs.Search.Size

set_option autoImplicit false

namespace EvoSched

variable {σ α : Type}

/-- Some members, all with as many genes, one at least, and in the same range. -/
structure Population.Uniform (p : Population α) (length : Nat) (top : Int) : Prop where
  some_member : p.members ≠ []
  some_gene : 0 < length
  length (c : Candidate α) : c ∈ p.members → c.genes.length = length
  top (c : Candidate α) : c ∈ p.members → c.top = top
  valid (c : Candidate α) : c ∈ p.members → c.Valid

/-- There is a problem that the members of a uniform population are fit for. -/
theorem Population.Uniform.exists_fit [Scalar α] {p : Population α} {length : Nat} {top : Int}
    (uniform : p.Uniform length top) :
    ∃ problem : Problem α, problem.jobs ≠ [] ∧ problem.nodes ≠ [] ∧ p.Fit problem := by
  have nonneg : 0 ≤ top := by
    obtain ⟨c, member⟩ := List.exists_mem_of_ne_nil _ uniform.some_member
    have some_gene : c.genes ≠ [] := by
      rw [← List.length_pos_iff, uniform.length c member]
      exact uniform.some_gene
    obtain ⟨gene, inside⟩ := List.exists_mem_of_ne_nil _ some_gene
    have range := inRange_iff.1 (uniform.valid c member gene inside)
    rw [uniform.top c member] at range
    exact range.1.trans range.2
  let job : Job α := ⟨Scalar.zero, Scalar.zero, Scalar.zero, Scalar.zero, 1, none⟩
  let node : Node α := ⟨Scalar.one, Scalar.zero, Scalar.zero, Scalar.zero, none⟩
  have nodes : ((List.replicate (top.toNat + 1) node).length : Int) - 1 = top := by
    rw [List.length_replicate]
    omega
  refine ⟨⟨List.replicate length job, List.replicate (top.toNat + 1) node⟩, ?_, ?_,
    uniform.some_member, fun c member => ⟨?_, ?_, ?_⟩⟩
  · exact List.length_pos_iff.1 (List.length_replicate.symm ▸ uniform.some_gene)
  · exact List.length_pos_iff.1 (List.length_replicate.symm ▸ Nat.succ_pos _)
  · exact (uniform.length c member).trans List.length_replicate.symm
  · exact (uniform.top c member).trans nodes.symm
  · intro gene inside
    have range := inRange_iff.1 (uniform.valid c member gene inside)
    rw [uniform.top c member] at range
    rw [nodes]
    exact range

namespace Search

variable {wheel : Wheel σ α} {plan : Plan α} {p : Population α} {source source' : σ}

/-- Each slot has a member, those of the first ranks the member of the rank. -/
theorem copies_slot (spins : Gives (wheel p) fun pick => pick.member ∈ p.members) {count : Nat}
    {kept : List (Candidate α)}
    (success : copies wheel plan p (List.range count) source = .ok kept source') :
    kept.length = count ∧ ∀ slot < count, ∃ c ∈ p.members, kept[slot]? = some c ∧
      (slot < plan.elitism → p.members[slot]? = some c) := by
  have elites := elites_of_copies success
  have length : kept.length = count := by
    rw [← elites.length_eq, List.length_range]
  refine ⟨length, fun slot inside => ?_⟩
  have low : slot < (List.range count).length := by
    rw [List.length_range]
    exact inside
  have high : slot < kept.length := by omega
  refine ⟨kept[slot], gives_copies spins _ _ _ _ success _ (List.getElem_mem high),
    List.getElem?_eq_getElem high, fun elite => ?_⟩
  have same := elites.get low high
  rw [List.get_eq_getElem, List.getElem_range] at same
  exact same elite

end Search

/-- Two members, the first found by the wheel from a state of the source, the second looked for
right after it: it has other genes, unless all attempts to find one missed. -/
structure Wheel.Mates (wheel : Wheel σ α) (p : Population α) (before : σ)
    (parent other : Candidate α) : Prop where
  parent_mem : parent ∈ p.members
  other_mem : other ∈ p.members
  apart : other.genes ≠ parent.genes ∨
    ∃ rank middle after, wheel p before = .ok ⟨rank, parent⟩ middle ∧
      wheel.Misses p parent defaultAttempts.toNat middle after

namespace Search

variable [Scalar α] [Source σ α] {wheel : Wheel σ α} {plan : Plan α} {p : Population α}
  {source source' : σ}

/-- One pair of children. -/
def birth (wheel : Wheel σ α) (p : Population α) : Draw σ (Candidate α × Candidate α) := do
  let parent ← wheel p
  let other ← wheel.partner p parent.member Wheel.defaultAttempts
  parent.member.twoPointPair other.member

theorem litter_succ (wheel : Wheel σ α) (p : Population α) (pairs : Nat) :
    litter wheel p (pairs + 1) = (do
      let (first, second) ← birth wheel p
      let others ← litter wheel p pairs
      pure (first :: second :: others)) := by
  simp only [litter, birth, bind_assoc]

/-- Each pair of children is born when the pairs before it are, for the two slots behind them. -/
theorem birth_of_litter {pairs : Nat} {children : List (Candidate α)}
    (success : litter wheel p pairs source = .ok children source') {j : Nat} (inside : j < pairs) :
    ∃ earlier before first second after, litter wheel p j source = .ok earlier before ∧
      birth wheel p before = .ok (first, second) after ∧
      children[2 * j]? = some first ∧ children[2 * j + 1]? = some second := by
  induction pairs generalizing source children j with
  | zero => exact absurd inside (Nat.not_lt_zero j)
  | succ pairs ih =>
      rw [litter_succ] at success
      obtain ⟨⟨first, second⟩, middle, born, success⟩ := bind_eq_ok.1 success
      obtain ⟨others, _, tail, success⟩ := bind_eq_ok.1 success
      cases success
      cases j with
      | zero => exact ⟨[], source, first, second, middle, rfl, born, rfl, rfl⟩
      | succ j =>
          obtain ⟨earlier, before, first', second', after, begun, born', slots⟩ :=
            ih tail (Nat.lt_of_succ_lt_succ inside)
          refine ⟨first :: second :: earlier, before, first', second', after, ?_, born', slots⟩
          rw [litter_succ]
          exact bind_ok born (bind_ok begun rfl)

/-- The two children of a birth share out the genes of two members. -/
theorem shares_of_birth (spins : Gives (wheel p) fun pick => pick.member ∈ p.members)
    {length : Nat} (alike : ∀ c ∈ p.members, c.genes.length = length) {first second : Candidate α}
    (success : birth wheel p source = .ok (first, second) source') :
    ∃ parent other, wheel.Mates p source parent other ∧ parent.Shares other first second := by
  obtain ⟨parent, middle, spun, success⟩ := bind_eq_ok.1 success
  obtain ⟨other, between, found, crossed⟩ := bind_eq_ok.1 success
  have parent_mem := spins _ _ _ spun
  have other_mem := Wheel.gives_partner spins _ _ _ _ _ found
  have same := (alike _ other_mem).trans (alike _ parent_mem).symm
  have some_attempt : 0 < Wheel.defaultAttempts.toNat := by decide
  have apart := Wheel.apart_or_misses some_attempt found
  refine ⟨parent.member, other.member, ⟨parent_mem, other_mem, ?_⟩,
    Candidate.gives_shares_twoPointPair same _ _ _ crossed⟩
  exact apart.imp_right fun misses => ⟨parent.rank, middle, between, spun, misses⟩

/-- What is bred from `p`: as many members, of which all but two for each pair are copies. -/
structure Layout (wheel : Wheel σ α) (plan : Plan α) (p : Population α) (source : σ) (pairs : Nat)
    (bred : Population α) : Prop where
  room : 2 * pairs ≤ p.size
  size : bred.size = p.size
  elite (slot : Nat) : slot < plan.elitism → slot < p.size - 2 * pairs →
    bred.members[slot]? = p.members[slot]?
  copy (slot : Nat) : slot < p.size - 2 * pairs → ∃ c ∈ p.members, bred.members[slot]? = some c
  /-- The pair is made where the source is after the copies and the pairs before. -/
  pair (j : Nat) : j < pairs → ∃ earlier before parent other first second,
    (do
      let _ ← copies wheel plan p (List.range (p.size - 2 * pairs))
      litter wheel p j) source = .ok earlier before ∧
    wheel.Mates p before parent other ∧ parent.Shares other first second ∧
    bred.members[p.size - 2 * pairs + 2 * j]? = some first ∧
    bred.members[p.size - 2 * pairs + 2 * j + 1]? = some second

theorem layout_of_breed (spins : Gives (wheel p) fun pick => pick.member ∈ p.members)
    {length : Nat} (alike : ∀ c ∈ p.members, c.genes.length = length) {pairs : Nat}
    (counted : pairCount plan p.size = .ok (pairs : Int)) (room : 2 * pairs ≤ p.size)
    {bred : Population α} (success : breed wheel plan p source = .ok bred source') :
    Layout wheel plan p source pairs bred := by
  obtain ⟨_, kept, middle, children, counted', copied, born, members⟩ := breed_eq_ok success
  cases counted.symm.trans counted'
  have slots : ((p.size : Int) - 2 * (pairs : Int)).toNat = p.size - 2 * pairs := by omega
  rw [slots] at copied
  rw [Int.toNat_natCast] at born
  obtain ⟨length_kept, slot_kept⟩ := copies_slot spins copied
  have length_children := length_litter born
  have front : ∀ slot < p.size - 2 * pairs, bred.members[slot]? = kept[slot]? := by
    intro slot inside
    rw [members, List.getElem?_append_left (by omega)]
  have back : ∀ k, bred.members[p.size - 2 * pairs + k]? = children[k]? := by
    intro k
    rw [members, List.getElem?_append_right (by omega), length_kept, Nat.add_sub_cancel_left]
  refine ⟨room, ?_, ?_, ?_, ?_⟩
  · rw [Population.size, members, List.length_append, length_kept, length_children]
    omega
  · intro slot elite inside
    obtain ⟨c, -, found, same⟩ := slot_kept slot inside
    rw [front slot inside, found, same elite]
  · intro slot inside
    obtain ⟨c, member, found, -⟩ := slot_kept slot inside
    exact ⟨c, member, (front slot inside).trans found⟩
  · intro j inside
    obtain ⟨earlier, before, first, second, _, begun, birth, at_first, at_second⟩ :=
      birth_of_litter born inside
    obtain ⟨parent, other, mates, shares⟩ := shares_of_birth spins alike birth
    exact ⟨earlier, before, parent, other, first, second, bind_ok copied begun, mates, shares,
      (back _).trans at_first, (back _).trans at_second⟩

/-- Breeding succeeds, and so does mutation of what has been bred; the slots are laid out, and the
search has the population that it had before. -/
def Fills (wheel : Wheel σ α) (plan : Plan α) (s : Search σ α) (pairs : Nat) : Prop :=
  ∃ bred source, onSource (breed wheel plan s.population) s = .ok bred { s with source } ∧
    Layout wheel plan s.population s.source pairs bred ∧
    ∃ mutated t, aside bred (mutate plan) { s with source } = .ok ((), mutated) t ∧
      t.population = s.population

theorem fills_of_count [LawfulSource σ α] {s : Search σ α} {length : Nat} {top : Int}
    (uniform : s.population.Uniform length top) {pairs : Nat}
    (counted : pairCount plan s.population.size = .ok (pairs : Int))
    (room : 2 * pairs ≤ s.population.size) : Fills Wheel.spin plan s pairs := by
  obtain ⟨problem, some_job, some_node, fit⟩ := uniform.exists_fit
  obtain ⟨bred, source, drawn, bredFit⟩ := onSource_ok
    (yields_breed some_job fit counted (Int.natCast_nonneg pairs)
      (Wheel.yields_spin uniform.some_member)) s
  obtain ⟨source', born, same⟩ := onSource_eq_ok_iff.1 drawn
  have layout := layout_of_breed (Wheel.gives_spin s.population) uniform.length counted room born
  have mutation : Achieves (fun s : Search σ α => s.population.Fit problem) (mutate plan)
      fun _ t => t.population.Fit problem := achieves_mutate_fit some_job some_node
  obtain ⟨_, u, mutated, -⟩ := mutation { s with source, population := bred } bredFit
  exact ⟨bred, source, drawn, layout, u.population, _, aside_ok mutated, rfl⟩

/-- Without rounding the pairs are half of the share of slots that the crossover rate asks for,
rounded down. With rounding they are what the program counts, and fit in the slots all the same as
long as doubles hold the size exactly. -/
theorem breeding_fills_slots :
    (∀ {σ : Type} [Source σ ℚ] [LawfulSource σ ℚ] (plan : Plan ℚ) (s : Search σ ℚ) (length : Nat)
      (top : Int), IsRate plan.crossoverRate → s.population.Uniform length top →
      ∃ pairs : Nat, (pairs : Int) = ⌊(s.population.size : ℚ) * plan.crossoverRate / 2⌋ ∧
        Fills Wheel.spin plan s pairs) ∧
    ∀ {σ α : Type} [Scalar α] [LawfulScalar α] [MonotoneScalar α] [Source σ α] [LawfulSource σ α]
      (plan : Plan α) (s : Search σ α) (length : Nat) (top : Int), IsRate plan.crossoverRate →
      s.population.size < 2 ^ 53 → s.population.Uniform length top →
      ∃ pairs : Nat, pairCount plan s.population.size = .ok (pairs : Int) ∧
        Fills Wheel.spin plan s pairs := by
  constructor
  · intro σ _ _ plan s length top rate uniform
    obtain ⟨nonneg, atMost⟩ := rate
    rw [Scalar.zero_rat] at nonneg
    rw [Scalar.one_rat] at atMost
    have counted := pairCount_rat nonneg s.population.size
    have share : 0 ≤ ⌊(s.population.size : ℚ) * plan.crossoverRate / 2⌋ :=
      Int.floor_nonneg.2 (by positivity)
    have room : 2 * ⌊(s.population.size : ℚ) * plan.crossoverRate / 2⌋ ≤ s.population.size :=
      two_mul_floor_le atMost
    obtain ⟨pairs, same⟩ := Int.eq_ofNat_of_zero_le share
    rw [same] at counted room
    exact ⟨pairs, same.symm, fills_of_count uniform counted (by omega)⟩
  · intro σ α _ _ _ _ _ plan s length top rate small uniform
    obtain ⟨pairs, nonneg, whole⟩ := LawfulScalar.truncate_half small rate.1 rate.2
    have counted := pairCount_eq_ok.2 whole
    have room := (pairsFit rate small pairs counted).2
    obtain ⟨pairs, rfl⟩ := Int.eq_ofNat_of_zero_le nonneg
    exact ⟨pairs, counted, fills_of_count uniform counted (by omega)⟩

/-- Three candidates for two jobs on two nodes. -/
def trio : Search (Steady ℚ) ℚ where
  source := ⟨⟩
  population := ⟨[⟨[0, 1], 1, 1, 1, 0⟩, ⟨[0, 0], 1, 1 / 2, 2, 0⟩, ⟨[1, 1], 1, 1 / 2, 2, 0⟩], 2⟩
  bounds := none
  journal := []
  printed := ""
  readings := 0

/-- One generation of three candidates, in which pairs fill all the slots that they can. -/
def fertile : Plan ℚ where
  populationSize := 3
  targetSize := 3
  maxGenerations := 1
  maxSeconds := none
  mutationRate := 1
  crossoverRate := 1
  timeWeight := 1
  elitism := 2
  strategy := .grow true
  workers := 1
  verbose := false
  reportEvery := 1

theorem breeding_fills_slots_trio : Fills Wheel.spin fertile trio 1 := by
  have lawful : LawfulSource (Steady ℚ) ℚ := Steady.lawful (le_refl 0) zero_lt_one
  have rate : IsRate fertile.crossoverRate := ⟨zero_le_one, le_refl 1⟩
  have shapes : ∀ c ∈ trio.population.members, c.genes.length = 2 ∧ c.top = 1 ∧
      ∀ gene ∈ c.genes, inRange c.top gene = true := by
    decide
  have uniform : trio.population.Uniform 2 1 :=
    ⟨by decide, two_pos, fun c member => (shapes c member).1, fun c member => (shapes c member).2.1,
      fun c member => (shapes c member).2.2⟩
  obtain ⟨pairs, counted, fills⟩ := breeding_fills_slots.1 fertile trio 2 1 rate uniform
  have share : ⌊((3 : ℕ) : ℚ) * 1 / 2⌋ = 1 := by norm_num
  obtain rfl : pairs = 1 := Int.ofNat.inj (counted.trans share)
  exact fills

end Search

end EvoSched
