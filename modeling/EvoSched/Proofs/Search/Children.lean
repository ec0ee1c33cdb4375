import EvoSched.Proofs.Search.Shape

set_option autoImplicit false

namespace EvoSched

variable {σ α : Type}

/-- Where the mask has a say, it says whose gene is taken. -/
theorem getElem?_of_blendGenes {top : Int} {mask : List Bool} {base donor genes : List Int}
    (success : blendGenes top mask base donor = .ok genes) {place : Nat} {fromDonor : Bool}
    (masked : mask[place]? = some fromDonor) :
    genes[place]? = (if fromDonor then donor else base)[place]? := by
  induction mask generalizing base donor genes place with
  | nil => cases masked
  | cons takes mask ih =>
      rw [blendGenes] at success
      split at success
      · cases success
      · rename_i gene others picked
        split at success
        · split at success
          · cases success
          · rename_i old base
            obtain ⟨rest, blended, same⟩ := result_bind_eq_ok.1 success
            cases same
            cases place with
            | zero =>
                cases masked
                rw [picked]
                rfl
            | succ place =>
                have tail := ih blended masked
                rw [List.getElem?_cons_succ, tail]
                cases fromDonor with
                | true => exact List.getElem?_tail
                | false => rfl
        · cases success

theorem getElem?_mask (cut : Cut) {length place : Nat} (inside : place < length) :
    (cut.mask length)[place]? = some (cut.covers length place) := by
  simp [Cut.mask, inside]

namespace Candidate

/-- At each position the child has the gene that one of the two candidates has there. -/
def Blends (a b child : Candidate α) : Prop :=
  ∀ place : Nat, child.genes[place]? = a.genes[place]? ∨ child.genes[place]? = b.genes[place]?

theorem Blends.genes_eq {a b child : Candidate α} (blends : a.Blends b child)
    (same : a.genes = b.genes) : child.genes = a.genes := by
  apply List.ext_getElem?
  intro place
  rcases blends place with first | second
  · exact first
  · rw [second, same]

/-- Two children without scores that share out the genes of `a` and `b`: at each position one of
them has the gene of `a` there, and the other that of `b`. -/
structure Shares (a b first second : Candidate α) [Scalar α] : Prop where
  fresh_first : first = fresh first.genes a.top
  fresh_second : second = fresh second.genes b.top
  shared (place : Nat) :
    first.genes[place]? = a.genes[place]? ∧ second.genes[place]? = b.genes[place]? ∨
      first.genes[place]? = b.genes[place]? ∧ second.genes[place]? = a.genes[place]?

variable [Scalar α]

/-- Where the mask has a say, a child has the gene of the one it names. -/
theorem getElem?_of_blend_mask {base donor child : Candidate α} {mask : List Bool} {place : Nat}
    {fromDonor : Bool} (success : base.blend donor mask = .ok child)
    (masked : mask[place]? = some fromDonor) :
    child.genes[place]? = (if fromDonor then donor.genes else base.genes)[place]? := by
  obtain ⟨genes, blended, same⟩ := result_bind_eq_ok.1 success
  cases same
  exact getElem?_of_blendGenes blended masked

/-- Inside the segment a child has the donor's genes, outside it those of its base. -/
theorem getElem?_of_blend {base donor child : Candidate α} {cut : Cut} {length place : Nat}
    (success : base.blend donor (cut.mask length) = .ok child) (inside : place < length) :
    child.genes[place]? =
      (if cut.covers length place then donor.genes else base.genes)[place]? :=
  getElem?_of_blend_mask success (getElem?_mask cut inside)

theorem fresh_of_blend {base donor child : Candidate α} {mask : List Bool}
    (success : base.blend donor mask = .ok child) : child = fresh child.genes base.top := by
  obtain ⟨genes, -, same⟩ := result_bind_eq_ok.1 success
  cases same
  rfl

variable [Source σ α]

theorem gives_blends_twoPoint (a b : Candidate α) :
    Gives (a.twoPoint b : Draw σ (Candidate α)) fun child => a.Blends b child := by
  refine .after fun cut => .ofResult fun child blended place => ?_
  rcases Nat.lt_or_ge place a.genes.length with inside | outside
  · rw [getElem?_of_blend blended inside]
    split
    · exact .inr rfl
    · exact .inl rfl
  · have length := (follows_blend blended).length
    rw [List.getElem?_eq_none outside, List.getElem?_eq_none (length ▸ outside)]
    exact .inl rfl

theorem gives_shares_twoPointPair {a b : Candidate α} (alike : b.genes.length = a.genes.length) :
    Gives (a.twoPointPair b : Draw σ (Candidate α × Candidate α))
      fun children => a.Shares b children.1 children.2 := by
  refine .after fun cut => .bind (.ofResult fun _ blended => blended) fun first blended => ?_
  refine .bind (.ofResult fun _ blended' => blended') fun second blended' => .pure ?_
  change a.Shares b first second
  refine ⟨fresh_of_blend blended, fresh_of_blend blended', fun place => ?_⟩
  rcases Nat.lt_or_ge place a.genes.length with inside | outside
  · rw [getElem?_of_blend blended inside, getElem?_of_blend blended' inside]
    split
    · exact .inr ⟨rfl, rfl⟩
    · exact .inl ⟨rfl, rfl⟩
  · have length : first.genes.length = a.genes.length := (follows_blend blended).length
    have length' : second.genes.length = b.genes.length := (follows_blend blended').length
    left
    constructor
    · rw [List.getElem?_eq_none outside, List.getElem?_eq_none (by omega)]
    · rw [List.getElem?_eq_none (by omega), List.getElem?_eq_none (by omega)]

end Candidate

namespace Wheel

variable {wheel : Wheel σ α} {p : Population α} {parent : Candidate α}

/-- So many spins in a row, from one state of the source to another, all find the genes of
`parent`. -/
inductive Misses (wheel : Wheel σ α) (p : Population α) (parent : Candidate α) :
    Nat → σ → σ → Prop
  | none (s : σ) : Misses wheel p parent 0 s s
  | spin {count : Nat} {s t u : σ} {pick : Pick α} (spun : wheel p s = .ok pick t)
      (alike : pick.member.genes = parent.genes) (others : Misses wheel p parent count t u) :
      Misses wheel p parent (count + 1) s u

theorem Misses.append_spin {count : Nat} {s t u : σ} {pick : Pick α}
    (misses : Misses wheel p parent count s t) (spun : wheel p t = .ok pick u)
    (alike : pick.member.genes = parent.genes) : Misses wheel p parent (count + 1) s u := by
  induction misses with
  | none s => exact .spin spun alike (.none u)
  | spin first same others ih => exact .spin first same (ih spun)

/-- The last of the spins is the first that does not miss, unless there are no spins left. -/
theorem misses_of_spinAgain {more : Nat} {s t : σ} {pick : Pick α}
    (success : wheel.spinAgain p parent more s = .ok pick t) :
    ∃ count u, count ≤ more ∧ Misses wheel p parent count s u ∧ wheel p u = .ok pick t ∧
      (pick.member.genes = parent.genes → count = more) := by
  induction more generalizing s with
  | zero => exact ⟨0, s, le_refl 0, .none s, success, fun _ => rfl⟩
  | succ more ih =>
      obtain ⟨first, v, spun, rest⟩ := bind_eq_ok.1 success
      split at rest
      · rename_i same
        obtain ⟨count, u, few, misses, last, exhausted⟩ := ih rest
        exact ⟨count + 1, u, Nat.succ_le_succ few, .spin spun (beq_iff_eq.1 same) misses, last,
          fun alike => congrArg Nat.succ (exhausted alike)⟩
      · rename_i apart
        cases rest
        exact ⟨0, s, Nat.zero_le _, .none s, spun, fun alike => absurd (beq_iff_eq.2 alike) apart⟩

/-- A second parent has other genes than the first, unless all attempts to find one missed. -/
theorem apart_or_misses {attempts : Nat} (some_attempt : 0 < attempts) {s t : σ} {pick : Pick α}
    (success : wheel.partner p parent attempts s = .ok pick t) :
    pick.member.genes ≠ parent.genes ∨ Misses wheel p parent attempts s t := by
  obtain ⟨count, u, -, misses, last, exhausted⟩ := misses_of_spinAgain success
  by_cases alike : pick.member.genes = parent.genes
  · have all : attempts = count + 1 := by
      have := exhausted alike
      omega
    rw [all]
    exact .inr (misses.append_spin last alike)
  · exact .inl alike

end Wheel

end EvoSched
