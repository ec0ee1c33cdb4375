import EvoSched.Proofs.Search.Wheel

set_option autoImplicit false

namespace EvoSched

namespace Wheel

variable {σ α : Type} {wheel : Wheel σ α} {p : Population α} {parent : Candidate α}

/-- So many spins, one after the other. -/
def spins (wheel : Wheel σ α) (p : Population α) : Nat → Draw σ (List (Pick α))
  | 0 => pure []
  | count + 1 => do
    let pick ← wheel p
    let others ← spins wheel p count
    pure (pick :: others)

theorem spins_succ_eq_ok {count : Nat} {picks : List (Pick α)} {s u : σ} :
    spins wheel p (count + 1) s = .ok picks u ↔
      ∃ pick t others, wheel p s = .ok pick t ∧ spins wheel p count t = .ok others u ∧
        picks = pick :: others := by
  rw [spins, bind_eq_ok]
  constructor
  · rintro ⟨pick, t, spun, rest⟩
    obtain ⟨others, v, more, same⟩ := bind_eq_ok.1 rest
    cases same
    exact ⟨pick, t, others, spun, more, rfl⟩
  · rintro ⟨pick, t, others, spun, more, rfl⟩
    exact ⟨pick, t, spun, bind_ok more rfl⟩

theorem length_spins {count : Nat} {picks : List (Pick α)} {s u : σ}
    (success : spins wheel p count s = .ok picks u) : picks.length = count := by
  induction count generalizing s picks with
  | zero =>
      cases success
      rfl
  | succ count ih =>
      obtain ⟨pick, t, others, -, more, rfl⟩ := spins_succ_eq_ok.1 success
      rw [List.length_cons, ih more]

theorem yields_spins {kind : Pick α → Prop} (each : Yields (wheel p) kind) (count : Nat) :
    Yields (spins wheel p count) fun picks => ∀ pick ∈ picks, kind pick := by
  induction count with
  | zero => exact .pure nofun
  | succ count ih =>
      apply Yields.bind each
      intro pick first
      apply Yields.bind ih
      intro others rest
      exact .pure (List.forall_mem_cons.2 ⟨first, rest⟩)

/-- How many of the picks are looked at: up to the first with other genes than `parent`, or all. -/
def tries (parent : Candidate α) (picks : List (Pick α)) : Nat :=
  min ((picks.findIdx fun pick => !pick.member.sameGenes parent) + 1) picks.length

@[simp] theorem tries_nil (parent : Candidate α) : tries parent [] = 0 := rfl

theorem tries_cons_of_same {pick : Pick α} (same : pick.member.sameGenes parent = true)
    (others : List (Pick α)) : tries parent (pick :: others) = tries parent others + 1 := by
  simp only [tries, List.findIdx_cons, same, Bool.not_true, cond_false, List.length_cons]
  omega

theorem tries_cons_of_other {pick : Pick α} (other : pick.member.sameGenes parent = false)
    (others : List (Pick α)) : tries parent (pick :: others) = 1 := by
  simp only [tries, List.findIdx_cons, other, Bool.not_false, cond_true, List.length_cons]
  omega

theorem tries_pos {picks : List (Pick α)} (some_pick : picks ≠ []) : 0 < tries parent picks := by
  have size := List.length_pos_iff.2 some_pick
  unfold tries
  omega

theorem alike_iff_findIdx {picks : List (Pick α)} :
    (picks.findIdx fun pick => !pick.member.sameGenes parent) = picks.length ↔
      ∀ pick ∈ picks, pick.member.genes = parent.genes := by
  simp [List.findIdx_eq_length, Candidate.sameGenes]

theorem tries_of_alike {picks : List (Pick α)}
    (alike : ∀ pick ∈ picks, pick.member.genes = parent.genes) :
    tries parent picks = picks.length := by
  rw [tries, alike_iff_findIdx.2 alike]
  omega

/-- Where the pick that is looked at last has the genes of `parent`, all picks have them. -/
theorem alike_of_last_try {picks : List (Pick α)} {pick : Pick α}
    (last : picks[tries parent picks - 1]? = some pick)
    (alike : pick.member.genes = parent.genes) :
    ∀ other ∈ picks, other.member.genes = parent.genes := by
  rw [← alike_iff_findIdx]
  have bound : (picks.findIdx fun q => !q.member.sameGenes parent) ≤ picks.length :=
    List.findIdx_le_length
  by_contra missed
  -- otherwise the pick that is looked at last is the first with other genes
  have inside : (picks.findIdx fun q => !q.member.sameGenes parent) < picks.length := by omega
  have place : tries parent picks - 1 = picks.findIdx fun q => !q.member.sameGenes parent := by
    unfold tries
    omega
  have other := List.findIdx_getElem (w := inside)
  rw [place, List.getElem?_eq_getElem inside, Option.some.injEq] at last
  rw [last, Candidate.sameGenes, alike] at other
  simp at other

/-- A search that may spin `more` times again ends with the last of its tries. -/
theorem spinAgain_of_spins (parent : Candidate α) {more : Nat} {picks : List (Pick α)} {s u : σ}
    (success : spins wheel p (more + 1) s = .ok picks u) :
    ∃ pick t, picks[tries parent picks - 1]? = some pick ∧
      spins wheel p (tries parent picks) s = .ok (picks.take (tries parent picks)) t ∧
      wheel.spinAgain p parent more s = .ok pick t := by
  induction more generalizing s picks with
  | zero =>
      obtain ⟨pick, t, others, spun, rest, rfl⟩ := spins_succ_eq_ok.1 success
      cases rest
      have once : tries parent [pick] = 1 := by
        cases same : pick.member.sameGenes parent with
        | true => rw [tries_cons_of_same same, tries_nil]
        | false => exact tries_cons_of_other same []
      rw [once]
      exact ⟨pick, u, rfl, success, spun⟩
  | succ more ih =>
      obtain ⟨pick, t, others, spun, rest, rfl⟩ := spins_succ_eq_ok.1 success
      rw [spinAgain]
      cases same : pick.member.sameGenes parent with
      | true =>
          obtain ⟨last, v, found, tried, again⟩ := ih rest
          have some_other : others ≠ [] := by
            rintro rfl
            cases found
          have positive : 0 < tries parent others := tries_pos some_other
          obtain ⟨count, next⟩ := Nat.exists_eq_add_of_lt positive
          rw [tries_cons_of_same same]
          rw [next] at found tried ⊢
          refine ⟨last, v, by simpa using found, ?_, ?_⟩
          · exact spins_succ_eq_ok.2 ⟨pick, t, _, spun, tried, by simp⟩
          · rw [bind_of_ok spun, same]
            exact again
      | false =>
          rw [tries_cons_of_other same]
          refine ⟨pick, t, rfl, ?_, ?_⟩
          · exact spins_succ_eq_ok.2 ⟨pick, t, [], spun, rfl, rfl⟩
          · rw [bind_of_ok spun, same]
            rfl

variable [Scalar α] [Source σ α]

theorem spins_metered {count : Nat} {picks : List (Pick α)} {s u : σ}
    (success : spins spin p count s = .ok picks u) (calls : Nat) :
    spins spin p count (⟨s, calls⟩ : Metered σ) = .ok picks ⟨u, calls + count⟩ := by
  induction count generalizing s picks calls with
  | zero =>
      cases success
      rfl
  | succ count ih =>
      obtain ⟨pick, t, others, spun, rest, rfl⟩ := spins_succ_eq_ok.1 success
      have metered := ih rest (calls + 1)
      rw [Nat.add_assoc, Nat.add_comm 1 count] at metered
      exact spins_succ_eq_ok.2 ⟨pick, _, others, spin_metered spun calls, metered, rfl⟩

/-- The search for a partner with other genes than `parent`, beside all the spins that it may take:
it takes those up to the first with other genes, or all, and ends with the last that it takes. It
asks the source once for each. -/
structure Searches (p : Population α) (parent : Candidate α) (attempts : Int) (s : σ)
    (picks : List (Pick α)) (pick : Pick α) (t : σ) : Prop where
  length : (picks.length : Int) = max 1 attempts
  last : picks[tries parent picks - 1]? = some pick
  spins : spins spin p (tries parent picks) s = .ok (picks.take (tries parent picks)) t
  found : partner spin p parent attempts s = .ok pick t
  metered (calls : Nat) : partner spin p parent attempts (⟨s, calls⟩ : Metered σ) =
    .ok pick ⟨t, calls + tries parent picks⟩

theorem searches_of_spins (parent : Candidate α) {attempts : Int} {picks : List (Pick α)} {s u : σ}
    (success : Wheel.spins spin p (max 1 attempts).toNat s = .ok picks u) :
    ∃ pick t, Searches p parent attempts s picks pick t := by
  have length := length_spins success
  have count : (max 1 attempts).toNat = (attempts - 1).toNat + 1 := by omega
  rw [count] at success
  obtain ⟨pick, t, last, tried, found⟩ := spinAgain_of_spins parent success
  refine ⟨pick, t, by omega, last, tried, found, fun calls => ?_⟩
  obtain ⟨other, v, same, again, metered⟩ :=
    spinAgain_of_spins parent (spins_metered success calls)
  cases last.symm.trans same
  cases (spins_metered tried calls).symm.trans again
  exact metered

/-- A partner is looked for with at most as many spins as attempts, one at least: up to the first
that comes to other genes, where there is one, and else with all of them. So a partner with the
genes of the parent means that all spins came to these, and where there are no other genes the
search takes all its spins. -/
theorem partner_after_tries [LawfulSource σ α] (p : Population α) (parent : Candidate α)
    (attempts : Int) (s : σ) (some_member : p.members ≠ []) :
    ∃ picks u, spins spin p (max 1 attempts).toNat s = .ok picks u ∧
      ∃ pick t, Searches p parent attempts s picks pick t ∧
        (pick.member.genes = parent.genes →
          ∀ other ∈ picks, other.member.genes = parent.genes) ∧
        ((∀ c ∈ p.members, c.genes = parent.genes) →
          (tries parent picks : Int) = max 1 attempts) := by
  obtain ⟨picks, u, success, members⟩ :=
    yields_spins (yields_spin some_member) (max 1 attempts).toNat s
  obtain ⟨pick, t, searches⟩ := searches_of_spins parent success
  refine ⟨picks, u, success, pick, t, searches, alike_of_last_try searches.last, fun alike => ?_⟩
  rw [tries_of_alike fun other among => alike _ (members other among)]
  exact searches.length

/-- Two candidates with the same genes. -/
def twins : Population ℚ := ⟨[⟨[0, 1], 1, 1 / 2, 2, 0⟩, ⟨[0, 1], 1, 1 / 2, 2, 0⟩], 1⟩

/-- Three attempts at a partner are all taken, and one without any attempt. -/
theorem partner_after_tries_twins :
    (∃ pick t, partner spin twins ⟨[0, 1], 1, 1 / 2, 2, 0⟩ 3
      (⟨⟨1 / 2, by norm_num, by norm_num⟩, 0⟩ : Metered Level) = .ok pick ⟨t, 3⟩) ∧
    ∃ pick t, partner spin twins ⟨[0, 1], 1, 1 / 2, 2, 0⟩ (-1)
      (⟨⟨1 / 2, by norm_num, by norm_num⟩, 0⟩ : Metered Level) = .ok pick ⟨t, 1⟩ := by
  have half : (0 : ℚ) ≤ 1 / 2 ∧ (1 / 2 : ℚ) < 1 := by norm_num
  have alike : ∀ c ∈ twins.members, c.genes = [0, 1] := by decide
  have spent (attempts : Int) : ∃ pick t, partner spin twins ⟨[0, 1], 1, 1 / 2, 2, 0⟩ attempts
      (⟨⟨1 / 2, half.1, half.2⟩, 0⟩ : Metered Level) = .ok pick ⟨t, (max 1 attempts).toNat⟩ := by
    obtain ⟨picks, u, -, pick, t, searches, -, all⟩ := partner_after_tries twins
      ⟨[0, 1], 1, 1 / 2, 2, 0⟩ attempts (⟨1 / 2, half.1, half.2⟩ : Level) (List.cons_ne_nil _ _)
    have count : 0 + tries ⟨[0, 1], 1, 1 / 2, 2, 0⟩ picks = (max 1 attempts).toNat := by
      have := all alike
      omega
    have metered := searches.metered 0
    rw [count] at metered
    exact ⟨pick, t, metered⟩
  exact ⟨spent 3, spent (-1)⟩

end Wheel

end EvoSched
