import Mathlib.Data.Int.ModEq
import EvoSched.Proofs.Search.Children
import EvoSched.Proofs.Session

set_option autoImplicit false

namespace EvoSched

namespace Cut

variable {cut : Cut} {length place : Nat}

/-- The segment passes the place on its way along the ring. -/
def Spans (cut : Cut) (length place : Nat) : Prop :=
  ∃ k : Int, cut.first ≤ k ∧ k < cut.second ∧ (place : Int) ≡ k [ZMOD length]

/-- Two turns along a ring come to each of its places twice. -/
theorem modEq_iff_of_turns {k : Int} (inside : place < length) (low : 0 ≤ k)
    (high : k < 2 * length) :
    (place : Int) ≡ k [ZMOD length] ↔ k = place ∨ k = place + length := by
  rw [Int.modEq_iff_dvd]
  constructor
  · rintro ⟨turns, apart⟩
    -- `k` is behind the place by less than two turns, and before it by less than one
    have size : (0 : Int) ≤ length := by omega
    have above : (length : Int) * (-1) < length * turns := by omega
    have below : (length : Int) * turns < length * 2 := by omega
    have least : -1 < turns := lt_of_mul_lt_mul_left above size
    have most : turns < 2 := lt_of_mul_lt_mul_left below size
    have few : turns = 0 ∨ turns = 1 := by omega
    rcases few with rfl | rfl
    · left
      omega
    · right
      omega
  · rintro (rfl | rfl)
    · exact ⟨0, by omega⟩
    · exact ⟨1, by omega⟩

/-- A place is passed before the end of the ring or behind it. -/
theorem spans_iff (proper : cut.Proper length) (inside : place < length) :
    cut.Spans length place ↔
      cut.first ≤ place ∧ place < cut.second ∨ place + length < cut.second := by
  obtain ⟨low, start, some_place, whole⟩ := proper
  constructor
  · rintro ⟨k, from_first, before, same⟩
    rcases (modEq_iff_of_turns inside (by omega) (by omega)).1 same with rfl | rfl
    · exact .inl ⟨from_first, before⟩
    · exact .inr before
  · rintro (⟨from_first, before⟩ | behind)
    · exact ⟨place, from_first, before, rfl⟩
    · exact ⟨place + length, by omega, behind, (Int.add_emod_right _ _).symm⟩

/-- The test for a segment, with its two branches, finds the places that the segment passes. -/
theorem covers_iff_spans (proper : cut.Proper length) (inside : place < length) :
    cut.covers length place = true ↔ cut.Spans length place := by
  rw [spans_iff proper inside]
  obtain ⟨low, start, some_place, whole⟩ := proper
  unfold covers
  split
  · simp only [Bool.or_eq_true, decide_eq_true_eq]
    omega
  · simp only [Bool.and_eq_true, decide_eq_true_eq]
    omega

theorem Proper.spans_first (proper : cut.Proper length) : cut.Spans length cut.first.toNat := by
  refine ⟨cut.first, le_refl _, proper.first_lt_second, ?_⟩
  rw [Int.toNat_of_nonneg proper.first_nonneg]

end Cut

namespace Candidate

variable {σ α : Type} {a b child : Candidate α} {cut : Cut}

theorem Paired.symm (paired : a.Paired b) : b.Paired a :=
  ⟨paired.valid_second, paired.valid_first, paired.length.symm, paired.top.symm⟩

variable [Scalar α]

/-- A valid child without scores that has the genes of `b` in the segment, and those of `a` in all
other places. -/
structure Takes (a b child : Candidate α) (cut : Cut) : Prop where
  fresh : child = fresh child.genes a.top
  length : child.genes.length = a.genes.length
  valid : child.Valid
  inside (place : Nat) : place < a.genes.length → cut.Spans a.genes.length place →
    child.genes[place]? = b.genes[place]?
  outside (place : Nat) : place < a.genes.length → ¬ cut.Spans a.genes.length place →
    child.genes[place]? = a.genes[place]?

theorem takes_of_blend (valid : a.Valid) (proper : cut.Proper a.genes.length)
    (blended : a.blend b (cut.mask a.genes.length) = .ok child) : a.Takes b child cut where
  fresh := fresh_of_blend blended
  length := (follows_blend blended).length
  valid := (follows_blend blended).valid valid
  inside place within spanned := by
    have covered := (Cut.covers_iff_spans proper within).2 spanned
    rw [getElem?_of_blend blended within, if_pos covered]
  outside place within apart := by
    have bare : ¬ cut.covers a.genes.length place = true :=
      fun covered => apart ((Cut.covers_iff_spans proper within).1 covered)
    rw [getElem?_of_blend blended within, if_neg bare]

/-- What two parents exchange by the segment that is drawn from one state of the source, whether
they have one child or two. The single child is the first of the pair. -/
structure Exchanges [Source σ α] (a b : Candidate α) (s : σ) (cut : Cut) (child other : Candidate α)
    (t : σ) : Prop where
  drawn : Cut.draw a.genes.length s = .ok cut t
  proper : cut.Proper a.genes.length
  single : a.twoPoint b s = .ok child t
  pair : a.twoPointPair b s = .ok (child, other) t
  first : a.Takes b child cut
  second : b.Takes a other cut
  shares : a.Shares b child other
  begins : child.genes[cut.first.toNat]? = b.genes[cut.first.toNat]?

variable [Source σ α] [LawfulSource σ α]

theorem Paired.exchanges (paired : a.Paired b) (some_gene : 0 < a.genes.length) (s : σ) :
    ∃ cut child other t, Exchanges a b s cut child other t := by
  obtain ⟨cut, t, drawn, proper⟩ := yields_cut some_gene s
  have length := cut.length_mask a.genes.length
  obtain ⟨child, blended, -⟩ := paired.exists_blend length
  obtain ⟨other, blended', -⟩ := paired.symm.exists_blend (length.trans paired.length.symm)
  have pair : a.twoPointPair b s = .ok (child, other) t :=
    bind_ok drawn (bind_ok (ofResult_ok blended t) (bind_ok (ofResult_ok blended' t) rfl))
  have first := takes_of_blend paired.valid_first proper blended
  -- the other child is made by the same mask, since the parents have as many genes
  rw [← paired.length] at proper blended'
  have second := takes_of_blend paired.valid_second proper blended'
  rw [paired.length] at proper
  refine ⟨cut, child, other, t, drawn, proper, bind_ok drawn (ofResult_ok blended t), pair, first,
    second, gives_shares_twoPointPair paired.length s _ t pair, ?_⟩
  have within := proper.first_lt
  exact first.inside _ (by omega) proper.spans_first

theorem getElem?_take_append_drop {xs ys : List Int} {count place : Nat}
    (few : count ≤ xs.length) :
    (xs.take count ++ ys.drop count)[place]? = (if place < count then xs else ys)[place]? := by
  have size : (xs.take count).length = count := by
    simp [few]
  by_cases early : place < count
  · rw [List.getElem?_append_left (by omega), List.getElem?_take_of_lt early, if_pos early]
  · rw [List.getElem?_append_right (by omega), List.getElem?_drop, size, if_neg early]
    have behind : count + (place - count) = place := by omega
    rw [behind]

/-- A mask that is set from a place on takes the genes before it from the first parent. -/
theorem genes_of_blend_from {a b child : Candidate α} {cut : Int}
    (alike : b.genes.length = a.genes.length) (low : 0 ≤ cut) (high : cut ≤ a.genes.length)
    (blended : a.blend b ((List.range a.genes.length).map
      fun (i : Nat) => !((i : Int) < cut : Bool)) = .ok child) :
    child.genes = a.genes.take cut.toNat ++ b.genes.drop cut.toNat := by
  have length := (follows_blend blended).length
  apply List.ext_getElem?
  intro place
  rw [getElem?_take_append_drop (by omega)]
  by_cases inside : place < a.genes.length
  · have masked : ((List.range a.genes.length).map
        fun (i : Nat) => !((i : Int) < cut : Bool))[place]? =
          some (!((place : Int) < cut : Bool)) := by
      simp [inside]
    rw [getElem?_of_blend_mask blended masked]
    by_cases early : (place : Int) < cut
    · have before : place < cut.toNat := by omega
      simp [early, before]
    · have behind : ¬ place < cut.toNat := by omega
      simp [early, behind]
  · have behind : ¬ place < cut.toNat := by omega
    rw [if_neg behind, List.getElem?_eq_none (by omega), List.getElem?_eq_none (by omega)]

/-- How two parents are joined at the cut that is drawn from one state of the source. -/
structure Joins [Source σ α] (a b : Candidate α) (s : σ) (cut : Int) (child : Candidate α)
    (t : σ) : Prop where
  drawn : Draw.below 0 (a.genes.length + 1) s = .ok cut t
  nonneg : 0 ≤ cut
  le_length : cut ≤ a.genes.length
  made : a.onePoint b s = .ok child t
  valid : child.Valid
  joined : child = fresh (a.genes.take cut.toNat ++ b.genes.drop cut.toNat) a.top

theorem Paired.joins (paired : a.Paired b) (s : σ) : ∃ cut child t, Joins a b s cut child t := by
  have some_cut : (0 : Int) < a.genes.length + 1 := by omega
  obtain ⟨cut, t, drawn, low, high⟩ := LawfulSource.draw_mem s 0 (a.genes.length + 1) some_cut
  have length : ((List.range a.genes.length).map
      fun (i : Nat) => !((i : Int) < cut : Bool)).length = a.genes.length := by
    simp
  obtain ⟨child, blended, -, -, valid⟩ := paired.exists_blend length
  have most : cut ≤ a.genes.length := by omega
  refine ⟨cut, child, t, drawn, low, most, bind_ok drawn (ofResult_ok blended t), valid, ?_⟩
  rw [← genes_of_blend_from paired.length low most blended]
  exact fresh_of_blend blended

/-- Crossing two valid parents of one shape never faults. The two-point forms give the second
parent's genes to the child in the segment that is drawn, which passes one place at least, and the
first parent's in all others; the other child of a pair has the genes that this one has not. The
one-point form joins the first genes of one parent and the last of the other. Whatever is crossed,
the members that are there stay as they are, in their places. -/
theorem crossing_exchanges_genes {a b : Candidate α} (paired : a.Paired b)
    (some_gene : 0 < a.genes.length) (s : σ) :
    (∃ cut child other t, Exchanges a b s cut child other t) ∧
      (∃ cut child t, Joins a b s cut child t) ∧
      ∀ (plan : Plan α) (problem : Problem α) (crossing : Crossing) (first second : Int)
        (keep : Bool) (u : Search σ α),
        let after := endOf (Search.apply plan problem (.cross crossing first second keep) u)
        ∃ newcomers, after.population.members = u.population.members ++ newcomers := by
  refine ⟨paired.exchanges some_gene s, paired.joins s, ?_⟩
  intro plan problem crossing first second keep u
  obtain ⟨newcomers, behind, -⟩ := Search.treats_cross plan problem crossing first second keep u
  exact ⟨newcomers, behind⟩

/-- All jobs on one node. -/
def crowd (gene : Int) : Candidate ℚ := fresh [gene, gene, gene, gene] 1

theorem crowd_paired : (crowd 0).Paired (crowd 1) := by
  have valid : ∀ gene : Int, inRange 1 gene = true → (crowd gene).Valid := by
    intro gene inside
    simp [Valid, crowd, fresh, inside]
  exact ⟨valid 0 rfl, valid 1 rfl, rfl, rfl⟩

/-- A segment that begins at the third gene and passes the end holds the first gene too, but not the
second. -/
theorem crossing_exchanges_genes_around :
    let s : Level := ⟨1 / 2, by norm_num, by norm_num⟩
    (∃ child other t, (crowd 0).twoPoint (crowd 1) s = .ok child t ∧
      (crowd 0).twoPointPair (crowd 1) s = .ok (child, other) t ∧
      child.genes[2]? = some 1 ∧ child.genes[0]? = some 1 ∧ child.genes[1]? = some 0 ∧
      other.genes[0]? = some 0 ∧ other.genes[1]? = some 1) ∧
    ∃ t, (crowd 0).onePoint (crowd 1) s = .ok (fresh [0, 0, 1, 1] 1) t := by
  intro s
  have floors : ⌊s.unit * 4⌋ = 2 ∧ ⌊s.unit * 5⌋ = 2 := by
    norm_num [s, Int.floor_eq_iff]
  have first : Draw.below 0 4 s = .ok 2 s := by
    simp [Level.below_eq, floors]
  have second : Draw.below (2 + 1) (2 + 4 + 1) s = .ok 5 s := by
    simp [Level.below_eq, floors]
  have middle : Draw.below 0 (4 + 1) s = .ok 2 s := by
    simp [Level.below_eq, floors]
  obtain ⟨⟨cut, child, other, t, exchanges⟩, ⟨place, joint, u, joins⟩, -⟩ :=
    crossing_exchanges_genes crowd_paired (by decide) s
  cases exchanges.drawn.symm.trans (bind_ok first (bind_ok second rfl))
  cases joins.drawn.symm.trans middle
  have proper : Cut.Proper ⟨2, 5⟩ 4 := exchanges.proper
  have around : Cut.Spans ⟨2, 5⟩ 4 0 := (Cut.spans_iff proper (by decide)).2 (by decide)
  have apart : ¬ Cut.Spans ⟨2, 5⟩ 4 1 := by
    intro spanned
    have passed := (Cut.spans_iff proper (by decide)).1 spanned
    exact absurd passed (by decide)
  constructor
  · exact ⟨child, other, s, exchanges.single, exchanges.pair, exchanges.begins,
      exchanges.first.inside 0 (by decide) around, exchanges.first.outside 1 (by decide) apart,
      exchanges.second.inside 0 (by decide) around, exchanges.second.outside 1 (by decide) apart⟩
  · have made := joins.made
    rw [joins.joined] at made
    exact ⟨s, made⟩

end Candidate

end EvoSched
