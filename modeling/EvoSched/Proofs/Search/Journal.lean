import EvoSched.Proofs.Candidate
import EvoSched.Proofs.Scalar.Order
import EvoSched.Proofs.Search.Pool

set_option autoImplicit false

namespace EvoSched

variable {σ α : Type}

namespace Candidate

/-- The gene of one job is set to a node that there is, and nothing else is changed. -/
structure Changes (c : Candidate α) (job : Nat) (old new : Int) (d : Candidate α) : Prop where
  before : c.genes[job]? = some old
  named : inRange c.top new = true
  after : d = { c with genes := c.genes.set job new }

theorem setGene_eq_ok {c d : Candidate α} {job : Nat} {new : Int}
    (success : c.setGene (job : Int) new = .ok d) :
    inRange c.top new = true ∧ d = { c with genes := c.genes.set job new } := by
  unfold setGene at success
  split at success
  · rename_i named
    obtain ⟨genes, set, same⟩ := result_bind_eq_ok.1 success
    cases same
    exact ⟨named, by rw [eq_set_of_setNth set]⟩
  · cases success

/-- A valid candidate with a gene. -/
structure Mutable (c : Candidate α) : Prop where
  valid : c.Valid
  some_gene : c.genes ≠ []

theorem Mutable.some_job {c : Candidate α} (able : c.Mutable) : (0 : Int) < c.genes.length :=
  Int.natCast_pos.2 (List.length_pos_iff.2 able.some_gene)

theorem Mutable.some_node {c : Candidate α} (able : c.Mutable) : 0 < c.top + 1 := by
  obtain ⟨gene, inside⟩ := List.exists_mem_of_ne_nil c.genes able.some_gene
  obtain ⟨low, high⟩ := inRange_iff.1 (able.valid gene inside)
  omega

theorem Changes.able {c d : Candidate α} {job : Nat} {old new : Int}
    (changes : c.Changes job old new d) (able : c.Mutable) : d.Mutable := by
  obtain ⟨before, named, rfl⟩ := changes
  refine ⟨fun gene member => ?_, ?_⟩
  · rcases List.mem_or_eq_of_mem_set member with kept | rfl
    · exact able.valid gene kept
    · exact named
  · simp [able.some_gene]

variable [Scalar α] [Source σ α]

theorem changes_of_mutate [HonestSource σ α] {c d : Candidate α} (able : c.Mutable)
    {source source' : σ} {change : GeneChange}
    (success : c.mutate source = .ok (change, d) source') :
    ∃ job : Nat, change.job = job ∧ c.Changes job change.old change.new d := by
  obtain ⟨job, _, drawn, rest⟩ := bind_eq_ok.1 success
  obtain ⟨new, _, -, rest⟩ := bind_eq_ok.1 rest
  obtain ⟨old, _, read, rest⟩ := bind_eq_ok.1 rest
  obtain ⟨mutant, _, written, rest⟩ := bind_eq_ok.1 rest
  cases rest
  obtain ⟨low, -⟩ := HonestSource.draw_mem able.some_job drawn
  obtain ⟨place, rfl⟩ := Int.eq_ofNat_of_zero_le low
  obtain ⟨named, after⟩ := setGene_eq_ok (ofResult_eq_ok.1 written).1
  exact ⟨place, rfl, getElem?_of_nth (ofResult_eq_ok.1 read).1, named, after⟩

/-- A source that refuses no range lets every such candidate mutate. -/
theorem exists_mutate [LawfulSource σ α] {c : Candidate α} (able : c.Mutable) (source : σ) :
    ∃ result source', c.mutate source = .ok result source' := by
  obtain ⟨job, s₁, drawn, low, high⟩ := LawfulSource.draw_mem source 0 _ able.some_job
  obtain ⟨new, s₂, drawn', low', high'⟩ := LawfulSource.draw_mem s₁ 0 _ able.some_node
  obtain ⟨old, -, read⟩ := nth_ok low high
  obtain ⟨place, set⟩ := setNth_ok new low high
  have named : inRange c.top new = true := inRange_iff.2 ⟨low', Int.lt_add_one_iff.1 high'⟩
  have written : c.setGene job new = .ok { c with genes := c.genes.set place new } := by
    rw [setGene, if_pos named, set]
    rfl
  exact ⟨_, s₂, bind_ok drawn (bind_ok drawn' (bind_ok (ofResult_ok read s₂)
    (bind_ok (ofResult_ok written s₂) rfl)))⟩

end Candidate

namespace Population

/-- Carrying out the entries, one after the other, turns one population into the other. -/
inductive Replays : List Mutation → Population α → Population α → Prop
  | nil (p : Population α) : Replays [] p p
  | cons {rank job : Nat} {old new : Int} {c d : Candidate α} {rest : List Mutation}
      {p q : Population α} (member : p.members[rank]? = some c) (changes : c.Changes job old new d)
      (others : Replays rest { p with members := p.members.set rank d } q) :
      Replays (⟨rank, ⟨job, old, new⟩⟩ :: rest) p q

namespace Replays

variable {entries : List Mutation} {p q : Population α}

theorem size (replays : Replays entries p q) : q.size = p.size := by
  induction replays with
  | nil => rfl
  | cons member changes others ih => exact ih.trans List.length_set

theorem total (replays : Replays entries p q) : q.total = p.total := by
  induction replays with
  | nil => rfl
  | cons member changes others ih => exact ih

/-- A member that no entry speaks of stays as it is. -/
theorem kept (replays : Replays entries p q) {rank : Nat} (silent : ∀ m ∈ entries, m.rank ≠ rank) :
    q.members[rank]? = p.members[rank]? := by
  induction replays with
  | nil => rfl
  | cons member changes others ih =>
      obtain ⟨other, rest⟩ := List.forall_mem_cons.1 silent
      rw [ih rest]
      exact List.getElem?_set_ne fun same => other (congrArg Int.ofNat same)

/-- Of entries about different members, each says what became of its own. -/
theorem changed (replays : Replays entries p q)
    (apart : entries.Pairwise fun m n => m.rank < n.rank) {m : Mutation} (member : m ∈ entries) :
    ∃ (rank job : Nat) (c d : Candidate α), m.rank = rank ∧ m.change.job = job ∧
      p.members[rank]? = some c ∧ q.members[rank]? = some d ∧
      c.Changes job m.change.old m.change.new d := by
  induction replays with
  | nil => cases member
  | @cons rank job old new c d rest p q found changes others ih =>
      obtain ⟨first, apart⟩ := List.pairwise_cons.1 apart
      rcases List.mem_cons.1 member with rfl | later
      · have inside := (List.getElem?_eq_some_iff.1 found).1
        refine ⟨rank, job, c, d, rfl, rfl, found, ?_, changes⟩
        rw [others.kept fun n among => (first n among).ne']
        exact List.getElem?_set_self inside
      · obtain ⟨rank', job', c', d', same, about, before, after, changes'⟩ := ih apart later
        have behind := first m later
        have other : rank ≠ rank' := by
          rintro rfl
          exact absurd same behind.ne'
        rw [List.getElem?_set_ne other] at before
        exact ⟨rank', job', c', d', same, about, before, after, changes'⟩

end Replays

/-- The entries are an exact journal of what became of a population, of which the first `spared`
members are protected: at most one entry for each of the others, in their order; each with the job
whose gene was changed, the node it had and the node it has; and there is no other change. -/
structure Journals (spared : Nat) (entries : List Mutation) (p q : Population α) : Prop where
  ascending : entries.Pairwise fun m n => m.rank < n.rank
  reach (m : Mutation) : m ∈ entries → (spared : Int) ≤ m.rank ∧ m.rank < p.size
  told (m : Mutation) : m ∈ entries → ∃ (rank job : Nat) (c d : Candidate α),
    m.rank = rank ∧ m.change.job = job ∧ p.members[rank]? = some c ∧ q.members[rank]? = some d ∧
      c.genes[job]? = some m.change.old ∧ d.genes[job]? = some m.change.new ∧
      0 ≤ m.change.new ∧ m.change.new ≤ c.top
  size : q.size = p.size
  total : q.total = p.total
  kept (rank : Nat) (c d : Candidate α) : p.members[rank]? = some c → q.members[rank]? = some d →
    d = { c with genes := d.genes } ∧ d.genes.length = c.genes.length ∧
      ∀ job : Nat, (∀ m ∈ entries, m.rank = rank → m.change.job ≠ job) →
        d.genes[job]? = c.genes[job]?

theorem Replays.journals {entries : List Mutation} {p q : Population α} {spared : Nat}
    (replays : Replays entries p q) (ascending : entries.Pairwise fun m n => m.rank < n.rank)
    (reach : ∀ m ∈ entries, (spared : Int) ≤ m.rank ∧ m.rank < p.size) :
    Journals spared entries p q where
  ascending := ascending
  reach := reach
  told m member := by
    obtain ⟨rank, job, c, d, same, about, before, after, changes⟩ :=
      replays.changed ascending member
    have inside := (List.getElem?_eq_some_iff.1 changes.before).1
    obtain ⟨low, high⟩ := inRange_iff.1 changes.named
    refine ⟨rank, job, c, d, same, about, before, after, changes.before, ?_, low, high⟩
    rw [changes.after]
    exact List.getElem?_set_self inside
  size := replays.size
  total := replays.total
  kept rank c d before after := by
    by_cases spoken : ∃ m ∈ entries, m.rank = rank
    · obtain ⟨m, member, same⟩ := spoken
      obtain ⟨rank', job, c', d', same', about, before', after', changes⟩ :=
        replays.changed ascending member
      obtain rfl : rank = rank' := Int.ofNat_inj.1 (same.symm.trans same')
      obtain rfl : c = c' := Option.some.inj (before.symm.trans before')
      obtain rfl : d = d' := Option.some.inj (after.symm.trans after')
      rw [changes.after]
      refine ⟨rfl, List.length_set, fun other unnamed => ?_⟩
      have apart : job ≠ other := by
        rintro rfl
        exact unnamed m member same about
      exact List.getElem?_set_ne apart
    · have silent : ∀ m ∈ entries, m.rank ≠ rank := fun m member same => spoken ⟨m, member, same⟩
      rw [replays.kept silent, before] at after
      obtain rfl := Option.some.inj after
      exact ⟨rfl, rfl, fun _ _ => rfl⟩

variable [Scalar α] [Source σ α] {rate : α} {p q : Population α} {source source' : σ}

/-- Every member is a valid candidate with a gene. -/
def Mutable (p : Population α) : Prop := ∀ c ∈ p.members, c.Mutable

omit [Scalar α] in
theorem Mutable.set {p : Population α} {rank job : Nat} {old new : Int} {c d : Candidate α}
    (able : p.Mutable) (found : p.members[rank]? = some c) (changes : c.Changes job old new d) :
    Mutable { p with members := p.members.set rank d } := by
  intro other member
  rcases List.mem_or_eq_of_mem_set member with kept | rfl
  · exact able other kept
  · exact changes.able (able c (List.mem_of_getElem? found))

/-- At one rank either nothing happens, or the member changes a gene, which is journaled. -/
theorem changes_of_mutateRank [HonestSource σ α] (able : p.Mutable) {rank : Nat}
    {entries : List Mutation}
    (success : p.mutateRank rate (rank : Int) source = .ok (entries, q) source') :
    ¬ (Source.unit source).1 < rate ∧ entries = [] ∧ q = p ∨
      (Source.unit source).1 < rate ∧ ∃ (job : Nat) (old new : Int) (c d : Candidate α),
        entries = [⟨rank, ⟨job, old, new⟩⟩] ∧ p.members[rank]? = some c ∧
          c.Changes job old new d ∧ q = { p with members := p.members.set rank d } := by
  rcases mutateRank_eq_ok success with
    unchanged | ⟨below, c, mutant, ⟨job, old, new⟩, found, mutated, rfl, rfl⟩
  · exact .inl unchanged
  · obtain ⟨place, same, changes⟩ :=
      Candidate.changes_of_mutate (able c (List.mem_of_getElem? found)) mutated
    obtain rfl : job = place := same
    exact .inr ⟨below, place, old, new, c, mutant, rfl, found, changes, rfl⟩

theorem exists_mutateRank [LawfulSource σ α] (able : p.Mutable) (rate : α) {rank : Nat}
    (inside : rank < p.size) (source : σ) :
    ∃ result source', p.mutateRank rate (rank : Int) source = .ok result source' := by
  have drawn : (Draw.unit : Draw σ α) source =
      .ok (Source.unit source).1 (Source.unit source).2 := rfl
  unfold mutateRank
  rw [bind_of_ok drawn]
  split
  · have asked : p.member (rank : Int) = .ok p.members[rank] := nth_natCast p.members rank inside
    obtain ⟨⟨change, mutant⟩, s₁, mutated⟩ := Candidate.exists_mutate
      (able _ (List.getElem_mem inside)) (Source.unit source).2
    have replaced : setNth p.members (rank : Int) mutant = .ok (p.members.set rank mutant) := by
      unfold setNth
      rw [resolve_natCast (show rank < p.members.length from inside)]
    exact ⟨_, s₁, bind_ok (ofResult_ok asked _) (bind_ok mutated
      (bind_ok (ofResult_ok replaced s₁) rfl))⟩
  · exact ⟨_, _, rfl⟩

end Population

namespace Search

variable [Scalar α] [Source σ α] {rate : α} {s t : Search σ α}

/-- A pass over ranks carries out what it journals, at most once at each of them, and at rate one
at all of them. -/
theorem replays_of_mutateRanks [OrderedScalar α] [HonestSource σ α] {ranks : List Nat}
    {entries : List Mutation} (able : s.population.Mutable)
    (success : mutateRanks rate (ranks.map Int.ofNat) s = .ok entries t) :
    t = { s with source := t.source, population := t.population } ∧
      Population.Replays entries s.population t.population ∧
      (entries.map (·.rank)).Sublist (ranks.map Int.ofNat) ∧
      (Scalar.one ≤ rate → entries.map (·.rank) = ranks.map Int.ofNat) := by
  induction ranks generalizing s entries with
  | nil =>
      cases success
      exact ⟨rfl, .nil _, .slnil, fun _ => rfl⟩
  | cons rank rest ih =>
      obtain ⟨first, later, p, source, mutated, tail, rfl⟩ := mutateRanks_cons_eq_ok success
      rcases Population.changes_of_mutateRank able mutated with
        ⟨above, rfl, rfl⟩ | ⟨-, job, old, new, c, d, rfl, found, changes, rfl⟩
      · obtain ⟨frame, replays, ranked, -⟩ := ih (s := { s with source }) able tail
        refine ⟨frame, replays, ranked.cons _, fun full => ?_⟩
        have below := (HonestSource.unit_mem (α := α) s.source).2
        exact absurd (Scalar.lt_of_lt_of_le below full) above
      · obtain ⟨frame, replays, ranked, full⟩ := ih (able.set found changes) tail
        exact ⟨frame, .cons found changes replays, ranked.cons_cons _,
          fun whole => congrArg (List.cons _) (full whole)⟩

theorem exists_mutateRanks [OrderedScalar α] [LawfulSource σ α] (rate : α) {ranks : List Nat}
    (able : s.population.Mutable) (inside : ∀ rank ∈ ranks, rank < s.population.size) :
    ∃ entries t, mutateRanks rate (ranks.map Int.ofNat) s = .ok entries t := by
  induction ranks generalizing s with
  | nil => exact ⟨[], s, rfl⟩
  | cons rank rest ih =>
      obtain ⟨low, others⟩ := List.forall_mem_cons.1 inside
      obtain ⟨⟨first, p⟩, source, mutated⟩ := Population.exists_mutateRank able rate low s.source
      obtain ⟨able', size⟩ : p.Mutable ∧ p.size = s.population.size := by
        rcases Population.changes_of_mutateRank able mutated with
          ⟨-, -, rfl⟩ | ⟨-, job, old, new, c, d, -, found, changes, rfl⟩
        · exact ⟨able, rfl⟩
        · exact ⟨able.set found changes, List.length_set⟩
      obtain ⟨later, t, tail⟩ := @ih { s with source, population := p } able' (by rwa [size])
      exact ⟨_, t, bind_ok rfl (bind_ok (onSource_eq_ok_iff.2 ⟨source, mutated, rfl⟩)
        (bind_ok rfl (bind_ok tail rfl)))⟩

/-- Units are not below zero, so that at rate zero no rank mutates. -/
theorem mutateRanks_of_still [OrderedScalar α] [HonestSource σ α] {rate : α}
    (still : rate ≤ Scalar.zero) (ranks : List Int) (s : Search σ α) :
    ∃ source, mutateRanks rate ranks s = .ok [] { s with source } := by
  induction ranks generalizing s with
  | nil => exact ⟨s.source, rfl⟩
  | cons rank rest ih =>
      have spared : ¬ (Source.unit s.source).1 < rate := by
        intro below
        have nonneg := (HonestSource.unit_mem (α := α) s.source).1
        exact (OrderedScalar.lt_iff.1 below).2 (OrderedScalar.le_trans still nonneg)
      have kept : s.population.mutateRank rate rank s.source =
          .ok ([], s.population) (Source.unit s.source).2 := by
        have drawn : (Draw.unit : Draw σ α) s.source =
            .ok (Source.unit s.source).1 (Source.unit s.source).2 := rfl
        unfold Population.mutateRank
        rw [bind_of_ok drawn, if_neg spared]
        rfl
      obtain ⟨source, others⟩ := ih { s with source := (Source.unit s.source).2 }
      refine ⟨source, bind_ok rfl (bind_ok (onSource_eq_ok_iff.2 ⟨_, kept, rfl⟩) ?_)⟩
      exact bind_ok rfl (bind_ok others rfl)

omit [Scalar α] [Source σ α] in
theorem openRanks_eq (p : Population α) (spared : Nat) :
    p.openRanks spared = (List.range' spared (p.size - spared)).map Int.ofNat := by
  have count : ((p.size : Int) - spared).toNat = p.size - spared := by omega
  rw [Population.openRanks, count, List.range'_eq_map_range, List.map_map]
  rfl

/-- Mutation keeps an exact journal, whatever the rate and however many members are spared. Of a
source that answers in range, a pass that ends has done what its journal tells and nothing else; at
rate zero that is nothing, and at rate one it tells of every member that is not spared. Where the
source refuses no range, the pass ends. -/
theorem mutation_is_journaled [OrderedScalar α] [HonestSource σ α] {s : Search σ α}
    (able : s.population.Mutable) (rate : α) (spared : Nat) :
    (∀ entries t, mutateFrom rate spared s = .ok entries t →
      t = { s with source := t.source, population := t.population } ∧
        Population.Journals spared entries s.population t.population ∧
        (rate ≤ Scalar.zero → entries = []) ∧
        (Scalar.one ≤ rate → ∀ rank : Nat, spared ≤ rank → rank < s.population.size →
          ∃ m ∈ entries, m.rank = rank)) ∧
      (LawfulSource σ α → ∃ entries t, mutateFrom rate spared s = .ok entries t) := by
  have ranks := openRanks_eq s.population spared
  constructor
  · intro entries t success
    obtain ⟨_, _, found, passed⟩ := bind_eq_ok.1 success
    cases found
    have still (low : rate ≤ Scalar.zero) : entries = [] := by
      obtain ⟨source, kept⟩ := mutateRanks_of_still low (s.population.openRanks spared) s
      rw [passed] at kept
      cases kept
      rfl
    rw [ranks] at passed
    obtain ⟨frame, replays, ranked, full⟩ := replays_of_mutateRanks able passed
    have ordered : (entries.map (·.rank)).Pairwise (· < ·) := by
      refine List.Pairwise.sublist ranked (List.pairwise_map.2 ?_)
      exact (List.pairwise_lt_range' _).imp Int.ofNat_lt.2
    have reach : ∀ m ∈ entries, (spared : Int) ≤ m.rank ∧ m.rank < s.population.size := by
      intro m member
      obtain ⟨rank, inside, same⟩ := List.mem_map.1 (ranked.subset (List.mem_map_of_mem member))
      have bounds := List.mem_range'_1.1 inside
      rw [← same]
      exact ⟨Int.ofNat_le.2 bounds.1, by change (rank : Int) < _; omega⟩
    refine ⟨frame, replays.journals (List.pairwise_map.1 ordered) reach, still, ?_⟩
    intro whole rank low high
    have open_rank : (rank : Int) ∈ entries.map (·.rank) := by
      rw [full whole]
      exact List.mem_map_of_mem (List.mem_range'_1.2 ⟨low, by omega⟩)
    exact List.mem_map.1 open_rank
  · intro lawful
    have inside : ∀ rank ∈ List.range' spared (s.population.size - spared),
        rank < s.population.size := by
      intro rank member
      have := List.mem_range'_1.1 member
      omega
    obtain ⟨entries, t, passed⟩ := exists_mutateRanks rate able inside
    exact ⟨entries, t, bind_ok rfl (by rwa [ranks])⟩

/-- Three candidates of different shapes; the last has a single gene and a single node. -/
def motley : Population ℚ :=
  ⟨[⟨[0, 1], 1, 3, 1, 1⟩, ⟨[2, 1, 0], 2, 2, 1, 1⟩, ⟨[0], 0, 1, 1, 1⟩], 6⟩

/-- With the first of three spared, a pass at rate one journals the other two. The last can only
move to the node that it is on, and is journaled all the same. -/
theorem motley_mutation_is_journaled :
    motley.Mutable ∧
    ∃ entries t, mutateFrom 1 1
        (⟨⟨1 / 2, by norm_num, by norm_num⟩, motley, none, [], "", 0⟩ : Search Level ℚ) =
          .ok entries t ∧
      Population.Journals 1 entries motley t.population ∧ (∃ m ∈ entries, m.rank = 1) ∧
      ∃ m ∈ entries, m.rank = 2 ∧ m.change = ⟨0, 0, 0⟩ := by
  have checked : ∀ c ∈ motley.members,
      (∀ gene ∈ c.genes, inRange c.top gene = true) ∧ c.genes ≠ [] := by decide +kernel
  have able : motley.Mutable := fun c member => ⟨(checked c member).1, (checked c member).2⟩
  have half : (0 : ℚ) ≤ 1 / 2 ∧ (1 / 2 : ℚ) < 1 := by norm_num
  obtain ⟨exact_journal, ends⟩ := mutation_is_journaled
    (s := (⟨⟨1 / 2, half.1, half.2⟩, motley, none, [], "", 0⟩ : Search Level ℚ)) able 1 1
  obtain ⟨entries, t, success⟩ := ends inferInstance
  obtain ⟨-, journal, -, full⟩ := exact_journal entries t success
  have second := full Scalar.one_rat.le 1 le_rfl (show 1 < motley.size by decide)
  obtain ⟨⟨_, _, gene, new⟩, member, rfl⟩ :=
    full Scalar.one_rat.le 2 one_le_two (show 2 < motley.size by decide)
  obtain ⟨rank, job, c, d, same, rfl, before, -, old, -, low, high⟩ := journal.told _ member
  obtain rfl : 2 = rank := Int.ofNat_inj.1 same
  obtain rfl : (⟨[0], 0, 1, 1, 1⟩ : Candidate ℚ) = c := Option.some.inj before
  obtain ⟨inside, rfl⟩ := List.getElem?_eq_some_iff.1 old
  obtain rfl : job = 0 := Nat.lt_one_iff.1 inside
  obtain rfl : new = 0 := le_antisymm high low
  exact ⟨able, entries, t, success, journal, second, _, member, rfl, rfl⟩

end Search

end EvoSched
