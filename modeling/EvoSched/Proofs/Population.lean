import EvoSched.Population
import EvoSched.Proofs.Scalar.Order

set_option autoImplicit false

namespace EvoSched.Population

variable {α : Type} [Scalar α]

theorem perm_sorted (members : List (Candidate α)) : (sorted members).Perm members := by
  unfold sorted
  split
  · exact List.mergeSort_perm _ _
  · exact Ranking.perm_descending _ _

theorem mem_sorted {members : List (Candidate α)} {c : Candidate α} :
    c ∈ sorted members ↔ c ∈ members :=
  (perm_sorted members).mem_iff

theorem mem_truncate {p : Population α} {position : Int} {c : Candidate α}
    (member : c ∈ (p.truncate position).members) : c ∈ p.members :=
  mem_sorted.1 (List.mem_of_mem_take member)

theorem members_truncate (p : Population α) (target : Nat) :
    (p.truncate target).members = (sorted p.members).take target := by
  change (sorted p.members).take (cutAt (sorted p.members).length target) = _
  rw [cutAt, if_neg (by omega), Int.toNat_natCast, ← List.take_eq_take_min]

theorem size_truncate (p : Population α) (target : Nat) :
    (p.truncate target).size = min target p.size := by
  rw [size, members_truncate, List.length_take, (perm_sorted p.members).length_eq, size]

theorem member_zero_eq_ok_iff {α : Type} {p : Population α} {best : Candidate α} :
    p.member 0 = .ok best ↔ p.members.head? = some best := by
  unfold member
  cases p.members with
  | nil => exact ⟨nofun, nofun⟩
  | cons c rest =>
      have front : nth (c :: rest) 0 = .ok c :=
        nth_natCast (c :: rest) 0 (Nat.succ_pos rest.length)
      rw [front, List.head?_cons, Except.ok.injEq, Option.some.injEq]

theorem mem_of_front {α : Type} {p : Population α} {best : Candidate α}
    (front : p.member 0 = .ok best) : best ∈ p.members :=
  List.mem_of_mem_head? (member_zero_eq_ok_iff.1 front)

/-- The fittest first, where the fitness of all compares. -/
def Descending (members : List (Candidate α)) : Prop :=
  members.Pairwise fun a b => b.fitness ≤ a.fitness

/-- The members of a pool by fitness, the fittest first, those of equal fitness in the order of the
pool. -/
structure Ranks (pool ranked : List (Candidate α)) : Prop where
  perm : ranked.Perm pool
  descending : Descending ranked
  stable : ∀ x : α, (ranked.filter fun c => c.fitness == x) = pool.filter fun c => c.fitness == x

/-- None in its place less fit than before. -/
def NoWorse (before after : List (Candidate α)) : Prop :=
  List.Forall₂ (fun c d => c.fitness ≤ d.fitness) before after

/-- The order of sorting, with what does not compare put last: it agrees with the one that
`sorted` uses wherever all members compare, and it is total and transitive. -/
def ranksBefore (a b : Candidate α) : Bool :=
  !isComparable b || isComparable a && !(a.fitness < b.fitness : Bool)

variable [OrderedScalar α]

theorem isComparable_iff {c : Candidate α} : isComparable c = true ↔ c.fitness ≤ c.fitness :=
  Scalar.beq_self_iff

theorem ranksBefore_iff {a b : Candidate α} :
    ranksBefore a b = true ↔ isComparable b = false ∨ b.fitness ≤ a.fitness := by
  cases second : isComparable b with
  | false => simp [ranksBefore, second]
  | true =>
      have order : isComparable a = true ∧ ¬ a.fitness < b.fitness ↔ b.fitness ≤ a.fitness := by
        constructor
        · rintro ⟨first, apart⟩
          exact (Scalar.not_lt_iff first second).1 apart
        · intro above
          exact ⟨(OrderedScalar.beq_self_of_le above).2, Scalar.not_lt_of_le above⟩
      simpa [ranksBefore, second] using order

theorem ranksBefore_trans (a b c : Candidate α) (first : ranksBefore a b = true)
    (second : ranksBefore b c = true) : ranksBefore a c = true := by
  rw [ranksBefore_iff] at first second ⊢
  rcases second with last | second
  · exact .inl last
  · rcases first with none | first
    · have comparable : isComparable b = true := (OrderedScalar.beq_self_of_le second).2
      simp [comparable] at none
    · exact .inr (OrderedScalar.le_trans second first)

theorem ranksBefore_total (a b : Candidate α) : (ranksBefore a b || ranksBefore b a) = true := by
  rw [Bool.or_eq_true, ranksBefore_iff, ranksBefore_iff]
  cases first : isComparable a with
  | false => exact .inr (.inl rfl)
  | true =>
      cases second : isComparable b with
      | false => exact .inl (.inl rfl)
      | true =>
          rcases OrderedScalar.le_total first second with below | above
          · exact .inr (.inr below)
          · exact .inl (.inr above)

omit [OrderedScalar α] in
theorem sorted_eq {members : List (Candidate α)}
    (comparable : ∀ c ∈ members, isComparable c = true) :
    sorted members = members.mergeSort ranksBefore := by
  have same : ∀ a ∈ members, ∀ b ∈ members,
      (!(a.fitness < b.fitness : Bool)) = ranksBefore (id a) (id b) := by
    intro a first b second
    simp [ranksBefore, comparable a first, comparable b second]
  have merged := List.map_mergeSort same
  rw [List.map_id, List.map_id] at merged
  rw [sorted, if_pos (List.all_eq_true.2 comparable), merged]

/-- What `ranksBefore` orders is in descending order. -/
theorem descending_iff {members : List (Candidate α)}
    (comparable : ∀ c ∈ members, isComparable c = true) :
    Descending members ↔ members.Pairwise fun a b => ranksBefore a b = true := by
  apply List.Pairwise.iff_of_mem
  intro a b _ second
  simp [ranksBefore_iff, comparable b second]

theorem ranks_sorted {pool : List (Candidate α)}
    (comparable : ∀ c ∈ pool, isComparable c = true) : Ranks pool (sorted pool) := by
  refine ⟨perm_sorted pool, ?_, fun x => ?_⟩
  · rw [descending_iff fun c member => comparable c (mem_sorted.1 member), sorted_eq comparable]
    exact List.pairwise_mergeSort ranksBefore_trans ranksBefore_total pool
  · have equal : (pool.filter fun c => c.fitness == x).Pairwise fun a b =>
        ranksBefore a b = true := by
      apply List.pairwise_of_forall_mem_list
      intro a first b second
      have below := (OrderedScalar.beq_iff.1 (List.mem_filter.1 first).2).2
      have above := (OrderedScalar.beq_iff.1 (List.mem_filter.1 second).2).1
      exact ranksBefore_iff.2 (.inr (OrderedScalar.le_trans above below))
    have kept : (pool.filter fun c => c.fitness == x).Sublist (sorted pool) := by
      rw [sorted_eq comparable]
      exact List.sublist_mergeSort ranksBefore_trans ranksBefore_total equal
        List.filter_sublist
    have inside := kept.filter fun c => c.fitness == x
    rw [List.filter_filter] at inside
    simp only [Bool.and_self] at inside
    have length := ((perm_sorted pool).filter fun c => c.fitness == x).length_eq
    exact (inside.eq_of_length length.symm).symm

/-- Sorting changes nothing about members in order. -/
theorem sorted_of_descending {members : List (Candidate α)}
    (comparable : ∀ c ∈ members, isComparable c = true) (descending : Descending members) :
    sorted members = members := by
  rw [sorted_eq comparable]
  exact List.mergeSort_of_pairwise ((descending_iff comparable).1 descending)

theorem sorted_sorted {members : List (Candidate α)}
    (comparable : ∀ c ∈ members, isComparable c = true) :
    sorted (sorted members) = sorted members := by
  have comparable' : ∀ c ∈ sorted members, isComparable c = true :=
    fun c member => comparable c (mem_sorted.1 member)
  exact sorted_of_descending comparable' (ranks_sorted comparable).descending

/-- The member in front of a truncated pool is a fittest of the whole pool. -/
theorem le_front {pool : Population α} {position : Int} {best c : Candidate α}
    (comparable : ∀ c ∈ pool.members, isComparable c = true)
    (front : (pool.truncate position).member 0 = .ok best) (member : c ∈ pool.members) :
    c.fitness ≤ best.fitness := by
  have ranked := (ranks_sorted comparable).descending
  have among := mem_sorted.2 member
  have head := member_zero_eq_ok_iff.1 front
  have first : (sorted pool.members).head? = some best := by
    change ((sorted pool.members).take _).head? = some best at head
    rw [List.head?_take] at head
    split at head
    · cases head
    · exact head
  obtain ⟨rest, split⟩ := List.head?_eq_some_iff.1 first
  rw [split, Descending, List.pairwise_cons] at ranked
  rw [split, List.mem_cons] at among
  rcases among with rfl | later
  · exact isComparable_iff.1 (comparable c member)
  · exact ranked.1 c later

/-- Where a pool has no fewer members above each limit, each of its ranks is taken by a candidate
that is no less fit. -/
theorem Descending.le_of_countP {few many : List (Candidate α)} (fewer : Descending few)
    (more : Descending many)
    (above : ∀ x : α, few.countP (fun c => x ≤ c.fitness) ≤ many.countP fun c => x ≤ c.fitness)
    {rank : Nat} (low : rank < few.length) (high : rank < many.length)
    (comparable : isComparable few[rank] = true) : few[rank].fitness ≤ many[rank].fitness := by
  -- those no less fit than `few[rank]` are more than `rank` in `few`, so they are in `many`
  let fit (c : Candidate α) : Bool := decide (few[rank].fitness ≤ c.fitness)
  have enough : rank + 1 ≤ few.countP fit := by
    have ahead : ∀ c ∈ few.take (rank + 1), fit c = true := by
      intro c member
      obtain ⟨place, inside, rfl⟩ := List.mem_take_iff_getElem.1 member
      rcases (by omega : place < rank ∨ place = rank) with earlier | rfl
      · exact decide_eq_true (List.pairwise_iff_getElem.1 fewer place rank (by omega) low earlier)
      · exact decide_eq_true (isComparable_iff.1 comparable)
    have whole := List.countP_eq_length.2 ahead
    have part := (List.take_sublist (rank + 1) few).countP_le (p := fit)
    rw [whole, List.length_take] at part
    omega
  by_contra unfit
  have behind : (many.drop rank).countP fit = 0 := by
    rw [List.countP_eq_zero]
    intro c member below
    obtain ⟨place, inside, rfl⟩ := List.mem_drop_iff_getElem.1 member
    have below : few[rank].fitness ≤ many[rank + place].fitness := of_decide_eq_true below
    rcases Nat.eq_zero_or_pos place with rfl | later
    · exact unfit below
    · exact unfit (OrderedScalar.le_trans below
        (List.pairwise_iff_getElem.1 more rank (rank + place) high _ (by omega)))
  have few_ahead : many.countP fit ≤ rank := by
    rw [← List.take_append_drop rank many, List.countP_append, behind]
    have bound := (many.take rank).countP_le_length (p := fit)
    rw [List.length_take] at bound
    omega
  have all := above few[rank].fitness
  change few.countP fit ≤ many.countP fit at all
  omega

/-- In a larger pool each rank is taken by a candidate that is no less fit. -/
theorem Descending.le_of_subperm {few many : List (Candidate α)} (fewer : Descending few)
    (more : Descending many) (contained : few.Subperm many) {rank : Nat} (low : rank < few.length)
    (high : rank < many.length) (comparable : isComparable few[rank] = true) :
    few[rank].fitness ≤ many[rank].fitness :=
  fewer.le_of_countP more (fun _ => contained.countP_le _) low high comparable

theorem NoWorse.countP_le {before after : List (Candidate α)} (better : NoWorse before after)
    (x : α) :
    before.countP (fun c => x ≤ c.fitness) ≤ after.countP fun c => x ≤ c.fitness := by
  induction better with
  | nil => exact le_refl 0
  | @cons c d olds news first others ih =>
      rw [List.countP_cons, List.countP_cons]
      by_cases reached : x ≤ c.fitness
      · have kept := OrderedScalar.le_trans reached first
        simp only [reached, kept, decide_true, if_true]
        omega
      · simp only [reached, decide_false, Bool.false_eq_true, if_false]
        omega

theorem NoWorse.comparable {before after : List (Candidate α)} (better : NoWorse before after) :
    (∀ c ∈ before, isComparable c = true) ∧ ∀ d ∈ after, isComparable d = true := by
  induction better with
  | nil => exact ⟨nofun, nofun⟩
  | cons first others ih =>
      have both := OrderedScalar.beq_self_of_le first
      exact ⟨List.forall_mem_cons.2 ⟨both.1, ih.1⟩, List.forall_mem_cons.2 ⟨both.2, ih.2⟩⟩

/-- Where no member gets worse in its place, no rank gets worse. -/
theorem NoWorse.sorted_le {before after : List (Candidate α)} (better : NoWorse before after)
    {rank : Nat} (low : rank < (sorted before).length) (high : rank < (sorted after).length) :
    (sorted before)[rank].fitness ≤ (sorted after)[rank].fitness := by
  obtain ⟨comparable, comparable'⟩ := better.comparable
  have fewer := (ranks_sorted comparable).descending
  have more := (ranks_sorted comparable').descending
  have above : ∀ x : α, (sorted before).countP (fun c => x ≤ c.fitness) ≤
      (sorted after).countP fun c => x ≤ c.fitness := by
    intro x
    rw [(perm_sorted before).countP_eq, (perm_sorted after).countP_eq]
    exact better.countP_le x
  have proper := comparable _ (mem_sorted.1 (List.getElem_mem low))
  exact fewer.le_of_countP more above low high proper

end EvoSched.Population
