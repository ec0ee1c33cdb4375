import EvoSched.Proofs.Population
import EvoSched.Proofs.Scalar.Place

set_option autoImplicit false

namespace EvoSched.Population

variable {α : Type} [Scalar α]

theorem mem_of_filter_eq {xs ys : List (Candidate α)} {c : Candidate α} (member : c ∈ ys)
    (comparable : isComparable c = true)
    (same : ∀ x : α, (xs.filter fun d => d.fitness == x) = ys.filter fun d => d.fitness == x) :
    c ∈ xs := by
  have kept : c ∈ ys.filter fun d => d.fitness == c.fitness :=
    List.mem_filter.2 ⟨member, comparable⟩
  rw [← same] at kept
  exact (List.mem_filter.1 kept).1

variable [OrderedScalar α]

theorem Descending.le_head {c d : Candidate α} {rest : List (Candidate α)}
    (descending : Descending (c :: rest)) (comparable : isComparable c = true)
    (member : d ∈ c :: rest) : d.fitness ≤ c.fitness := by
  rcases List.mem_cons.1 member with rfl | later
  · exact isComparable_iff.1 comparable
  · exact (List.pairwise_cons.1 descending).1 d later

/-- Members in descending order are determined by the members of each fitness, in their order. -/
theorem Descending.eq_of_filter_eq {xs ys : List (Candidate α)} (first : Descending xs)
    (second : Descending ys) (comparable : ∀ c ∈ xs, isComparable c = true)
    (comparable' : ∀ c ∈ ys, isComparable c = true)
    (same : ∀ x : α, (xs.filter fun c => c.fitness == x) = ys.filter fun c => c.fitness == x) :
    xs = ys := by
  induction xs generalizing ys with
  | nil =>
      refine (List.eq_nil_iff_forall_not_mem.2 fun c member => ?_).symm
      cases mem_of_filter_eq member (comparable' c member) same
  | cons c rest ih =>
      have mirror := fun x => (same x).symm
      have found := mem_of_filter_eq List.mem_cons_self (comparable c List.mem_cons_self) mirror
      obtain ⟨d, others, rfl⟩ := List.exists_cons_of_ne_nil (List.ne_nil_of_mem found)
      obtain ⟨head, tail⟩ := List.forall_mem_cons.1 comparable
      obtain ⟨head', tail'⟩ := List.forall_mem_cons.1 comparable'
      -- each front is among the other list, so that neither is above the other
      have below := second.le_head head' found
      have above := first.le_head head (mem_of_filter_eq List.mem_cons_self head' same)
      have tied : (d.fitness == c.fitness) = true := OrderedScalar.beq_iff.2 ⟨above, below⟩
      have fronts := same c.fitness
      have self : (c.fitness == c.fitness) = true := head
      rw [List.filter_cons, if_pos self, List.filter_cons, if_pos tied] at fronts
      obtain rfl := (List.cons.inj fronts).1
      refine congrArg (List.cons c) (ih first.of_cons second.of_cons tail tail' fun x => ?_)
      have parts := same x
      simp only [List.filter_cons] at parts
      split at parts
      · exact (List.cons.inj parts).2
      · exact parts

theorem Ranks.unique {pool ranked other : List (Candidate α)}
    (comparable : ∀ c ∈ pool, isComparable c = true) (first : Ranks pool ranked)
    (second : Ranks pool other) : other = ranked := by
  have ends := fun c member => comparable c (first.perm.mem_iff.1 member)
  have ends' := fun c member => comparable c (second.perm.mem_iff.1 member)
  exact second.descending.eq_of_filter_eq first.descending ends' ends fun x =>
    (second.stable x).trans (first.stable x).symm

/-- `q` keeps the first `count` members of the ranking of `p`, and the sum of their fitness: of the
members of one fitness the earlier ones, and none that is less fit than one that is dropped. -/
structure Truncates (ranked : List (Candidate α)) (count : Nat) (p q : Population α) : Prop where
  members : q.members = ranked.take (min count p.size)
  total : q.total = totalFitness q.members
  whole : (q.members ++ ranked.drop count).Perm p.members
  fittest : ∀ dropped ∈ ranked.drop count, ∀ kept ∈ q.members, dropped.fitness ≤ kept.fitness
  earlier : ∀ x : α, (q.members.filter fun c => c.fitness == x) <+:
    p.members.filter fun c => c.fitness == x

omit [OrderedScalar α] in
theorem truncate_eq (p : Population α) (count : Nat) :
    p.truncate count =
      ⟨(sorted p.members).take count, totalFitness ((sorted p.members).take count)⟩ := by
  rw [← members_truncate]
  rfl

theorem truncates_truncate {p : Population α}
    (comparable : ∀ c ∈ p.members, isComparable c = true) (count : Nat) :
    Truncates (sorted p.members) count p (p.truncate count) := by
  have ranks := ranks_sorted comparable
  have length : (sorted p.members).length = p.size := (perm_sorted p.members).length_eq
  have members := members_truncate p count
  have parts := List.take_append_drop count (sorted p.members)
  refine ⟨?_, rfl, ?_, ?_, fun x => ?_⟩
  · rw [members, ← length, ← List.take_eq_take_min]
  · rw [members, parts]
    exact ranks.perm
  · have split := ranks.descending
    rw [← parts, Descending, List.pairwise_append] at split
    rw [members]
    exact fun dropped last kept first => split.2.2 kept first dropped last
  · rw [members, ← ranks.stable x]
    exact (List.take_prefix count _).filter _

/-- The front of a ranking is ranked already. -/
theorem sorted_take {pool : List (Candidate α)}
    (comparable : ∀ c ∈ pool, isComparable c = true) (count : Nat) :
    sorted ((sorted pool).take count) = (sorted pool).take count := by
  have descending := (ranks_sorted comparable).descending.sublist (List.take_sublist count _)
  refine sorted_of_descending (fun c member => ?_) descending
  exact comparable c (mem_sorted.1 (List.mem_of_mem_take member))

theorem truncate_truncate {p : Population α}
    (comparable : ∀ c ∈ p.members, isComparable c = true) (first second : Nat) :
    (p.truncate first).truncate second = p.truncate (min second first : Nat) := by
  rw [truncate_eq (p.truncate first) second, members_truncate, sorted_take comparable,
    List.take_take, ← truncate_eq]

/-- Of a pool whose members all compare, sorting makes the one ranking that there is, and
truncating leaves the front of it and takes its sum; both change nothing when done again, and of
two cuts the deeper one counts. -/
theorem truncation_keeps_front {p : Population α}
    (comparable : ∀ c ∈ p.members, isComparable c = true) :
    Ranks p.members p.sort.members ∧
      (∀ ranked, Ranks p.members ranked → ranked = p.sort.members) ∧
      p.sort.total = p.total ∧ p.sort.sort = p.sort ∧
      ∀ n m : Nat, Truncates p.sort.members n p (p.truncate n) ∧
        (p.truncate n).truncate n = p.truncate n ∧
        (p.truncate n).truncate m = p.truncate (min m n : Nat) := by
  have ranks := ranks_sorted comparable
  refine ⟨ranks, fun ranked other => ranks.unique comparable other, rfl, ?_, fun n m => ?_⟩
  · exact congrArg (fun members => { p with members }) (sorted_sorted comparable)
  · have again := truncate_truncate comparable n n
    rw [Nat.min_self] at again
    exact ⟨truncates_truncate comparable n, again, truncate_truncate comparable n m⟩

/-- Two zeros of different signs, which are equally fit, between a negative and an infinite
fitness. -/
def zeros : Population Float :=
  ⟨[⟨[0], 1, -1, 1, 0⟩, ⟨[1], 1, -0.0, 1, 0⟩, ⟨[0], 1, 0, 1, 0⟩, ⟨[1], 1, 1 / 0, 1, 0⟩], 0⟩

/-- Cut to three and then to two, the pool is as cut to two at once, and of the zeros it keeps the
negative one rather than the other. -/
theorem zeros_truncation_keeps_front :
    (∀ c ∈ zeros.members, isComparable c = true) ∧
    (zeros.truncate (3 : Nat)).truncate (2 : Nat) = zeros.truncate (2 : Nat) ∧
    ((zeros.truncate (2 : Nat)).members.filter fun c => c.fitness == 0) <+:
      [⟨[1], 1, -0.0, 1, 0⟩, ⟨[0], 1, 0, 1, 0⟩] := by
  have comparable : ∀ c ∈ zeros.members, isComparable c = true := by decide +kernel
  obtain ⟨-, -, -, -, cuts⟩ := truncation_keeps_front comparable
  obtain ⟨-, -, deeper⟩ := cuts 3 2
  obtain ⟨front, -, -⟩ := cuts 2 2
  have tied : (zeros.members.filter fun c => c.fitness == 0) =
      [⟨[1], 1, -0.0, 1, 0⟩, ⟨[0], 1, 0, 1, 0⟩] := by decide +kernel
  have earlier := front.earlier 0
  rw [tied] at earlier
  exact ⟨comparable, deeper, earlier⟩

end EvoSched.Population
