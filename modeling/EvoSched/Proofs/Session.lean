import EvoSched.Proofs.Search.Effects
import EvoSched.Proofs.Search.Elites

set_option autoImplicit false

namespace EvoSched

open Candidate (InPlace Survive Descend)

namespace Search

variable {σ α : Type} [Scalar α] [Source σ α]

/-- All members are drawn anew, or they stay as they are. -/
def Redraws (length top : Int) (before after : List (Candidate α)) : Prop :=
  after = before ∨ ∀ c ∈ after, Drawn length top c

/-- What an operation does to the members that are there, whether it faults or not. -/
def Treats (plan : Plan α) :
    Operation α → List (Candidate α) → List (Candidate α) → Prop
  | .populate length top => Redraws length top
  | .evaluate => Reorder
  | .score _ | .replacePass | .mutate | .mutateFrom .. | .mutateMember _ | .setGene ..
  | .setFitness .. => InPlace
  | .sort => fun before after => after.Perm before
  | .select | .truncate _ => fun before after => after.Subperm before
  | .breed => Descend
  | .evolve =>
    match plan.strategy with
    | .replace => Survive
    | .grow mergeParents => Breeds mergeParents
  | .cross .. | .addCopy _ => Gains
  | .add _ | .extend _ => Extends Candidate.Valid
  | _ => Eq

instance (length top : Int) : Std.Refl (Redraws (α := α) length top) where
  refl _ := .inl rfl

variable (plan : Plan α) (problem : Problem α)

theorem moves_populate (length top : Int) :
    Moves (OnMembers (Redraws length top)) (populate plan length top : SearchM σ α Unit) := by
  intro s
  refine effect_draw fun members source drawn => ?_
  exact .inr (gives_drawCandidates length top _ s.source members source drawn)

omit [Source σ α] in
theorem moves_score (position : Int) :
    Moves (OnMembers InPlace) (score plan problem position : SearchM σ α α) := by
  refine moves_getPopulation fun s => (reads_ofResult _).effect fun c found => ?_
  refine reads_knownBounds.effect fun bounds _ => (reads_ofResult _).effect fun d evaluated => ?_
  refine (reads_ofResult _).effect fun members set => ?_
  exact Candidate.inPlace_setNth (ofResult_eq_ok.1 found).1
    (Candidate.follows_evaluate (ofResult_eq_ok.1 evaluated).1) (ofResult_eq_ok.1 set).1

theorem moves_evolve :
    Moves (OnMembers (Treats plan .evolve))
      (evolve Wheel.spin plan problem : SearchM σ α Unit) := by
  intro s
  unfold Treats
  change OnMembers _ s (endOf ((match plan.strategy with
    | .replace => evolveInPlace Wheel.spin plan problem
    | .grow mergeParents => evolveByBreeding mergeParents Wheel.spin plan problem)
      { s with journal := [] }))
  cases plan.strategy with
  | replace => exact moves_evolveInPlace plan problem { s with journal := [] }
  | grow mergeParents =>
      exact moves_evolveByBreeding mergeParents plan problem { s with journal := [] }

omit [Scalar α] [Source σ α] in
/-- What the constructor accepts is valid. -/
theorem valid_of_candidatesOf {drafts : List (Draft α)} {members : List (Candidate α)}
    (built : candidatesOf drafts = .ok members) : ∀ c ∈ members, c.Valid := by
  intro c member
  obtain ⟨draft, -, accepted⟩ := exists_of_mem_mapM built member
  exact Candidate.valid_of_ofDocuments accepted

omit [Scalar α] [Source σ α] in
theorem mem_of_memberAt {position : Int} {c : Candidate α} {s t : Search σ α}
    (found : memberAt position s = .ok c t) : c ∈ s.population.members :=
  mem_of_nth (ofResult_eq_ok.1 found).1

omit [Scalar α] in
theorem moves_mutateMember (position : Int) :
    Moves (OnMembers InPlace) (do
      let c ← memberAt position
      let (change, mutant) ← onSource c.mutate
      updateMember position fun _ => .ok mutant
      return .change change : SearchM σ α (Answer α)) := by
  intro s
  refine (reads_memberAt position).effect fun c read => effect_draw fun result source mutated => ?_
  have follows := Candidate.gives_mutate c s.source result source mutated
  have updated : OnMembers InPlace { s with source } (endOf
      (updateMember position (fun _ => .ok result.2) { s with source } :
        EStateM.Result Fault (Search σ α) Unit)) := by
    refine effect_updateMember fun old new found same => ?_
    cases same
    cases (ofResult_eq_ok.1 read).1.symm.trans found
    exact follows
  exact effect_then updated fun _ => .pure

theorem gives_children (crossing : Crossing) (a b : Candidate α) :
    Gives (children crossing a b : Draw σ (List (Candidate α)))
      fun offspring => ∀ d ∈ offspring, a.Follows d ∨ b.Follows d := by
  cases crossing with
  | onePoint =>
      refine .bind (Candidate.gives_onePoint a b) fun child follows => .pure ?_
      exact List.forall_mem_singleton.2 (.inl follows)
  | twoPoint =>
      refine .bind (Candidate.gives_twoPoint a b) fun child follows => .pure ?_
      exact List.forall_mem_singleton.2 (.inl follows)
  | twoPointPair =>
      refine .bind (Candidate.gives_twoPointPair a b) fun ⟨c, d⟩ ⟨follows, follows'⟩ => .pure ?_
      exact List.forall_mem_cons.2 ⟨.inl follows, List.forall_mem_singleton.2 (.inr follows')⟩

theorem treats_cross (crossing : Crossing) (first second : Int) (keep : Bool) (s : Search σ α) :
    Treats plan (.cross crossing first second keep) s.population.members
      (endOf (apply plan problem (.cross crossing first second keep) s)).population.members := by
  change OnMembers Gains s (endOf (apply plan problem (.cross crossing first second keep) s))
  refine (reads_memberAt first).effect fun a foundA => ?_
  refine (reads_memberAt second).effect fun b foundB => effect_draw fun offspring source born => ?_
  cases keep with
  | false => exact refl s.population.members
  | true =>
      refine extends_append rfl fun d member => ?_
      rcases gives_children crossing a b s.source offspring source born d member with
        follows | follows
      · exact ⟨a, mem_of_memberAt foundA, follows⟩
      · exact ⟨b, mem_of_memberAt foundB, follows⟩

theorem moves_breed : Moves (OnMembers Descend)
    (do setPopulation (← onSource (breed Wheel.spin plan (← getPopulation))) :
      SearchM σ α Unit) := by
  refine moves_getPopulation fun s => effect_draw fun bred source born => ?_
  exact gives_breed (Wheel.gives_spin s.population) s.source bred source born

theorem treats_apply (operation : Operation α) (s : Search σ α) :
    Treats plan operation s.population.members
      (endOf (apply plan problem operation s)).population.members := by
  cases operation with
  | measure => exact eq_of_still ((still_measure problem).bind fun _ => .pure) s
  | minTime => exact eq_of_still (reads_knownBounds.still.bind fun _ => .pure) s
  | minCost => exact eq_of_still (reads_knownBounds.still.bind fun _ => .pure) s
  | populate length top => exact moves_then (moves_populate plan length top) (fun _ => .pure) s
  | evaluate => exact moves_then (moves_evaluate plan problem) (fun _ => .pure) s
  | score position => exact moves_then (moves_score plan problem position) (fun _ => .pure) s
  | hasOptimum => rfl
  | evolve =>
      exact moves_then (moves_evolve plan problem) (fun _ => Moves.get.bind fun _ => .pure) s
  | replacePass => exact moves_then (moves_replacePass _ plan problem) (fun _ => .pure) s
  | breed =>
      change OnMembers Descend s (endOf ((onSource (breed Wheel.spin plan s.population) >>= fun q =>
        setPopulation q >>= fun _ => pure Answer.nothing) s))
      rw [← bind_assoc]
      exact effect_then (moves_breed plan s) fun _ => .pure
  | select => exact moves_then (moves_select plan) (fun _ => .pure) s
  | mutate => exact moves_then (moves_mutate plan) (fun _ => Moves.get.bind fun _ => .pure) s
  | mutateFrom rate elitism => exact moves_then (moves_mutateFrom rate elitism) (fun _ => .pure) s
  | mutateMember position => exact moves_mutateMember position s
  | spin =>
      refine eq_of_still (still_getPopulation.bind fun _ => ?_) s
      exact (still_onSource _).bind fun _ => .pure
  | partner position attempts =>
      refine eq_of_still (still_getPopulation.bind fun _ => ?_) s
      exact (reads_memberAt _).still.bind fun _ => (still_onSource _).bind fun _ => .pure
  | cross crossing first second keep => exact treats_cross plan problem crossing first second keep s
  | recompute => rfl
  | mean => rfl
  | sort => exact Population.perm_sorted _
  | truncate position => exact subperm_truncate s.population position
  | summary => rfl
  | size => rfl
  | member position => exact eq_of_still ((reads_memberAt _).still.bind fun _ => .pure) s
  | add draft =>
      refine (reads_ofResult _).effect fun c built => extends_append rfl ?_
      exact List.forall_mem_singleton.2 (Candidate.valid_of_ofDocuments (ofResult_eq_ok.1 built).1)
  | extend drafts =>
      refine (reads_ofResult _).effect fun cs built => extends_append rfl ?_
      exact valid_of_candidatesOf (ofResult_eq_ok.1 built).1
  | addCopy position =>
      change OnMembers Gains s (endOf (apply plan problem (.addCopy position) s))
      refine (reads_memberAt position).effect fun c found => extends_append rfl ?_
      exact List.forall_mem_singleton.2 ⟨c, mem_of_memberAt found, refl c⟩
  | setGene position job value =>
      refine moves_then (fun s => effect_updateMember fun c d _ changed => ?_) (fun _ => .pure) s
      obtain ⟨gene, -, set⟩ := result_bind_eq_ok.1 changed
      exact Candidate.follows_setGene set
  | gene position job =>
      refine eq_of_still ((reads_memberAt _).still.bind fun _ => ?_) s
      exact Moves.ofResult.bind fun _ => .pure
  | geneText position => exact eq_of_still ((reads_memberAt _).still.bind fun _ => .pure) s
  | profile position => exact eq_of_still ((reads_memberAt _).still.bind fun _ => .pure) s
  | compare first second =>
      refine eq_of_still ((reads_memberAt _).still.bind fun _ => ?_) s
      exact (reads_memberAt _).still.bind fun _ => .pure
  | includes draft =>
      refine eq_of_still (Moves.ofResult.bind fun _ => ?_) s
      exact still_getPopulation.bind fun _ => .pure
  | setFitness position value =>
      refine moves_then (fun s => effect_updateMember fun c d _ changed => ?_) (fun _ => .pure) s
      cases changed
      exact Candidate.follows_of_genes rfl rfl
  | setTotal value => rfl
  | unit => exact eq_of_still ((still_onSource _).bind fun _ => .pure) s

omit [Scalar α] [Source σ α] in
theorem valid_of_treats {plan : Plan α} {operation : Operation α}
    {before after : List (Candidate α)} (treats : Treats plan operation before after)
    (valid : ∀ c ∈ before, c.Valid) : ∀ c ∈ after, c.Valid := by
  have inPlace (same : InPlace before after) : ∀ c ∈ after, c.Valid :=
    same.survive.descend.valid valid
  have gains (gains : Gains before after) : ∀ c ∈ after, c.Valid := by
    obtain ⟨newcomers, rfl, follow⟩ := gains
    refine List.forall_mem_append.2 ⟨valid, fun d member => ?_⟩
    obtain ⟨c, old, follows⟩ := follow d member
    exact follows.valid (valid c old)
  have admits (admits : Extends Candidate.Valid before after) : ∀ c ∈ after, c.Valid := by
    obtain ⟨newcomers, rfl, others⟩ := admits
    exact List.forall_mem_append.2 ⟨valid, others⟩
  cases operation with
  | populate length top =>
      rcases treats with rfl | drawn
      · exact valid
      · exact fun c member => (drawn c member).valid
  | evaluate => exact (Reorder.survive treats).descend.valid valid
  | evolve =>
      revert treats
      unfold Treats
      cases plan.strategy with
      | replace => exact fun survive => survive.descend.valid valid
      | grow mergeParents => exact fun breeds => breeds.valid valid
  | sort => exact fun c member => valid c (treats.mem_iff.1 member)
  | select | truncate => exact fun c member => valid c (treats.subset member)
  | breed => exact treats.valid valid
  | cross | addCopy => exact gains treats
  | add | extend => exact admits treats
  | score | replacePass | mutate | mutateFrom | mutateMember | setGene | setFitness =>
      exact inPlace treats
  | _ =>
      have same : before = after := treats
      rw [← same]
      exact valid

/-- The candidates in an answer. -/
def candidatesIn {α : Type} : Answer α → List (Candidate α)
  | .candidate c => [c]
  | .candidates cs => cs
  | _ => []

/-- Candidates in an answer have the shapes of members. -/
theorem descend_of_answer {operation : Operation α} {s t : Search σ α} {answer : Answer α}
    (success : apply plan problem operation s = .ok answer t) :
    Descend s.population.members (candidatesIn answer) := by
  cases operation with
  | member position =>
      obtain ⟨c, _, found, rest⟩ := bind_eq_ok.1 success
      cases rest
      exact List.forall_mem_singleton.2 ⟨c, mem_of_memberAt found, refl c⟩
  | cross crossing first second keep =>
      obtain ⟨a, s₁, foundA, rest⟩ := bind_eq_ok.1 success
      obtain ⟨b, s₂, foundB, rest⟩ := bind_eq_ok.1 rest
      obtain ⟨offspring, s₃, drawn, rest⟩ := bind_eq_ok.1 rest
      have memberA := mem_of_memberAt foundA
      have memberB := mem_of_memberAt foundB
      rw [(ofResult_eq_ok.1 foundA).2] at memberB
      obtain ⟨source, born, -⟩ := onSource_eq_ok_iff.1 drawn
      have answered : answer = .candidates offspring := by
        cases keep with
        | false =>
            cases rest
            rfl
        | true =>
            cases rest
            rfl
      rw [answered]
      intro d member
      rcases gives_children crossing a b _ offspring source born d member with follows | follows
      · exact ⟨a, memberA, follows⟩
      · exact ⟨b, memberB, follows⟩
  | _ =>
      -- No other operation answers with candidates.
      have silent : candidatesIn answer = [] := by
        refine (?_ : Gives _ fun answer => candidatesIn answer = []) s answer t success
        repeat first | exact .pure rfl | refine .after fun _ => ?_
      rw [silent]
      exact List.forall_mem_nil _

/-- The search after operations in a row, each with its own plan and problem. What a fault leaves
is carried on. -/
def carryOn : List (Plan α × Problem α × Operation α) → Search σ α → Search σ α
  | [], s => s
  | (plan, problem, operation) :: rest, s => carryOn rest (endOf (apply plan problem operation s))

theorem valid_carryOn (steps : List (Plan α × Problem α × Operation α)) {start : Search σ α}
    (valid : ∀ c ∈ start.population.members, c.Valid) :
    ∀ c ∈ (carryOn steps start).population.members, c.Valid := by
  induction steps generalizing start with
  | nil => exact valid
  | cons step rest ih =>
      obtain ⟨plan, problem, operation⟩ := step
      exact ih (valid_of_treats (treats_apply plan problem operation start) valid)

theorem setGene_of_error {position job : Int} {value : Document} {s t : Search σ α} {fault : Fault}
    (failed : apply plan problem (.setGene position job value) s = .error fault t) : t = s := by
  change (updateMember position (fun c => do
    let gene ← value.toWhole
    c.setGene job gene) >>= fun _ => pure Answer.nothing) s = .error fault t at failed
  cases result : updateMember position (fun c => do
      let gene ← value.toWhole
      c.setGene job gene) s with
  | error other u =>
      rw [bind_error result] at failed
      cases failed
      exact updateMember_of_error result
  | ok x u =>
      rw [bind_of_ok result] at failed
      cases failed

/-- Every candidate of a session is valid at any time, and keeps its shape. The members are built
by the constructor to begin with, of any shapes; then any operations are applied, with any
arguments, and carried on from where they fault. Before and after each of them all members are
valid, and so are the candidates of its answer; what the operation does to the members keeps the
shape of each of them; children of members have the shape of their first parent, by whatever mask
they are made and also while they are half made; and setting a gene changes nothing if it faults. -/
theorem session_keeps_shapes {drafts : List (Draft α)} {start : Search σ α}
    (built : candidatesOf drafts = .ok start.population.members)
    (steps : List (Plan α × Problem α × Operation α)) (plan : Plan α) (problem : Problem α)
    (operation : Operation α) :
    let s := carryOn steps start
    let result := apply plan problem operation s
    (∀ c ∈ s.population.members, c.Valid) ∧
      (∀ c ∈ (endOf result).population.members, c.Valid) ∧
      Treats plan operation s.population.members (endOf result).population.members ∧
      (∀ answer t, result = .ok answer t → ∀ c ∈ candidatesIn answer, c.Valid) ∧
      (∀ a ∈ s.population.members, ∀ (b : Candidate α) (mask : List Bool) (child : Candidate α),
        a.blend b mask = .ok child →
        child.genes.length = a.genes.length ∧ child.top = a.top ∧ child.Valid) ∧
      (∀ position job value, operation = .setGene position job value →
        ∀ fault t, result = .error fault t → t = s) := by
  intro s result
  have valid : ∀ c ∈ s.population.members, c.Valid :=
    valid_carryOn steps (valid_of_candidatesOf built)
  have treats := treats_apply plan problem operation s
  refine ⟨valid, valid_of_treats treats valid, treats, ?_, ?_, ?_⟩
  · intro answer t success
    exact (descend_of_answer plan problem success).valid valid
  · intro a member b mask child born
    have follows := Candidate.follows_blend born
    exact ⟨follows.length, follows.top, follows.valid (valid a member)⟩
  · rintro position job value rfl fault t failed
    exact setGene_of_error plan problem failed

/-- Two candidates of different shapes; a node is set that there is not for the first of them, and
then it is crossed with the other, which is shorter. -/
theorem session_keeps_shapes_unequal :
    let drafts : List (Draft Float) :=
      [⟨[.whole 0, .whole 1], 1, 0, 0, 0⟩, ⟨[.whole 2], 2, 0, 0, 0⟩]
    let start : Search (Steady Float) Float :=
      { Search.start ⟨⟩ with population := ⟨[⟨[0, 1], 1, 0, 0, 0⟩, ⟨[2], 2, 0, 0, 0⟩], 0⟩ }
    candidatesOf drafts = .ok start.population.members ∧
      ∀ c ∈ (carryOn [(Plan.bold, Problem.uneven, .setGene 0 1 (.whole 2)),
        (Plan.bold, Problem.uneven, .cross .twoPoint 0 1 true)] start).population.members,
        c.Valid := by
  intro drafts start
  have built : candidatesOf drafts = .ok start.population.members := rfl
  exact ⟨built, (session_keeps_shapes built _ Plan.bold Problem.uneven .evolve).1⟩

end Search

end EvoSched
