import EvoSched.Proofs.Search.Shape
import EvoSched.Session

set_option autoImplicit false

namespace EvoSched

open Candidate (InPlace Survive Descend)

variable {σ α β γ : Type}

namespace Search

/-- The members of two searches stand in a relation. -/
def OnMembers (rel : List (Candidate α) → List (Candidate α) → Prop) (s t : Search σ α) : Prop :=
  rel s.population.members t.population.members

variable {rel : List (Candidate α) → List (Candidate α) → Prop}

instance [Std.Refl rel] : Std.Refl (OnMembers (σ := σ) rel) where
  refl s := refl s.population.members

instance [IsTrans (List (Candidate α)) rel] : IsTrans (Search σ α) (OnMembers rel) where
  trans s t u first second :=
    IsTrans.trans s.population.members t.population.members u.population.members first second

/-- The population stays the same. -/
def Still (s t : Search σ α) : Prop := t.population = s.population

theorem Still.onMembers [Std.Refl rel] {s t : Search σ α} (still : Still s t) :
    OnMembers rel s t := by
  unfold OnMembers
  rw [still]
  exact refl s.population.members

instance : Std.Refl (Still (σ := σ) (α := α)) where
  refl _ := rfl

instance : IsTrans (Search σ α) Still where
  trans _ _ _ first second := second.trans first

theorem still_onSource (act : Draw σ β) : Moves Still (onSource act : SearchM σ α β) := by
  intro s
  unfold onSource
  split
  · rfl
  · rfl

theorem still_getPopulation : Moves Still (getPopulation : SearchM σ α (Population α)) :=
  fun _ => rfl

theorem eq_of_still {act : SearchM σ α β} (still : Moves Still act) (s : Search σ α) :
    s.population.members = (endOf (act s)).population.members :=
  congrArg Population.members (still s).symm

/-- What is done to the population that is there. -/
theorem moves_getPopulation {next : Population α → SearchM σ α β}
    (effect : ∀ s, OnMembers rel s (endOf (next s.population s))) :
    Moves (OnMembers rel) (getPopulation >>= next) := effect

/-- What comes after an effect on the members may do anything else. -/
theorem effect_then {act : SearchM σ α β} {next : β → SearchM σ α γ} {s : Search σ α}
    (effect : OnMembers rel s (endOf (act s))) (still : ∀ x, Moves Still (next x)) :
    OnMembers rel s (endOf ((act >>= next) s)) := by
  cases result : act s with
  | error fault t =>
      rw [bind_error result]
      rwa [result] at effect
  | ok x t =>
      rw [bind_of_ok result]
      rw [result] at effect
      have same : (endOf (next x t)).population = t.population := still x t
      unfold OnMembers
      rw [same]
      exact effect

theorem moves_then {act : SearchM σ α β} {next : β → SearchM σ α γ}
    (moves : Moves (OnMembers rel) act) (still : ∀ x, Moves Still (next x)) :
    Moves (OnMembers rel) (act >>= next) :=
  fun s => effect_then (moves s) still

/-- The effect of a sequence that begins with a draw, which may fault. -/
theorem effect_draw [Std.Refl rel] {draw : Draw σ β} {next : β → SearchM σ α γ} {s : Search σ α}
    (effect : ∀ x source, draw s.source = .ok x source →
      OnMembers rel s (endOf (next x { s with source }))) :
    OnMembers rel s (endOf ((onSource draw >>= next) s)) := by
  cases result : onSource draw s with
  | error fault t =>
      rw [bind_error result]
      exact ((still_onSource draw).of_eq_error result).onMembers
  | ok x t =>
      rw [bind_of_ok result]
      obtain ⟨source, drawn, rfl⟩ := onSource_eq_ok_iff.1 result
      exact effect x source drawn

/-- What is only read, with a result or a fault. -/
def Reads (act : SearchM σ α β) : Prop :=
  ∀ s, (∃ x, act s = .ok x s) ∨ ∃ fault, act s = .error fault s

theorem reads_ofResult (result : Except Fault β) : Reads (ofResult result : SearchM σ α β) := by
  intro s
  cases result with
  | error fault => exact .inr ⟨fault, rfl⟩
  | ok x => exact .inl ⟨x, rfl⟩

theorem reads_memberAt (position : Int) : Reads (memberAt position : SearchM σ α (Candidate α)) :=
  fun s => reads_ofResult (s.population.member position) s

theorem reads_knownBounds : Reads (knownBounds : SearchM σ α (Bounds α)) :=
  fun s => reads_ofResult (requireBounds s.bounds) s

theorem Reads.still {act : SearchM σ α β} (reads : Reads act) : Moves Still act := by
  intro s
  rcases reads s with ⟨x, result⟩ | ⟨fault, result⟩
  · rw [result]
    rfl
  · rw [result]
    rfl

/-- The effect of a sequence that begins with reading. -/
theorem Reads.effect [Std.Refl rel] {act : SearchM σ α β} {next : β → SearchM σ α γ}
    {s : Search σ α} (reads : Reads act)
    (effect : ∀ x, act s = .ok x s → OnMembers rel s (endOf (next x s))) :
    OnMembers rel s (endOf ((act >>= next) s)) := by
  rcases reads s with ⟨x, result⟩ | ⟨fault, result⟩
  · rw [bind_of_ok result]
    exact effect x result
  · rw [bind_error result]
    exact refl s.population.members

theorem effect_updateMember {position : Int} {change : Candidate α → Except Fault (Candidate α)}
    {s : Search σ α} (follows : ∀ c d, s.population.member position = .ok c → change c = .ok d →
      c.Follows d) :
    OnMembers InPlace s (endOf (updateMember position change s)) := by
  refine (reads_ofResult (s.population.update position change)).effect fun q success => ?_
  obtain ⟨old, found, rest⟩ := result_bind_eq_ok.1 (ofResult_eq_ok.1 success).1
  obtain ⟨new, changed, rest⟩ := result_bind_eq_ok.1 rest
  obtain ⟨members, set, same⟩ := result_bind_eq_ok.1 rest
  cases same
  exact Candidate.inPlace_setNth found (follows old new found changed) set

/-- Candidates of one kind come behind the others. -/
def Extends (kind : Candidate α → Prop) (before after : List (Candidate α)) : Prop :=
  ∃ newcomers, after = before ++ newcomers ∧ ∀ c ∈ newcomers, kind c

/-- Candidates of the shapes that are there come behind the others. -/
def Gains (before after : List (Candidate α)) : Prop :=
  Extends (fun d => ∃ c ∈ before, c.Follows d) before after

theorem updateMember_of_error {position : Int}
    {change : Candidate α → Except Fault (Candidate α)} {s t : Search σ α} {fault : Fault}
    (failed : updateMember position change s = .error fault t) : t = s := by
  change (ofResult (s.population.update position change) >>= setPopulation) s =
    .error fault t at failed
  rcases reads_ofResult (s.population.update position change) s with ⟨p, result⟩ | ⟨other, result⟩
  · rw [bind_of_ok result] at failed
    cases failed
  · rw [bind_error result] at failed
    cases failed
    rfl

instance {kind : Candidate α → Prop} : Std.Refl (Extends kind) where
  refl before := ⟨[], (List.append_nil before).symm, nofun⟩

instance : Std.Refl (Gains (α := α)) where
  refl before := (refl before : Extends _ before before)

theorem extends_append {kind : Candidate α → Prop} {candidates : List (Candidate α)}
    {s t : Search σ α} {x : β} (still : Still s t) (all : ∀ c ∈ candidates, kind c) :
    OnMembers (Extends kind) s
      (endOf ((append candidates >>= fun _ => pure x : SearchM σ α β) t)) := by
  refine ⟨candidates, ?_, all⟩
  rw [← still]
  rfl

/-- What happens aside happens to the other population; the own one stays. -/
theorem aside_cases {act : SearchM σ α β} (moves : Moves (OnMembers rel) act)
    (other : Population α) (s : Search σ α) :
    (∃ x q t, aside other act s = .ok (x, q) t ∧ rel other.members q.members ∧ Still s t) ∨
      ∃ fault t, aside other act s = .error fault t ∧ Still s t := by
  have effect := moves { s with population := other }
  unfold aside
  cases result : act { s with population := other } with
  | ok x t =>
      rw [result] at effect
      exact .inl ⟨x, t.population, _, rfl, effect, rfl⟩
  | error fault t => exact .inr ⟨fault, _, rfl, rfl⟩

/-- The same candidates at a later time, in any order. -/
def Reorder (before after : List (Candidate α)) : Prop :=
  ∃ same, InPlace before same ∧ after.Perm same

theorem Reorder.survive {before after : List (Candidate α)} (reorder : Reorder before after) :
    Survive before after := by
  obtain ⟨same, inPlace, perm⟩ := reorder
  exact IsTrans.trans (r := Survive) _ _ _ inPlace.survive
    (Candidate.survive_of_subperm perm.subperm)

theorem inPlace_evaluateInOrder {evaluate : Candidate α → Except Fault (Candidate α)}
    (follows : ∀ c d, evaluate c = .ok d → c.Follows d) (members : List (Candidate α)) :
    InPlace members (evaluateInOrder evaluate members).1 := by
  induction members with
  | nil => exact .nil
  | cons c rest ih =>
      rw [evaluateInOrder]
      split
      · exact refl (c :: rest)
      · rename_i d evaluated
        exact .cons (follows c d evaluated) ih

variable [Scalar α]

section

variable [Source σ α]

omit [Source σ α] in
theorem still_measure (problem : Problem α) :
    Moves Still (measure problem : SearchM σ α (Bounds α)) :=
  Moves.ofResult.bind fun _ => .bind (fun _ => rfl) fun _ => .pure

theorem moves_mutateRanks (rate : α) (ranks : List Int) :
    Moves (OnMembers InPlace) (mutateRanks rate ranks : SearchM σ α (List Mutation)) := by
  induction ranks with
  | nil => exact .pure
  | cons rank rest ih =>
      refine moves_getPopulation fun s => effect_draw fun result source mutated => ?_
      have first : OnMembers InPlace s { s with source, population := result.2 } :=
        gives_mutateRank rate s.population rank s.source result source mutated
      have others : Moves (OnMembers InPlace) (mutateRanks rate rest >>= fun later =>
          pure (result.1 ++ later) : SearchM σ α (List Mutation)) :=
        ih.bind fun _ => .pure
      exact IsTrans.trans (r := OnMembers InPlace) _ _ _ first (others _)

theorem moves_mutateFrom (rate : α) (elitism : Int) :
    Moves (OnMembers InPlace) (mutateFrom rate elitism : SearchM σ α (List Mutation)) :=
  moves_getPopulation fun s => moves_mutateRanks rate _ s

theorem moves_mutate (plan : Plan α) :
    Moves (OnMembers InPlace) (mutate plan : SearchM σ α Unit) :=
  (moves_mutateFrom _ _).bind fun _ _ => Still.onMembers rfl

theorem moves_replacePass (wheel : Wheel σ α) (plan : Plan α) (problem : Problem α) :
    Moves (OnMembers InPlace) (replacePass wheel plan problem) := by
  intro s
  refine effect_draw fun members source offered => ?_
  exact gives_offerEach s.bounds s.population.members s.source members source offered

end

theorem inPlace_zipWith_scored {bounds : Bounds α} {timeWeight : α} {members : List (Candidate α)}
    {outcomes : List (Outcome α)} (length : outcomes.length = members.length) :
    InPlace members
      (List.zipWith (fun c outcome => c.scored bounds timeWeight outcome) members outcomes) := by
  induction members generalizing outcomes with
  | nil => exact .nil
  | cons c rest ih =>
      obtain ⟨outcome, others, rfl⟩ := List.exists_cons_of_length_eq_add_one length
      exact .cons (Candidate.follows_of_genes rfl rfl) (ih (Nat.succ.inj length))

theorem moves_evaluate (plan : Plan α) (problem : Problem α) :
    Moves (OnMembers Reorder) (evaluate plan problem : SearchM σ α Unit) := by
  intro s
  have sorts {members : List (Candidate α)} (same : InPlace s.population.members members) :
      Reorder s.population.members
        ({ s.population with members } : Population α).recompute.sort.members :=
    ⟨members, same, Population.perm_sorted members⟩
  have stays : Reorder s.population.members s.population.members :=
    ⟨_, refl _, List.Perm.refl _⟩
  unfold evaluate
  split
  · exact stays
  · rename_i bounds known
    dsimp only
    split
    · split
      · exact stays
      · rename_i outcomes each
        have length := (mapM_eq_ok_iff.1 each).length_eq
        exact sorts (inPlace_zipWith_scored length.symm)
    · have follows (c d : Candidate α)
          (success : c.evaluate problem bounds plan.timeWeight = .ok d) : c.Follows d :=
        Candidate.follows_evaluate success
      have same := inPlace_evaluateInOrder follows s.population.members
      split
      · rename_i members fault result
        rw [result] at same
        exact ⟨members, same, List.Perm.refl members⟩
      · rename_i members result
        rw [result] at same
        exact sorts same

theorem subperm_truncate (p : Population α) (position : Int) :
    (p.truncate position).members.Subperm p.members := by
  have front : (p.truncate position).members.Sublist (Population.sorted p.members) :=
    List.take_sublist _ _
  exact front.subperm.trans (Population.perm_sorted p.members).subperm

theorem moves_select (plan : Plan α) :
    Moves (OnMembers fun before after => after.Subperm before)
      (select plan : SearchM σ α Unit) := by
  intro s
  obtain ⟨printed, same⟩ := select_eq plan s
  rw [same]
  exact subperm_truncate s.population plan.targetSize

theorem moves_evaluate_select (plan : Plan α) (problem : Problem α) :
    Moves (OnMembers Survive) (do evaluate plan problem; select plan : SearchM σ α Unit) :=
  ((moves_evaluate plan problem).mono fun _ _ => Reorder.survive).bind fun _ =>
    (moves_select plan).mono fun _ _ => Candidate.survive_of_subperm

variable [Source σ α]

/-- How breeding goes on from a population: not at all, or with candidates of the shapes that were
there, and with the old ones if they are merged. -/
def Breeds (mergeParents : Bool) (before after : List (Candidate α)) : Prop :=
  after = before ∨ ∃ newcomers, Descend before newcomers ∧
    Survive (newcomers ++ if mergeParents then before else []) after

instance {mergeParents : Bool} : Std.Refl (Breeds (α := α) mergeParents) where
  refl _ := .inl rfl

omit [Source σ α] in
/-- A pool is evaluated and cut to size, or the own population stays. -/
theorem survive_of_pool (plan : Plan α) (problem : Problem α) (pool : Population α)
    (s : Search σ α) :
    let after := endOf ((aside pool (do evaluate plan problem; select plan) >>= fun result =>
      setPopulation result.2) s)
    Survive pool.members after.population.members ∨ Still s after := by
  intro after
  rcases aside_cases (moves_evaluate_select plan problem) pool s with
    ⟨x, next, t, result, survive, -⟩ | ⟨fault, t, failed, still⟩
  · have ended : after = { t with population := next } := congrArg endOf (bind_of_ok result)
    rw [ended]
    exact .inl survive
  · have ended : after = t := congrArg endOf (bind_error failed _)
    rw [ended]
    exact .inr still

omit [Scalar α] [Source σ α] in
theorem Breeds.valid {mergeParents : Bool} {before after : List (Candidate α)}
    (breeds : Breeds mergeParents before after) (valid : ∀ c ∈ before, c.Valid) :
    ∀ c ∈ after, c.Valid := by
  rcases breeds with rfl | ⟨newcomers, descend, survive⟩
  · exact valid
  · refine survive.descend.valid (List.forall_mem_append.2 ⟨descend.valid valid, ?_⟩)
    cases mergeParents with
    | true => exact valid
    | false => exact nofun

theorem moves_evolveByBreeding (mergeParents : Bool) (plan : Plan α) (problem : Problem α) :
    Moves (OnMembers (Breeds mergeParents))
      (evolveByBreeding mergeParents Wheel.spin plan problem : SearchM σ α Unit) := by
  intro s
  have stays {t : Search σ α} (still : Still s t) : OnMembers (Breeds mergeParents) s t :=
    .inl (congrArg Population.members still)
  change OnMembers _ s (endOf ((onSource (breed Wheel.spin plan s.population) >>= _) s))
  refine effect_draw fun bred source born => ?_
  have descend := gives_breed (Wheel.gives_spin s.population) s.source bred source born
  rcases aside_cases (moves_mutate plan) bred { s with source } with
    ⟨_, mutated, v, result, same, held⟩ | ⟨fault, v, failed, held⟩
  · rw [bind_of_ok result]
    have newcomers : Descend s.population.members mutated.members :=
      IsTrans.trans (r := Descend) _ _ _ descend same.survive.descend
    cases mergeParents with
    | false =>
        rcases survive_of_pool plan problem mutated v with survive | still
        · refine .inr ⟨mutated.members, newcomers, ?_⟩
          rw [if_neg Bool.false_ne_true, List.append_nil]
          exact survive
        · exact stays (still.trans held)
    | true =>
        -- The parents are taken out of the population before the pool is evaluated, and a fault
        -- there leaves it without members.
        rcases survive_of_pool plan problem
          { mutated with members := mutated.members ++ s.population.members }
          { v with population := { s.population with members := [] } } with survive | still
        · exact .inr ⟨mutated.members, newcomers, survive⟩
        · refine .inr ⟨[], nofun, [], List.nil_subperm, ?_⟩
          have emptied := congrArg Population.members still
          exact emptied ▸ .nil
  · rw [bind_error failed]
    exact stays held

theorem moves_evolveInPlace (plan : Plan α) (problem : Problem α) :
    Moves (OnMembers Survive) (evolveInPlace Wheel.spin plan problem : SearchM σ α Unit) :=
  ((moves_replacePass _ plan problem).mono fun _ _ => InPlace.survive).bind fun _ =>
    ((moves_mutate plan).mono fun _ _ => InPlace.survive).bind fun _ =>
      moves_evaluate_select plan problem

end Search

end EvoSched
