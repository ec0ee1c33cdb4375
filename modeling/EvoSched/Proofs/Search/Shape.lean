import Mathlib.Data.List.Perm.Subperm
import EvoSched.Proofs.Candidate
import EvoSched.Proofs.Effects
import EvoSched.Proofs.Search.Pool
import EvoSched.Proofs.Search.Safety

set_option autoImplicit false

namespace EvoSched

variable {σ α : Type}

theorem exists_sublist_of_forall₂ {β γ : Type} {R : β → γ → Prop} {xs : List β} {ys zs : List γ}
    (same : List.Forall₂ R xs ys) (sub : zs.Sublist ys) :
    ∃ ws, ws.Sublist xs ∧ List.Forall₂ R ws zs := by
  induction sub generalizing xs with
  | slnil =>
      cases same
      exact ⟨[], .slnil, .nil⟩
  | cons y sub ih =>
      obtain ⟨x, rest, -, others, rfl⟩ := List.forall₂_cons_right_iff.1 same
      obtain ⟨ws, inside, related⟩ := ih others
      exact ⟨ws, inside.cons x, related⟩
  | cons_cons y sub ih =>
      obtain ⟨x, rest, first, others, rfl⟩ := List.forall₂_cons_right_iff.1 same
      obtain ⟨ws, inside, related⟩ := ih others
      exact ⟨x :: ws, inside.cons_cons x, .cons first related⟩

theorem exists_of_mem_forall₂ {β γ : Type} {R : β → γ → Prop} {xs : List β} {ys : List γ} {y : γ}
    (same : List.Forall₂ R xs ys) (member : y ∈ ys) : ∃ x ∈ xs, R x y := by
  induction same with
  | nil => cases member
  | cons related _ ih =>
      rcases List.mem_cons.1 member with rfl | member
      · exact ⟨_, List.mem_cons_self, related⟩
      · obtain ⟨x, inside, related⟩ := ih member
        exact ⟨x, List.mem_cons_of_mem _ inside, related⟩

theorem exists_subperm_of_forall₂ {β γ : Type} {R : β → γ → Prop} {xs : List β} {ys zs : List γ}
    (same : List.Forall₂ R xs ys) (sub : zs.Subperm ys) :
    ∃ ws, ws.Subperm xs ∧ List.Forall₂ R ws zs := by
  obtain ⟨ordered, perm, sublist⟩ := sub
  obtain ⟨ws, inside, related⟩ := exists_sublist_of_forall₂ same sublist
  obtain ⟨vs, moved, back⟩ := List.perm_comp_forall₂ perm.symm related.flip
  exact ⟨vs, back.subperm.trans inside.subperm, moved.flip⟩

theorem mem_of_nth {β : Type} {xs : List β} {position : Int} {x : β}
    (found : nth xs position = .ok x) : x ∈ xs := by
  unfold nth at found
  split at found
  · rename_i y same
    cases found
    obtain ⟨place, -, taken⟩ := Option.bind_eq_some_iff.1 same
    exact List.mem_of_getElem? taken
  · cases found

namespace Candidate

/-- As many genes as before, for as many nodes, and valid if it was so before: the candidate itself
at a later time, or a child of it. -/
structure Follows (c d : Candidate α) : Prop where
  length : d.genes.length = c.genes.length
  top : d.top = c.top
  valid : c.Valid → d.Valid

instance : Std.Refl (Follows (α := α)) where
  refl _ := ⟨rfl, rfl, id⟩

instance : IsTrans (Candidate α) Follows where
  trans _ _ _ first second := {
    length := second.length.trans first.length
    top := second.top.trans first.top
    valid := second.valid ∘ first.valid }

theorem follows_of_genes {c d : Candidate α} (genes : d.genes = c.genes) (top : d.top = c.top) :
    c.Follows d := by
  refine ⟨congrArg List.length genes, top, fun valid => ?_⟩
  rw [Valid, genes, top]
  exact valid

theorem checked_eq_ok {c d : Candidate α} (success : c.checked = .ok d) : d = c ∧ c.Valid := by
  unfold checked at success
  split at success
  · cases success
  · rename_i inside
    cases success
    exact ⟨rfl, firstFailing_eq_none_iff.1 inside⟩

/-- What is built from untyped genes is valid. -/
theorem valid_of_ofDocuments {genes : List Document} {top : Int} {fitness time cost : α}
    {c : Candidate α} (success : ofDocuments genes top fitness time cost = .ok c) : c.Valid := by
  obtain ⟨whole, -, built⟩ := result_bind_eq_ok.1 success
  obtain ⟨rfl, valid⟩ := checked_eq_ok built
  exact valid

theorem follows_setGene {c d : Candidate α} {position gene : Int}
    (success : c.setGene position gene = .ok d) : c.Follows d := by
  unfold setGene at success
  split at success
  · rename_i named
    obtain ⟨genes, set, same⟩ := result_bind_eq_ok.1 success
    cases same
    unfold setNth at set
    split at set
    · cases set
      refine ⟨List.length_set, rfl, fun valid other member => ?_⟩
      rcases List.mem_or_eq_of_mem_set member with kept | rfl
      · exact valid other kept
      · exact named
    · cases set
  · cases success

/-- Whatever the mask is, and however long the parents are: also the genes that a child has by the
time that a part of the mask is done. -/
theorem blendGenes_eq_ok {top : Int} {mask : List Bool} {base donor genes : List Int}
    (success : blendGenes top mask base donor = .ok genes) :
    genes.length = base.length ∧
      ((∀ gene ∈ base, inRange top gene = true) → ∀ gene ∈ genes, inRange top gene = true) := by
  induction mask generalizing base donor genes with
  | nil =>
      cases success
      refine ⟨List.length_map _, fun inside gene member => ?_⟩
      obtain ⟨old, present, rfl⟩ := List.mem_map.1 member
      have bounds := inRange_iff.1 (inside old present)
      exact inRange_iff.2 ⟨le_refl 0, bounds.1.trans bounds.2⟩
  | cons fromDonor mask ih =>
      rw [blendGenes] at success
      split at success
      · cases success
      · rename_i gene others picked
        split at success
        · rename_i named
          split at success
          · cases success
          · rename_i old base
            obtain ⟨rest, blended, same⟩ := result_bind_eq_ok.1 success
            cases same
            obtain ⟨length, inside⟩ := ih blended
            refine ⟨congrArg Nat.succ length, fun valid => ?_⟩
            exact List.forall_mem_cons.2 ⟨named, inside (List.forall_mem_cons.1 valid).2⟩
        · cases success

section

variable [Scalar α]

theorem follows_blend {base donor child : Candidate α} {mask : List Bool}
    (success : base.blend donor mask = .ok child) : base.Follows child := by
  obtain ⟨genes, blended, same⟩ := result_bind_eq_ok.1 success
  cases same
  obtain ⟨length, inside⟩ := blendGenes_eq_ok blended
  exact ⟨length, rfl, inside⟩

theorem follows_evaluate {c d : Candidate α} {problem : Problem α} {bounds : Bounds α}
    {timeWeight : α} (success : c.evaluate problem bounds timeWeight = .ok d) : c.Follows d := by
  obtain ⟨outcome, -, same⟩ := result_bind_eq_ok.1 success
  cases same
  exact follows_of_genes rfl rfl

variable [Source σ α]

theorem gives_onePoint (a b : Candidate α) :
    Gives (a.onePoint b : Draw σ (Candidate α)) fun child => a.Follows child :=
  .after fun _ => .ofResult fun _ => follows_blend

theorem gives_twoPoint (a b : Candidate α) :
    Gives (a.twoPoint b : Draw σ (Candidate α)) fun child => a.Follows child :=
  .after fun _ => .ofResult fun _ => follows_blend

theorem gives_twoPointPair (a b : Candidate α) :
    Gives (a.twoPointPair b : Draw σ (Candidate α × Candidate α))
      fun children => a.Follows children.1 ∧ b.Follows children.2 :=
  .after fun _ => .bind (.ofResult fun _ => follows_blend) fun _ first =>
    .bind (.ofResult fun _ => follows_blend) fun _ second => .pure ⟨first, second⟩

omit [Scalar α] in
theorem gives_mutate (c : Candidate α) :
    Gives (c.mutate : Draw σ (GeneChange × Candidate α)) fun result => c.Follows result.2 :=
  .after fun _ => .after fun _ => .after fun _ =>
    .bind (.ofResult fun _ => follows_setGene) fun _ follows => .pure follows

end

/-- The same candidates at a later time, or children of them in their places. -/
def InPlace (before after : List (Candidate α)) : Prop := List.Forall₂ Follows before after

/-- Some of the candidates, in any order. -/
def Survive (before after : List (Candidate α)) : Prop :=
  ∃ olds, olds.Subperm before ∧ InPlace olds after

/-- Each of the later candidates has the shape of some earlier one. -/
def Descend (before after : List (Candidate α)) : Prop :=
  ∀ d ∈ after, ∃ c ∈ before, c.Follows d

variable {before after : List (Candidate α)}

instance : Std.Refl (InPlace (α := α)) where
  refl before := List.forall₂_refl before

instance : IsTrans (List (Candidate α)) InPlace where
  trans xs ys zs first second := by
    change List.Forall₂ Follows xs zs
    induction first generalizing zs with
    | nil => exact second
    | cons follows _ ih =>
        obtain ⟨z, rest, later, others, rfl⟩ := List.forall₂_cons_left_iff.1 second
        exact .cons (IsTrans.trans _ _ _ follows later) (ih rest others)

theorem InPlace.survive (same : InPlace before after) : Survive before after :=
  ⟨before, List.Subperm.refl before, same⟩

theorem survive_of_subperm (some_of : after.Subperm before) : Survive before after :=
  ⟨after, some_of, refl after⟩

instance : IsTrans (List (Candidate α)) Survive where
  trans xs ys zs := by
    rintro ⟨olds, inside, same⟩ ⟨middle, within, same'⟩
    obtain ⟨firsts, chosen, begun⟩ := exists_subperm_of_forall₂ same within
    exact ⟨firsts, chosen.trans inside, IsTrans.trans (r := InPlace) _ _ _ begun same'⟩

theorem Survive.descend (survive : Survive before after) : Descend before after := by
  obtain ⟨olds, inside, same⟩ := survive
  intro d member
  obtain ⟨c, old, follows⟩ := exists_of_mem_forall₂ same member
  exact ⟨c, inside.subset old, follows⟩

theorem Descend.valid (descend : Descend before after) (valid : ∀ c ∈ before, c.Valid) :
    ∀ d ∈ after, d.Valid := by
  intro d member
  obtain ⟨c, old, follows⟩ := descend d member
  exact follows.valid (valid c old)

instance : Std.Refl (Descend (α := α)) where
  refl _ := fun c member => ⟨c, member, refl c⟩

instance : IsTrans (List (Candidate α)) Descend where
  trans xs ys zs first second := by
    intro d member
    obtain ⟨c, middle, later⟩ := second d member
    obtain ⟨b, old, earlier⟩ := first c middle
    exact ⟨b, old, IsTrans.trans (r := Follows) _ _ _ earlier later⟩

theorem inPlace_set {c d : Candidate α} {place : Nat} (found : before[place]? = some c)
    (follows : c.Follows d) : InPlace before (before.set place d) := by
  induction before generalizing place with
  | nil => cases found
  | cons first rest ih =>
      cases place with
      | zero =>
          cases found
          exact .cons follows (refl rest : InPlace rest rest)
      | succ place => exact .cons (refl first) (ih found)

/-- A member that is put in the place of one that it follows. -/
theorem inPlace_setNth {c d : Candidate α} {position : Int} (found : nth before position = .ok c)
    (follows : c.Follows d) (success : setNth before position d = .ok after) :
    InPlace before after := by
  unfold nth at found
  unfold setNth at success
  split at success
  · rename_i place resolved
    rw [resolved] at found
    cases success
    split at found
    · rename_i old taken
      cases found
      exact inPlace_set taken follows
    · cases found
  · cases success

end Candidate

namespace Search

variable [Source σ α]

theorem gives_repeated (low high : Int) (count : Nat) :
    Gives (Draw.repeated low high count : Draw σ (List Int)) fun genes => genes.length = count := by
  induction count with
  | zero => exact .pure rfl
  | succ count ih =>
      exact .after fun n => .bind ih fun rest length => .pure (congrArg Nat.succ length)

theorem gives_many (low high count : Int) :
    Gives (Draw.many low high count : Draw σ (List Int))
      fun genes => genes.length = count.toNat := by
  intro s genes t success
  unfold Draw.many at success
  split at success
  · cases success
  · exact gives_repeated low high count.toNat s genes t success

variable [Scalar α] {plan : Plan α} {problem : Problem α}

/-- A drawn candidate has the shape that was asked for. -/
structure Drawn (length top : Int) (c : Candidate α) : Prop where
  length : c.genes.length = length.toNat
  top : c.top = top
  valid : c.Valid

theorem gives_drawCandidate (length top : Int) :
    Gives (drawCandidate length top : Draw σ (Candidate α)) (Drawn length top) := by
  refine .bind (gives_many _ _ length) fun genes whole => .ofResult fun c built => ?_
  obtain ⟨rfl, valid⟩ := Candidate.checked_eq_ok built
  exact ⟨whole, rfl, valid⟩

theorem gives_drawCandidates (length top : Int) (count : Nat) :
    Gives (drawCandidates length top count : Draw σ (List (Candidate α)))
      fun members => ∀ c ∈ members, Drawn length top c := by
  induction count with
  | zero => exact .pure nofun
  | succ count ih =>
      refine .bind (gives_drawCandidate length top) fun c drawn => .bind ih fun others all => ?_
      exact .pure (List.forall_mem_cons.2 ⟨drawn, all⟩)

open Candidate (InPlace Survive Descend)

theorem gives_mutateRank (rate : α) (p : Population α) (rank : Int) :
    Gives (p.mutateRank rate rank : Draw σ (List Mutation × Population α))
      fun result => InPlace p.members result.2.members := by
  refine .after fun u => ?_
  split
  · refine .bind (.ofResult fun old found => found) fun old found => ?_
    refine .bind (Candidate.gives_mutate old) fun ⟨change, mutant⟩ follows => ?_
    refine .bind (.ofResult fun members set => ?_) fun members inPlace => .pure inPlace
    exact Candidate.inPlace_setNth found follows set
  · exact .pure (refl p.members : InPlace p.members p.members)

variable {wheel : Wheel σ α} {p : Population α}

theorem gives_offer (bounds : Option (Bounds α)) (parent : Candidate α) :
    Gives (offer wheel plan problem bounds p parent : Draw σ (Candidate α))
      fun next => parent.Follows next := by
  refine .after fun u => ?_
  split
  · refine .after fun other => .bind (Candidate.gives_twoPoint parent other.member) ?_
    intro child first
    refine .after fun bounds => .bind (.ofResult fun _ => Candidate.follows_evaluate) ?_
    intro scored second
    split
    · exact .pure (IsTrans.trans (r := Candidate.Follows) _ _ _ first second)
    · exact .pure (refl parent)
  · exact .pure (refl parent)

/-- Each of the parents keeps its place, or a child of the same shape takes it. -/
theorem gives_offerEach (bounds : Option (Bounds α)) (parents : List (Candidate α)) :
    Gives (offerEach wheel plan problem bounds p parents : Draw σ (List (Candidate α)))
      fun members => InPlace parents members :=
  fun _ _ _ success => (offers_of_offerEach success).imp
    fun _ _ ⟨_, _, offered⟩ => gives_offer bounds _ _ _ _ offered

omit [Source σ α] [Scalar α] in
theorem gives_copyFor (spins : Gives (wheel p) fun pick => pick.member ∈ p.members) (index : Nat) :
    Gives (copyFor wheel plan p index) fun c => c ∈ p.members := by
  unfold copyFor
  split
  · exact .ofResult fun c found => mem_of_nth found
  · exact .bind spins fun pick member => .pure member

omit [Source σ α] [Scalar α] in
theorem gives_copies (spins : Gives (wheel p) fun pick => pick.member ∈ p.members)
    (slots : List Nat) :
    Gives (copies wheel plan p slots) fun kept => ∀ c ∈ kept, c ∈ p.members := by
  intro source kept source' success c member
  obtain ⟨index, -, _, _, copied⟩ := exists_of_mem_forall₂ (copied_of_copies success) member
  exact gives_copyFor spins index _ _ _ copied

theorem gives_litter (spins : Gives (wheel p) fun pick => pick.member ∈ p.members) (pairs : Nat) :
    Gives (litter wheel p pairs) fun children => Descend p.members children := by
  induction pairs with
  | zero => exact .pure nofun
  | succ pairs ih =>
      refine .bind spins fun parent first => ?_
      refine .bind (Wheel.gives_partner spins _ _) fun other second => ?_
      refine .bind (Candidate.gives_twoPointPair _ _) fun ⟨a, b⟩ ⟨follows, follows'⟩ => ?_
      refine .bind ih fun others all => .pure ?_
      refine List.forall_mem_cons.2 ⟨⟨_, first, follows⟩, ?_⟩
      exact List.forall_mem_cons.2 ⟨⟨_, second, follows'⟩, all⟩

theorem gives_breed (spins : Gives (wheel p) fun pick => pick.member ∈ p.members) :
    Gives (breed wheel plan p) fun bred => Descend p.members bred.members := by
  refine .after fun pairs => .bind (gives_copies spins _) fun kept copied => ?_
  refine .bind (gives_litter spins _) fun children born => .pure fun d member => ?_
  rcases List.mem_append.1 member with old | new
  · exact ⟨d, copied d old, refl d⟩
  · exact born d new

end Search

end EvoSched
