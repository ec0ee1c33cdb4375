import EvoSched.Problem.Drawn
import EvoSched.Proofs.Problem.Demands
import EvoSched.Proofs.Problem.Saving
import EvoSched.Proofs.Random
import EvoSched.Proofs.Scalar.Interval

set_option autoImplicit false

namespace EvoSched

open Binary64 (clearZero)

/-- A whole number of a range as a double. -/
def IsMeasure (low high : Nat) (x : Float) : Prop :=
  ∃ n : Nat, low ≤ n ∧ n < high ∧ x = Binary64.ofInt n

/-- A double between the least and the greatest price, rounded to five decimal places. -/
def IsPrice (price : Float) : Prop :=
  ∃ x : Float, 0.001 ≤ x ∧ x ≤ 0.01 ∧ price = Decimal.roundTo 5 x

/-- Finite and above zero. -/
structure Ample (x : Float) : Prop where
  finite : Scalar.isFinite x = true
  positive : Scalar.zero < x

theorem ample_of_between {low high x : Float} (positive : Scalar.zero < low)
    (finite : Scalar.isFinite high = true) (above : low ≤ x) (below : x ≤ high) : Ample x := by
  have zero : Scalar.isFinite (Scalar.zero : Float) = true := by decide +kernel
  have reached := Scalar.lt_of_lt_of_le positive above
  exact ⟨Binary64.isFinite_of_between zero finite (LawfulScalar.le_of_pos reached) below, reached⟩

theorem Ample.acceptable {x : Float} (ample : Ample x) : acceptable x = true :=
  acceptable_iff.2 ⟨ample.finite, LawfulScalar.le_of_pos ample.positive⟩

theorem Ample.clearZero {x : Float} (ample : Ample x) : clearZero x = x :=
  Binary64.clearZero_of_other (LawfulScalar.beq_zero_of_pos ample.positive)

theorem IsMeasure.between {low high : Nat} {x : Float} (narrow : high ≤ 2 ^ 53)
    (measure : IsMeasure low high x) :
    Binary64.ofInt low ≤ x ∧ x ≤ Binary64.ofInt (high - 1 : Nat) := by
  obtain ⟨n, above, below, rfl⟩ := measure
  constructor
  · exact Binary64.ofInt_le_ofInt (by omega) above
  · exact Binary64.ofInt_le_ofInt (by omega) (by omega)

theorem IsMeasure.ample {low high : Nat} {x : Float} (narrow : high ≤ 2 ^ 53)
    (positive : Scalar.zero < Binary64.ofInt low) (measure : IsMeasure low high x) : Ample x := by
  obtain ⟨above, below⟩ := measure.between narrow
  have last : high - 1 < 2 ^ 53 := by omega
  exact ample_of_between positive (Binary64.isFinite_iff.2 (Binary64.held_ofInt last).1) above below

/-- The least and the greatest price have five decimal places themselves. -/
theorem IsPrice.between {price : Float} (drawn : IsPrice price) :
    0.001 ≤ price ∧ price ≤ 0.01 := by
  obtain ⟨x, above, below, rfl⟩ := drawn
  have least : Ample 0.001 := ⟨by decide +kernel, by decide +kernel⟩
  have greatest : Ample 0.01 := ⟨by decide +kernel, by decide +kernel⟩
  have ample := ample_of_between least.positive greatest.finite above below
  have low := Binary64.roundTo_le_roundTo 5 least.positive ample.finite above
  have high := Binary64.roundTo_le_roundTo 5 ample.positive greatest.finite below
  have least_kept : Decimal.roundTo 5 0.001 = 0.001 := by decide +kernel
  have greatest_kept : Decimal.roundTo 5 0.01 = 0.01 := by decide +kernel
  rw [least_kept] at low
  rw [greatest_kept] at high
  exact ⟨low, high⟩

theorem IsPrice.ample {price : Float} (drawn : IsPrice price) : Ample price := by
  obtain ⟨above, below⟩ := drawn.between
  exact ample_of_between (by decide +kernel) (by decide +kernel) above below

/-- A job that is accepted and that loading does not change. -/
structure Job.IsAmple (job : Job Float) : Prop where
  length : Ample job.length
  memory : Ample job.memory
  input : Ample job.input
  output : Ample job.output
  pes : job.pes = 1
  named : ∃ id, job.id = some id ∧ id ≠ ""

structure Node.IsAmple (node : Node Float) : Prop where
  capacity : Ample node.capacity
  perSecond : Ample node.perSecond
  perMemory : Ample node.perMemory
  perTransfer : Ample node.perTransfer
  named : ∃ id, node.id = some id ∧ id ≠ ""

theorem Job.IsAmple.acceptable {job : Job Float} (ample : job.IsAmple) : job.Acceptable where
  length := ample.length.acceptable
  memory := ample.memory.acceptable
  input := ample.input.acceptable
  output := ample.output.acceptable
  pes_small := by
    rw [ample.pes]
    decide +kernel
  pes_nonneg := by
    rw [ample.pes]
    decide

theorem Node.IsAmple.acceptable {node : Node Float} (ample : node.IsAmple) :
    node.Acceptable where
  capacity := ample.capacity.acceptable
  perSecond := ample.perSecond.acceptable
  perMemory := ample.perMemory.acceptable
  perTransfer := ample.perTransfer.acceptable
  some_capacity := (OrderedScalar.lt_iff.1 ample.capacity.positive).2

theorem Job.IsAmple.restored {job : Job Float} (ample : job.IsAmple) (index : Nat) :
    job.restored index = job := by
  have counted : countOr 1 job.pes = job.pes := by
    rw [ample.pes]
    rfl
  unfold Job.restored Job.label
  rw [ample.memory.clearZero, ample.input.clearZero, ample.output.clearZero, counted,
    some_labelOr ample.named]

theorem Node.IsAmple.restored {node : Node Float} (ample : node.IsAmple) (index : Nat) :
    node.restored index = node := by
  unfold Node.restored Node.label
  rw [ample.perSecond.clearZero, ample.perMemory.clearZero, ample.perTransfer.clearZero,
    some_labelOr ample.named]

theorem mapIdx_eq_self {α : Type} {f : Nat → α → α} {xs : List α}
    (kept : ∀ x ∈ xs, ∀ i, f i x = x) : xs.mapIdx f = xs := by
  rw [List.mapIdx_eq_iff]
  intro i
  cases found : xs[i]? with
  | none => rfl
  | some x => exact congrArg some (kept x (List.mem_of_getElem? found) i).symm

structure Problem.IsAmple (problem : Problem Float) : Prop where
  some_job : problem.jobs ≠ []
  some_node : problem.nodes ≠ []
  jobs : ∀ job ∈ problem.jobs, job.IsAmple
  nodes : ∀ node ∈ problem.nodes, node.IsAmple

namespace Problem.IsAmple

variable {problem : Problem Float} (ample : problem.IsAmple)
include ample

theorem accepted : problem.check = .ok () :=
  check_eq_ok_iff.2
    { some_job := ample.some_job
      some_node := ample.some_node
      jobs := fun job member => (ample.jobs job member).acceptable
      nodes := fun node member => (ample.nodes node member).acceptable }

theorem restored : problem.restored = problem := by
  unfold Problem.restored
  rw [mapIdx_eq_self fun job member => (ample.jobs job member).restored,
    mapIdx_eq_self fun node member => (ample.nodes node member).restored]

theorem writable : ∀ job ∈ problem.jobs, Decimal.isWritable job.pes = true := by
  intro job member
  rw [(ample.jobs job member).pes]
  decide

end Problem.IsAmple

/-- A job as it is drawn in place `index`. -/
structure Job.IsDrawn (index : Nat) (job : Job Float) : Prop where
  length : IsMeasure 1000 20001 job.length
  memory : IsMeasure 50 501 job.memory
  input : IsMeasure 100 1001 job.input
  output : IsMeasure 100 1001 job.output
  pes : job.pes = 1
  id : job.id = some ("job_" ++ toString index)

/-- A fog node as it is drawn in place `index` of the fog nodes. -/
structure Node.IsDrawn (index : Nat) (node : Node Float) : Prop where
  capacity : IsMeasure 500 3001 node.capacity
  perSecond : IsPrice node.perSecond
  perMemory : IsPrice node.perMemory
  perTransfer : IsPrice node.perTransfer
  id : node.id = some ("fog_" ++ toString index)

/-- As many items, each of its place's kind. -/
structure AreDrawn {β : Type} (kind : Nat → β → Prop) (count : Nat) (items : List β) : Prop where
  length : items.length = count
  each (i : Nat) (x : β) : items[i]? = some x → kind i x

/-- A problem as it is drawn: the fog nodes stand behind the cloud node. -/
structure Problem.IsDrawn (jobs fogNodes : Nat) (problem : Problem Float) : Prop where
  jobs : AreDrawn Job.IsDrawn jobs problem.jobs
  nodes : ∃ fog, problem.nodes = cloudNode :: fog ∧ AreDrawn Node.IsDrawn fogNodes fog

theorem Job.IsDrawn.isAmple {index : Nat} {job : Job Float} (drawn : job.IsDrawn index) :
    job.IsAmple where
  length := drawn.length.ample (by decide) (by decide +kernel)
  memory := drawn.memory.ample (by decide) (by decide +kernel)
  input := drawn.input.ample (by decide) (by decide +kernel)
  output := drawn.output.ample (by decide) (by decide +kernel)
  pes := drawn.pes
  named := ⟨_, drawn.id, append_ne_empty "job_" index (by decide)⟩

theorem Node.IsDrawn.isAmple {index : Nat} {node : Node Float} (drawn : node.IsDrawn index) :
    node.IsAmple where
  capacity := drawn.capacity.ample (by decide) (by decide +kernel)
  perSecond := drawn.perSecond.ample
  perMemory := drawn.perMemory.ample
  perTransfer := drawn.perTransfer.ample
  named := ⟨_, drawn.id, append_ne_empty "fog_" index (by decide)⟩

theorem isAmple_cloudNode : cloudNode.IsAmple where
  capacity := ⟨by decide +kernel, by decide +kernel⟩
  perSecond := ⟨by decide +kernel, by decide +kernel⟩
  perMemory := ⟨by decide +kernel, by decide +kernel⟩
  perTransfer := ⟨by decide +kernel, by decide +kernel⟩
  named := ⟨"cloud", rfl, by decide⟩

/-- Smaller, and cheaper in every way. -/
structure Node.CheaperThan (node other : Node Float) : Prop where
  capacity : node.capacity < other.capacity
  perSecond : node.perSecond < other.perSecond
  perMemory : node.perMemory < other.perMemory
  perTransfer : node.perTransfer < other.perTransfer

theorem Node.IsDrawn.cheaperThan_cloudNode {index : Nat} {node : Node Float}
    (drawn : node.IsDrawn index) : node.CheaperThan cloudNode where
  capacity := Scalar.lt_of_le_of_lt (drawn.capacity.between (by decide)).2 (by decide +kernel)
  perSecond := Scalar.lt_of_le_of_lt drawn.perSecond.between.2 (by decide +kernel)
  perMemory := Scalar.lt_of_le_of_lt drawn.perMemory.between.2 (by decide +kernel)
  perTransfer := Scalar.lt_of_le_of_lt drawn.perTransfer.between.2 (by decide +kernel)

namespace AreDrawn

variable {β : Type} {kind : Nat → β → Prop} {count : Nat} {items : List β}

theorem forall_mem {P : β → Prop} (drawn : AreDrawn kind count items)
    (kinds : ∀ i x, kind i x → P x) : ∀ x ∈ items, P x := by
  intro x member
  obtain ⟨i, found⟩ := List.mem_iff_getElem?.1 member
  exact kinds i x (drawn.each i x found)

/-- Items that are named after their places have different names. -/
theorem nodup_map (drawn : AreDrawn kind count items) {name : String} {id : β → Option String}
    (named : ∀ i x, kind i x → id x = some (name ++ toString i)) : (items.map id).Nodup := by
  unfold List.Nodup
  rw [List.pairwise_map, List.pairwise_iff_getElem]
  intro i j first second less same
  rw [named i _ (drawn.each i _ (List.getElem?_eq_getElem first)),
    named j _ (drawn.each j _ (List.getElem?_eq_getElem second)), Option.some_inj,
    String.append_right_inj] at same
  have places : i = j := Nat.repr_injective same
  omega

end AreDrawn

theorem yields_drawEach {σ β : Type} {item : Nat → Draw σ β} {kind : Nat → β → Prop}
    (each : ∀ i, Yields (item i) (kind i)) (index count : Nat) :
    Yields (drawEach item index count) (AreDrawn (fun i => kind (index + i)) count) := by
  induction count generalizing index with
  | zero => exact .pure ⟨rfl, nofun⟩
  | succ count ih =>
      refine .bind (each index) fun x first => .bind (ih (index + 1)) fun others later => .pure ?_
      refine ⟨congrArg (· + 1) later.length, fun i y found => ?_⟩
      cases i with
      | zero =>
          cases found
          exact first
      | succ i =>
          have meets := later.each i y found
          rwa [Nat.add_right_comm] at meets

/-- A source as drawing a problem needs it: whole numbers lie in the range that was asked for, and
what lies between the least and the greatest price is between them. -/
class PricingSource (σ : Type) [Source σ Float] : Prop where
  whole (low high : Int) : low < high →
    Yields (Draw.below low high : Draw σ Int) fun n => low ≤ n ∧ n < high
  price : Yields (Draw.between 0.001 0.01 : Draw σ Float) fun x => 0.001 ≤ x ∧ x ≤ 0.01

/-- With a unit below one, rounding does not take a price beyond the greatest one. -/
theorem price_between {u : Float} (nonneg : Scalar.zero ≤ u) (below : u < Scalar.one) :
    (0.001 : Float) ≤ 0.001 + (0.01 - 0.001) * u ∧ 0.001 + (0.01 - 0.001) * u ≤ 0.01 := by
  have zero : Scalar.isFinite (Scalar.zero : Float) = true := by decide +kernel
  have one : Scalar.isFinite (Scalar.one : Float) = true := by decide +kernel
  have last : Scalar.isFinite Binary64.belowOne = true := by decide +kernel
  have finite := Binary64.isFinite_of_between zero one nonneg (OrderedScalar.lt_iff.1 below).1
  have width : (Scalar.zero : Float) < 0.01 - 0.001 := by decide +kernel
  have finiteWidth : Scalar.isFinite (0.01 - 0.001 : Float) = true := by decide +kernel
  have low := Binary64.mul_le_mul_left width zero finite finiteWidth nonneg
  have high := Binary64.mul_le_mul_left width finite last finiteWidth
    (Binary64.le_belowOne finite below)
  have finiteLow : Scalar.isFinite ((0.01 - 0.001) * Scalar.zero : Float) = true := by
    decide +kernel
  have finiteHigh : Scalar.isFinite ((0.01 - 0.001) * Binary64.belowOne) = true := by
    decide +kernel
  have finitePart := Binary64.isFinite_of_between finiteLow finiteHigh low high
  have least : Scalar.isFinite (0.001 : Float) = true := by decide +kernel
  constructor
  · calc (0.001 : Float)
      _ ≤ 0.001 + (0.01 - 0.001) * Scalar.zero := by decide +kernel
      _ ≤ _ := Binary64.add_le_add_left finiteLow finitePart least low
  · calc (0.001 : Float) + (0.01 - 0.001) * u
      _ ≤ 0.001 + (0.01 - 0.001) * Binary64.belowOne :=
        Binary64.add_le_add_left finitePart finiteHigh least high
      _ ≤ _ := by decide +kernel

section

variable {σ : Type} [Source σ Float]

instance [LawfulSource σ Float] : PricingSource σ where
  whole _ _ room := Yields.below room
  price s := by
    obtain ⟨nonneg, below⟩ := LawfulSource.unit_mem s
    exact ⟨_, _, rfl, price_between nonneg below⟩

variable [PricingSource σ]

theorem yields_measure {low high : Nat} (room : low < high) :
    Yields (drawMeasure low high : Draw σ Float) (IsMeasure low high) := by
  refine .bind (PricingSource.whole low high (by omega)) fun n inside => .pure ?_
  exact ⟨n.toNat, by omega, by omega, by rw [Int.toNat_of_nonneg (by omega)]⟩

theorem yields_price : Yields (drawPrice : Draw σ Float) IsPrice :=
  .bind PricingSource.price fun x between => .pure ⟨x, between.1, between.2, rfl⟩

theorem yields_job (index : Nat) :
    Yields (drawJob index : Draw σ (Job Float)) (·.IsDrawn index) := by
  refine .bind (yields_measure (by decide)) fun length inside => ?_
  refine .bind (yields_measure (by decide)) fun memory inside' => ?_
  refine .bind (yields_measure (by decide)) fun input received => ?_
  refine .bind (yields_measure (by decide)) fun output sent => ?_
  exact .pure ⟨inside, inside', received, sent, rfl, rfl⟩

theorem yields_fogNode (index : Nat) :
    Yields (drawFogNode index : Draw σ (Node Float)) (·.IsDrawn index) := by
  refine .bind (yields_measure (by decide)) fun capacity inside => ?_
  refine .bind yields_price fun perSecond second => ?_
  refine .bind yields_price fun perMemory memory => ?_
  refine .bind yields_price fun perTransfer transfer => ?_
  exact .pure ⟨inside, second, memory, transfer, rfl⟩

theorem yields_drawn (jobs fogNodes : Nat) :
    Yields (Problem.drawn jobs fogNodes : Draw σ (Problem Float)) (·.IsDrawn jobs fogNodes) := by
  refine .bind (yields_drawEach yields_job 0 jobs) fun jobs drawn => ?_
  refine .bind (yields_drawEach yields_fogNode 0 fogNodes) fun fog drawn' => .pure ?_
  simp only [Nat.zero_add] at drawn drawn'
  exact ⟨drawn, fog, rfl, drawn'⟩

end

/-- A problem of so many jobs and fog nodes that is accepted, that has different ids, in which the
cloud node stands out, and that is loaded as it was saved. It can be saved wherever a file can. -/
structure Problem.IsUsable (jobs fogNodes : Nat) (problem : Problem Float) : Prop where
  jobs_length : problem.jobs.length = jobs
  nodes_length : problem.nodes.length = fogNodes + 1
  job_ids : (problem.jobs.map (·.id)).Nodup
  node_ids : (problem.nodes.map (·.id)).Nodup
  accepted : problem.check = .ok ()
  cheaper : ∃ fog, problem.nodes = cloudNode :: fog ∧ ∀ node ∈ fog, node.CheaperThan cloudNode
  saved (path : Path) (overwrite : Bool) :
    problem.save path overwrite = Workspace.save path overwrite (.document problem.toDocument)
  loaded (given : String) (overwrite : Bool) (ws ws' : Workspace) :
    problem.save (Path.ofText given) overwrite ws = .ok () ws' → load ws' given = .ok problem

namespace Problem

variable {jobs fogNodes : Nat} {problem : Problem Float}

theorem IsDrawn.isAmple (some_job : 1 ≤ jobs) (drawn : problem.IsDrawn jobs fogNodes) :
    problem.IsAmple := by
  obtain ⟨fog, shape, others⟩ := drawn.nodes
  have length := drawn.jobs.length
  constructor
  · rw [← List.length_pos_iff]
    omega
  · rw [shape]
    exact List.cons_ne_nil _ _
  · exact drawn.jobs.forall_mem fun _ _ => Job.IsDrawn.isAmple
  · rw [shape, List.forall_mem_cons]
    exact ⟨isAmple_cloudNode, others.forall_mem fun _ _ => Node.IsDrawn.isAmple⟩

/-- No fog node is called as the cloud node is. -/
theorem cloud_ne_fog (index : Nat) : "cloud" ≠ "fog_" ++ toString index := by
  intro same
  have first := congrArg (fun s : String => s.toList.head?) same
  simp at first

theorem IsDrawn.isUsable (some_job : 1 ≤ jobs) (drawn : problem.IsDrawn jobs fogNodes) :
    problem.IsUsable jobs fogNodes := by
  have ample := drawn.isAmple some_job
  obtain ⟨fog, shape, others⟩ := drawn.nodes
  have node_ids : (problem.nodes.map (·.id)).Nodup := by
    rw [shape, List.map_cons, List.nodup_cons]
    refine ⟨fun member => ?_, others.nodup_map fun _ _ => Node.IsDrawn.id⟩
    obtain ⟨node, inside, same⟩ := List.mem_map.1 member
    obtain ⟨i, found⟩ := List.mem_iff_getElem?.1 inside
    rw [(others.each i node found).id] at same
    exact cloud_ne_fog i (Option.some.inj same).symm
  exact
    { jobs_length := drawn.jobs.length
      nodes_length := by rw [shape, List.length_cons, others.length]
      job_ids := drawn.jobs.nodup_map fun _ _ => Job.IsDrawn.id
      node_ids
      accepted := ample.accepted
      cheaper := ⟨fog, shape, others.forall_mem fun _ _ => Node.IsDrawn.cheaperThan_cloudNode⟩
      saved := save_of_writable ample.writable
      loaded := fun given overwrite ws ws' success => by
        have loaded := load_of_holds (save_eq_ok success).2
        rwa [ample.restored] at loaded }

/-- From any source whose numbers lie in the ranges that it is asked for, a problem of a job or more
and of any number of fog nodes is drawn: as many jobs and one node more, with different ids, that
are accepted; each fog node is smaller than the cloud node and costs less of everything; and what is
loaded from where the problem was saved is this problem. -/
theorem drawn_is_usable {σ : Type} [Source σ Float] [PricingSource σ] (some_job : 1 ≤ jobs)
    (fogNodes : Nat) (s : σ) :
    ∃ problem t, drawn jobs fogNodes s = .ok problem t ∧ problem.IsUsable jobs fogNodes := by
  obtain ⟨problem, t, success, shape⟩ := yields_drawn jobs fogNodes s
  exact ⟨problem, t, success, shape.isUsable some_job⟩

/-- Three jobs and two fog nodes from a steady source, saved and loaded. -/
theorem drawn_trio_is_usable :
    ∃ problem t ws, drawn 3 2 (⟨⟩ : Steady Float) = .ok problem t ∧ problem.IsUsable 3 2 ∧
      problem.save (Path.ofText "p.yaml") false Workspace.bare = .ok () ws ∧
      load ws "p.yaml" = .ok problem := by
  have : LawfulSource (Steady Float) Float :=
    Steady.lawful (by decide +kernel) (by decide +kernel)
  obtain ⟨problem, t, success, usable⟩ :=
    drawn_is_usable (show 1 ≤ 3 by decide) 2 (⟨⟩ : Steady Float)
  have written := congrFun (usable.saved (Path.ofText "p.yaml") false) Workspace.bare
  exact ⟨problem, t, _, success, usable, written,
    usable.loaded "p.yaml" false Workspace.bare _ written⟩

end Problem

end EvoSched
