import EvoSched.Problem.File
import EvoSched.Proofs.Problem.Acceptance
import EvoSched.Proofs.Problem.Reading
import EvoSched.Proofs.Scalar.Zero
import EvoSched.Proofs.Workspace.Saving

set_option autoImplicit false

namespace EvoSched

open Binary64 (Same clearZero same_clearZero clearZero_clearZero)

theorem Document.toReal_orElse_real (x : Float) :
    ((real x).orElse (.whole 0)).toReal = .ok (clearZero x) := by
  unfold orElse isEmptyLike
  simp only [Binary64.ofNat_zero]
  cases found : x == Scalar.zero with
  | true =>
      rw [Binary64.clearZero_of_zero found, if_pos rfl]
      exact toReal_zero
  | false =>
      rw [Binary64.clearZero_of_other found, if_neg Bool.false_ne_true]
      rfl

/-- Processing elements as they are read: none counts as not given. -/
def countOr (default n : Int) : Int := if n = 0 then default else n

theorem Document.toWhole_orElse_whole (default n : Int) :
    ((whole n).orElse (.whole default)).toWhole = .ok (countOr default n) := by
  unfold orElse isEmptyLike countOr
  by_cases none : n = 0
  · rw [if_pos none, if_pos (beq_iff_eq.2 none)]
    rfl
  · rw [if_neg none, if_neg (by rwa [beq_iff_eq])]
    rfl

theorem idField_of_idDocument {d : Document} {id : Option String} (default : String)
    (found : d.getOrNull "id" = Job.idDocument id) :
    idField d default = .ok (labelOr default id) := by
  unfold idField
  rw [found]
  cases id with
  | none => rfl
  | some id =>
      have shown : (Document.text id).isWritable = true := rfl
      simp only [labelOr, Job.idDocument, Document.isMissing, shown, if_true, Document.shown]
      split
      · rfl
      · rfl

theorem labelOr_of_named {default id : String} (given : id ≠ "") :
    labelOr default (some id) = id := by
  have some_text : id.isEmpty = false := String.isEmpty_eq_false_iff.2 given
  rw [labelOr, some_text]
  rfl

theorem labelOr_of_unnamed {default : String} {id : Option String}
    (missing : id = none ∨ id = some "") : labelOr default id = default := by
  rcases missing with rfl | rfl
  · rfl
  · rfl

theorem some_labelOr {default : String} {id : Option String}
    (named : ∃ name, id = some name ∧ name ≠ "") : some (labelOr default id) = id := by
  obtain ⟨name, rfl, given⟩ := named
  rw [labelOr_of_named given]

theorem labelOr_ne_empty {default : String} (some_default : default ≠ "") (id : Option String) :
    labelOr default id ≠ "" := by
  by_cases named : ∃ name, id = some name ∧ name ≠ ""
  · obtain ⟨name, rfl, given⟩ := named
    rwa [labelOr_of_named given]
  · have missing : id = none ∨ id = some "" := by
      cases id with
      | none => exact .inl rfl
      | some name => exact .inr (by simpa using named)
    rwa [labelOr_of_unnamed missing]

theorem labelOr_labelOr {default : String} (some_default : default ≠ "") (id : Option String) :
    labelOr default (some (labelOr default id)) = labelOr default id :=
  labelOr_of_named (labelOr_ne_empty some_default id)

theorem append_ne_empty (name : String) (index : Nat) (given : name ≠ "") :
    name ++ toString index ≠ "" :=
  fun empty => given (String.append_eq_empty_iff.1 empty).1

/-- The job that is read where another was saved as item `index`. -/
def Job.restored (index : Nat) (job : Job Float) : Job Float :=
  ⟨job.length, clearZero job.memory, clearZero job.input, clearZero job.output, countOr 1 job.pes,
    some (job.label index)⟩

def Node.restored (index : Nat) (node : Node Float) : Node Float :=
  ⟨node.capacity, clearZero node.perSecond, clearZero node.perMemory, clearZero node.perTransfer,
    some (node.label index)⟩

theorem Job.ofDocument_toDocument (job : Job Float) (index : Nat) :
    ofDocument job.toDocument index = .ok (job.restored index) :=
  Job.ofDocument_eq_ok_iff.2
    { given := rfl
      length := rfl
      memory := Document.toReal_orElse_real job.memory
      input := Document.toReal_orElse_real job.input
      output := Document.toReal_orElse_real job.output
      pes := Document.toWhole_orElse_whole 1 job.pes
      id := ⟨_, rfl, idField_of_idDocument _ rfl⟩ }

theorem Node.ofDocument_toDocument (node : Node Float) (index : Nat) :
    ofDocument node.toDocument index = .ok (node.restored index) :=
  Node.ofDocument_eq_ok_iff.2
    { given := rfl
      capacity := rfl
      perSecond := Document.toReal_orElse_real node.perSecond
      perMemory := Document.toReal_orElse_real node.perMemory
      perTransfer := Document.toReal_orElse_real node.perTransfer
      id := ⟨_, rfl, idField_of_idDocument _ rfl⟩ }

/-- What is read of each item where it was written. -/
theorem readEach_map {α β : Type} {read : Document → Int → Except Fault β} {write : α → Document}
    {restore : Nat → α → β} (each : ∀ x (i : Nat), read (write x) i = .ok (restore i x))
    (xs : List α) : readEach read 0 (xs.map write) = .ok (xs.mapIdx restore) := by
  refine readEach_eq_ok_iff.2 ⟨by rw [List.length_mapIdx, List.length_map], fun i d found => ?_⟩
  rw [List.getElem?_map] at found
  obtain ⟨x, inside, rfl⟩ := Option.map_eq_some_iff.1 found
  refine ⟨restore i x, ?_, ?_⟩
  · rw [List.getElem?_mapIdx, inside]
    rfl
  · rw [Nat.zero_add]
    exact each x i

theorem Document.areWritable_map {α : Type} (write : α → Document) (xs : List α) :
    areWritable (xs.map write) = xs.all fun x => (write x).isWritable := by
  induction xs with
  | nil => rfl
  | cons x rest ih => rw [List.map_cons, areWritable, ih, List.all_cons]

theorem Job.isWritable_idDocument (id : Option String) : (idDocument id).isWritable = true := by
  cases id with
  | none => rfl
  | some id => rfl

theorem Job.isWritable_toDocument (job : Job Float) :
    job.toDocument.isWritable = Decimal.isWritable job.pes := by
  simp [toDocument, Document.isWritable, Document.entriesAreWritable, isWritable_idDocument]

theorem Node.isWritable_toDocument (node : Node Float) : node.toDocument.isWritable = true := by
  simp [toDocument, Document.isWritable, Document.entriesAreWritable, Job.isWritable_idDocument]

theorem isWritable_countOr {default n : Int} (fallback : Decimal.isWritable default = true)
    (writable : Decimal.isWritable n = true) : Decimal.isWritable (countOr default n) = true := by
  unfold countOr
  split
  · exact fallback
  · exact writable

theorem forall_mem_mapIdx {α β : Type} {f : Nat → α → β} {xs : List α} {P : β → Prop}
    {Q : α → Prop} (each : ∀ i x, P (f i x) ↔ Q x) :
    (∀ y ∈ xs.mapIdx f, P y) ↔ ∀ x ∈ xs, Q x := by
  constructor
  · intro all x member
    obtain ⟨i, inside, rfl⟩ := List.mem_iff_getElem.1 member
    exact (each i _).1 (all _ (List.mem_mapIdx.2 ⟨i, inside, rfl⟩))
  · intro all y member
    obtain ⟨i, inside, rfl⟩ := List.mem_mapIdx.1 member
    exact (each i _).2 (all _ (List.getElem_mem inside))

theorem acceptable_clearZero (x : Float) : acceptable (clearZero x) = acceptable x := by
  cases found : x == Scalar.zero with
  | false => rw [Binary64.clearZero_of_other found]
  | true =>
      have zero : acceptable (Scalar.zero : Float) = true := by decide +kernel
      obtain ⟨sign, shape⟩ := Binary64.beq_zero_iff.1 found
      have finite : Scalar.isFinite x = true := by
        change (Binary64.parts x).isFinite = true
        rw [shape]
        rfl
      have nonneg : ¬ x < Scalar.zero :=
        Scalar.not_lt_of_le (OrderedScalar.beq_iff.1 found).2
      rw [Binary64.clearZero_of_zero found, zero]
      simp only [acceptable, finite, nonneg, decide_false, Bool.not_false, Bool.and_self]

theorem natAbs_countOr_lt_iff (n : Int) :
    (countOr 1 n).natAbs < Binary64.overflowBound ↔ n.natAbs < Binary64.overflowBound := by
  have room : 1 < Binary64.overflowBound := by decide +kernel
  unfold countOr
  split
  · rename_i none
    rw [none]
    exact ⟨fun _ => Nat.zero_lt_of_lt room, fun _ => room⟩
  · exact Iff.rfl

theorem countOr_nonneg_iff (n : Int) : 0 ≤ countOr 1 n ↔ 0 ≤ n := by
  unfold countOr
  split <;> omega

theorem countOr_countOr (n : Int) : countOr 1 (countOr 1 n) = countOr 1 n := by
  unfold countOr
  grind

theorem Job.acceptable_restored (index : Nat) (job : Job Float) :
    (job.restored index).Acceptable ↔ job.Acceptable := by
  simp only [Job.acceptable_iff, restored, acceptable_clearZero, natAbs_countOr_lt_iff,
    countOr_nonneg_iff]

theorem Node.acceptable_restored (index : Nat) (node : Node Float) :
    (node.restored index).Acceptable ↔ node.Acceptable := by
  simp only [Node.acceptable_iff, restored, acceptable_clearZero]

/-- A job as it is loaded: its numbers stay the same numbers, and it has an id. -/
structure Job.Restores (index : Nat) (job loaded : Job Float) : Prop where
  length : Same loaded.length job.length
  memory : Same loaded.memory job.memory
  input : Same loaded.input job.input
  output : Same loaded.output job.output
  some_pes : job.pes ≠ 0 → loaded.pes = job.pes
  no_pes : job.pes = 0 → loaded.pes = 1
  named (id : String) : job.id = some id → id ≠ "" → loaded.id = some id
  unnamed : job.id = none ∨ job.id = some "" → loaded.id = some ("job_" ++ toString index)

structure Node.Restores (index : Nat) (node loaded : Node Float) : Prop where
  capacity : Same loaded.capacity node.capacity
  perSecond : Same loaded.perSecond node.perSecond
  perMemory : Same loaded.perMemory node.perMemory
  perTransfer : Same loaded.perTransfer node.perTransfer
  named (id : String) : node.id = some id → id ≠ "" → loaded.id = some id
  unnamed : node.id = none ∨ node.id = some "" → loaded.id = some ("node_" ++ toString index)

theorem Job.restores_restored (index : Nat) (job : Job Float) :
    Restores index job (job.restored index) where
  length := .refl _
  memory := same_clearZero _
  input := same_clearZero _
  output := same_clearZero _
  some_pes given := if_neg given
  no_pes none := if_pos none
  named id found given := (some_labelOr ⟨id, found, given⟩).trans found
  unnamed missing := congrArg some (labelOr_of_unnamed missing)

theorem Node.restores_restored (index : Nat) (node : Node Float) :
    Restores index node (node.restored index) where
  capacity := .refl _
  perSecond := same_clearZero _
  perMemory := same_clearZero _
  perTransfer := same_clearZero _
  named id found given := (some_labelOr ⟨id, found, given⟩).trans found
  unnamed missing := congrArg some (labelOr_of_unnamed missing)

theorem Job.restored_restored (index : Nat) (job : Job Float) :
    (job.restored index).restored index = job.restored index := by
  have named := labelOr_labelOr (append_ne_empty "job_" index (by decide)) job.id
  simp only [restored, label, clearZero_clearZero, countOr_countOr, named]

theorem Node.restored_restored (index : Nat) (node : Node Float) :
    (node.restored index).restored index = node.restored index := by
  have named := labelOr_labelOr (append_ne_empty "node_" index (by decide)) node.id
  simp only [restored, label, clearZero_clearZero, named]

namespace Problem

variable {problem : Problem Float} {path : Path} {given : String} {overwrite : Bool}
  {ws ws' : Workspace}

/-- The problem that is read where another was saved. -/
def restored (problem : Problem Float) : Problem Float :=
  ⟨problem.jobs.mapIdx Job.restored, problem.nodes.mapIdx Node.restored⟩

/-- A problem as it is loaded: job by job and node by node. -/
structure Restores (problem loaded : Problem Float) : Prop where
  jobs : loaded.jobs.length = problem.jobs.length
  job (i : Nat) (job : Job Float) : problem.jobs[i]? = some job →
    ∃ job', loaded.jobs[i]? = some job' ∧ Job.Restores i job job'
  nodes : loaded.nodes.length = problem.nodes.length
  node (i : Nat) (node : Node Float) : problem.nodes[i]? = some node →
    ∃ node', loaded.nodes[i]? = some node' ∧ Node.Restores i node node'

theorem restores_restored (problem : Problem Float) : Restores problem problem.restored where
  jobs := List.length_mapIdx
  job i job found := by
    refine ⟨job.restored i, ?_, Job.restores_restored i job⟩
    unfold restored
    rw [List.getElem?_mapIdx, found]
    rfl
  nodes := List.length_mapIdx
  node i node found := by
    refine ⟨node.restored i, ?_, Node.restores_restored i node⟩
    unfold restored
    rw [List.getElem?_mapIdx, found]
    rfl

theorem restored_restored (problem : Problem Float) :
    problem.restored.restored = problem.restored := by
  simp only [restored, List.mapIdx_mapIdx, Function.comp_def, Job.restored_restored,
    Node.restored_restored]

theorem check_restored (problem : Problem Float) :
    problem.restored.check = .ok () ↔ problem.check = .ok () := by
  rw [check_eq_ok_iff, check_eq_ok_iff]
  constructor
  · rintro ⟨some_job, some_node, jobs, nodes⟩
    refine ⟨?_, ?_, ?_, ?_⟩
    · rwa [restored, ne_eq, List.mapIdx_eq_nil_iff] at some_job
    · rwa [restored, ne_eq, List.mapIdx_eq_nil_iff] at some_node
    · exact (forall_mem_mapIdx Job.acceptable_restored).1 jobs
    · exact (forall_mem_mapIdx Node.acceptable_restored).1 nodes
  · rintro ⟨some_job, some_node, jobs, nodes⟩
    refine ⟨?_, ?_, ?_, ?_⟩
    · rwa [restored, ne_eq, List.mapIdx_eq_nil_iff]
    · rwa [restored, ne_eq, List.mapIdx_eq_nil_iff]
    · exact (forall_mem_mapIdx Job.acceptable_restored).2 jobs
    · exact (forall_mem_mapIdx Node.acceptable_restored).2 nodes

theorem isWritable_toDocument :
    problem.toDocument.isWritable = true ↔
      ∀ job ∈ problem.jobs, Decimal.isWritable job.pes = true := by
  simp [toDocument, Document.isWritable, Document.entriesAreWritable, Document.areWritable_map,
    Job.isWritable_toDocument, Node.isWritable_toDocument]

theorem save_of_writable (writable : ∀ job ∈ problem.jobs, Decimal.isWritable job.pes = true)
    (path : Path) (overwrite : Bool) :
    save path overwrite problem = Workspace.save path overwrite (.document problem.toDocument) :=
  if_pos (isWritable_toDocument.2 writable)

/-- Nothing is saved unless every whole number can be written. -/
theorem save_eq_ok (success : save path overwrite problem ws = .ok () ws') :
    (∀ job ∈ problem.jobs, Decimal.isWritable job.pes = true) ∧
      ws'.Holds path (.document problem.toDocument) := by
  unfold save at success
  split at success
  · rename_i writable
    exact ⟨isWritable_toDocument.1 writable, Workspace.holds_of_save nofun success⟩
  · obtain ⟨_, _, -, thrown⟩ := bind_eq_ok.1 success
    cases thrown

theorem writable_restored (writable : ∀ job ∈ problem.jobs, Decimal.isWritable job.pes = true) :
    ∀ job ∈ problem.restored.jobs, Decimal.isWritable job.pes = true := by
  intro job member
  obtain ⟨i, inside, rfl⟩ := List.mem_mapIdx.1 member
  exact isWritable_countOr (by decide) (writable _ (List.getElem_mem inside))

theorem load_of_holds (holds : ws.Holds (Path.ofText given) (.document problem.toDocument)) :
    load ws given = .ok problem.restored := by
  refine result_bind_eq_ok.2 ⟨_, holds.loadEntries rfl rfl, ?_⟩
  refine result_bind_eq_ok.2 ⟨problem.jobs.map Job.toDocument, rfl, ?_⟩
  refine result_bind_eq_ok.2 ⟨problem.nodes.map Node.toDocument, rfl, ?_⟩
  refine result_bind_eq_ok.2 ⟨_, readEach_map Job.ofDocument_toDocument problem.jobs, ?_⟩
  exact result_bind_eq_ok.2 ⟨_, readEach_map Node.ofDocument_toDocument problem.nodes, rfl⟩

/-- A saved problem is loaded from where it was saved, with as many jobs and nodes in their order
and with the same numbers, whichever doubles they are; only a job without processing elements is
loaded with one, and what had no id with the one of its place. Saving and loading what was loaded
changes nothing more, and it is accepted exactly if the saved problem is. A problem is saved as a
document if the counts in it can be written at all. -/
theorem saved_problem_loads (given : String) (overwrite : Bool) (problem : Problem Float) :
    ((∀ job ∈ problem.jobs, Decimal.isWritable job.pes = true) →
      save (Path.ofText given) overwrite problem =
        Workspace.save (Path.ofText given) overwrite (.document problem.toDocument)) ∧
    ∀ ws ws', save (Path.ofText given) overwrite problem ws = .ok () ws' →
      ∃ loaded, load ws' given = .ok loaded ∧ Restores problem loaded ∧
        (loaded.check = .ok () ↔ problem.check = .ok ()) ∧
        ∀ again overwrite,
          save (Path.ofText again) overwrite loaded =
            Workspace.save (Path.ofText again) overwrite (.document loaded.toDocument) ∧
          ∀ ws₁ ws₂, save (Path.ofText again) overwrite loaded ws₁ = .ok () ws₂ →
            load ws₂ again = .ok loaded := by
  refine ⟨fun writable => save_of_writable writable _ overwrite, fun ws ws' success => ?_⟩
  obtain ⟨writable, holds⟩ := save_eq_ok success
  refine ⟨problem.restored, load_of_holds holds, restores_restored problem, check_restored problem,
    fun again overwrite => ⟨?_, fun ws₁ ws₂ saved => ?_⟩⟩
  · exact save_of_writable (writable_restored writable) _ overwrite
  · have loaded := load_of_holds (save_eq_ok saved).2
    rwa [restored_restored] at loaded

/-- Numbers of all kinds, and ids that are missing or empty. -/
def motley : Problem Float where
  jobs := [⟨-0.0, -0.0, 1 / 0, 0 / 0, 0, none⟩, ⟨0 / 0, -1, 0.1, 0, -7, some ""⟩,
    ⟨5e-324, 0, 0, 0, 3, some "null"⟩]
  nodes := [⟨-1 / 0, -0.0, 0 / 0, 1, some ""⟩, ⟨0, 0, 0, 0, some "1"⟩]

/-- They are saved and loaded, the first job with a processing element and an id; saved and loaded
once more they stay as they are. -/
theorem motley_problem_loads :
    ∃ ws' loaded, save (Path.ofText "p.yaml") false motley Workspace.bare = .ok () ws' ∧
      load ws' "p.yaml" = .ok loaded ∧ Restores motley loaded ∧
      (∃ job, loaded.jobs[0]? = some job ∧ job.pes = 1 ∧ job.id = some "job_0") ∧
      ∃ ws₂, save (Path.ofText "q.yaml") false loaded Workspace.bare = .ok () ws₂ ∧
        load ws₂ "q.yaml" = .ok loaded := by
  obtain ⟨written, loads⟩ := saved_problem_loads "p.yaml" false motley
  have writable : ∀ job ∈ motley.jobs, Decimal.isWritable job.pes = true := by
    simp only [motley, List.forall_mem_cons]
    decide
  have success := congrFun (written writable) Workspace.bare
  obtain ⟨loaded, read, restores, -, again⟩ := loads Workspace.bare _ success
  obtain ⟨rewritten, reread⟩ := again "q.yaml" false
  have success' := congrFun rewritten Workspace.bare
  obtain ⟨job, first, restored⟩ := restores.job 0 _ rfl
  exact ⟨_, loaded, success, read, restores,
    ⟨job, first, restored.no_pes rfl, restored.unnamed (.inl rfl)⟩, _, success',
    reread Workspace.bare _ success'⟩

end Problem

end EvoSched
