import EvoSched.Assignment
import EvoSched.Proofs.Cost.Outcome
import EvoSched.Proofs.Decimal.Length
import EvoSched.Proofs.Search.Pool
import EvoSched.Proofs.Workspace.Saving

set_option autoImplicit false

namespace EvoSched

/-- The labels of all jobs and nodes, as tables show them. -/
def Problem.labels {α : Type} (problem : Problem α) : List String :=
  (problem.jobs.mapIdx fun i job => job.label i) ++ problem.nodes.mapIdx fun k node => node.label k

theorem Problem.label_mem_of_job {α : Type} {problem : Problem α} {i : Nat} {job : Job α}
    (found : problem.jobs[i]? = some job) : job.label i ∈ problem.labels := by
  refine List.mem_append_left _ (List.mem_of_getElem? (i := i) ?_)
  rw [List.getElem?_mapIdx, found]
  rfl

theorem Problem.label_mem_of_node {α : Type} {problem : Problem α} {k : Nat} {node : Node α}
    (found : problem.nodes[k]? = some node) : node.label k ∈ problem.labels := by
  refine List.mem_append_right _ (List.mem_of_getElem? (i := k) ?_)
  rw [List.getElem?_mapIdx, found]
  rfl

namespace Assignment

variable {problem : Problem Float} {genes : List Int} {lines : List (List String)}
  {ws ws' : Workspace} {path : Path}

/-- The row of a job on the node at `place`. -/
def cells (job : Job Float) (index : Nat) (node : Node Float) (place : Nat) (cost : Float) :
    List String :=
  [job.label index, toString place, node.label place, Scalar.text job.length, Scalar.fixed 10 cost]

theorem row_eq_ok {index place : Nat} {line : List String}
    (success : row problem index (place : Int) = .ok line) :
    ∃ job node cost, problem.jobs[index]? = some job ∧ problem.nodes[place]? = some node ∧
      line = cells job index node place cost := by
  obtain ⟨job, asked, rest⟩ := result_bind_eq_ok.1 success
  obtain ⟨node, given, rest⟩ := result_bind_eq_ok.1 rest
  obtain ⟨cost, -, same⟩ := result_bind_eq_ok.1 rest
  cases same
  exact ⟨job, node, cost, getElem?_of_nth asked, getElem?_of_nth given, rfl⟩

/-- Where no row faults, there is one for each gene. -/
theorem rows_eq_ok {index : Nat} (complete : rows problem index genes = (lines, none)) :
    lines.length = genes.length ∧
      ∀ (i : Nat) (line : List String), lines[i]? = some line →
        ∃ gene, genes[i]? = some gene ∧ row problem (index + i) gene = .ok line := by
  induction genes generalizing index lines with
  | nil =>
      cases complete
      exact ⟨rfl, nofun⟩
  | cons gene rest ih =>
      rw [rows] at complete
      split at complete
      · cases complete
      · rename_i line made
        cases later : rows problem (index + 1) rest with
        | mk others fault =>
            rw [later] at complete
            cases complete
            obtain ⟨length, each⟩ := ih later
            refine ⟨congrArg Nat.succ length, fun i other found => ?_⟩
            cases i with
            | zero =>
                cases found
                exact ⟨gene, rfl, made⟩
            | succ i =>
                obtain ⟨gene', taken, made'⟩ := each i other found
                refine ⟨gene', taken, ?_⟩
                rwa [Nat.add_right_comm] at made'

theorem row_ok {index place : Nat} {job : Job Float} {node : Node Float}
    (asked : problem.jobs[index]? = some job) (given : problem.nodes[place]? = some node)
    (room : (node.capacity == Scalar.zero) = false) :
    row problem index (place : Int) = .ok (cells job index node place (node.charge job)) := by
  obtain ⟨inside, rfl⟩ := List.getElem?_eq_some_iff.1 asked
  obtain ⟨within, rfl⟩ := List.getElem?_eq_some_iff.1 given
  have charged : problem.nodes[place].charge? problem.jobs[index] =
      .ok (problem.nodes[place].charge problem.jobs[index]) := by
    rw [Node.charge?, room]
    rfl
  exact result_bind_eq_ok.2 ⟨_, nth_natCast problem.jobs index inside,
    result_bind_eq_ok.2 ⟨_, nth_natCast problem.nodes place within,
      result_bind_eq_ok.2 ⟨_, charged, rfl⟩⟩⟩

theorem row_of_free {index place : Nat} {job : Job Float} {node : Node Float}
    (asked : problem.jobs[index]? = some job) (given : problem.nodes[place]? = some node)
    (free : (node.capacity == Scalar.zero) = true) :
    row problem index (place : Int) = .error .divisionByZero := by
  obtain ⟨inside, rfl⟩ := List.getElem?_eq_some_iff.1 asked
  obtain ⟨within, rfl⟩ := List.getElem?_eq_some_iff.1 given
  exact result_bind_eq_error.2 (.inr ⟨_, nth_natCast problem.jobs index inside,
    result_bind_eq_error.2 (.inr ⟨_, nth_natCast problem.nodes place within,
      result_bind_eq_error.2 (.inl (if_pos free))⟩)⟩)

theorem exists_rows {index : Nat} (each : ∀ (i : Nat) (gene : Int), genes[i]? = some gene →
    ∃ line, row problem (index + i) gene = .ok line) :
    ∃ lines, rows problem index genes = (lines, none) := by
  induction genes generalizing index with
  | nil => exact ⟨[], rfl⟩
  | cons gene rest ih =>
      obtain ⟨line, made⟩ := each 0 gene rfl
      have others : ∀ (i : Nat) (gene : Int), rest[i]? = some gene →
          ∃ line, row problem (index + 1 + i) gene = .ok line := by
        intro i gene found
        rw [Nat.add_right_comm]
        exact each (i + 1) gene found
      obtain ⟨lines, complete⟩ := ih others
      rw [Nat.add_zero] at made
      refine ⟨line :: lines, ?_⟩
      rw [rows]
      simp only [made, complete]

/-- No gene names a node without capacity, where no charge can be worked out. -/
def Charged (problem : Problem Float) (genes : List Int) : Prop :=
  ∀ gene ∈ genes, ∀ node ∈ problem.nodes[gene.toNat]?, (node.capacity == Scalar.zero) = false

theorem exists_rows_of_charged (assigns : problem.Assigns genes) (charged : Charged problem genes) :
    ∃ lines, rows problem 0 genes = (lines, none) := by
  refine exists_rows fun i gene found => ?_
  have member := List.mem_of_getElem? found
  obtain ⟨low, high⟩ := assigns.named gene member
  obtain ⟨place, rfl⟩ := Int.eq_ofNat_of_zero_le low
  have inside : i < problem.jobs.length :=
    assigns.length ▸ (List.getElem?_eq_some_iff.1 found).1
  have given := List.getElem?_eq_getElem (Int.ofNat_lt.1 high)
  rw [Nat.zero_add]
  exact ⟨_, row_ok (List.getElem?_eq_getElem inside) given (charged _ member _ given)⟩

/-- A row shows the label of job `i`, its gene and the label of the node that the gene names. -/
def Shows (problem : Problem Float) (genes : List Int) (i : Nat) (job : Job Float)
    (row : Document) : Prop :=
  ∃ (place : Nat) (node : Node Float), genes[i]? = some (place : Int) ∧
    problem.nodes[place]? = some node ∧
    row.getOrNull "job_id" = .text (job.label i) ∧
    row.getOrNull "node_index" = .text (toString place) ∧
    row.getOrNull "node_id" = .text (node.label place)

/-- A complete table of an assignment that names nodes. -/
structure Lists (problem : Problem Float) (genes : List Int) (lines : List (List String)) :
    Prop where
  length : lines.length = genes.length
  each (i : Nat) (line : List String) : lines[i]? = some line →
    ∃ (job : Job Float) (place : Nat) (node : Node Float) (cost : Float),
      problem.jobs[i]? = some job ∧ genes[i]? = some (place : Int) ∧
        problem.nodes[place]? = some node ∧ line = cells job i node place cost

theorem lists_of_rows (complete : rows problem 0 genes = (lines, none))
    (named : ∀ gene ∈ genes, 0 ≤ gene) : Lists problem genes lines := by
  obtain ⟨length, each⟩ := rows_eq_ok complete
  refine ⟨length, fun i line found => ?_⟩
  obtain ⟨gene, taken, made⟩ := each i line found
  obtain ⟨place, rfl⟩ := Int.eq_ofNat_of_zero_le (named gene (List.mem_of_getElem? taken))
  rw [Nat.zero_add] at made
  obtain ⟨job, node, cost, asked, given, same⟩ := row_eq_ok made
  exact ⟨job, place, node, cost, asked, taken, given, same⟩

def table (lines : List (List String)) : Table := ⟨columns, lines⟩

theorem save_eq {overwrite : Bool} (complete : rows problem 0 genes = (lines, none)) :
    save path overwrite problem genes = Workspace.saveTable path overwrite (table lines) := by
  unfold save
  rw [complete]
  exact Workspace.saveRows_of_complete

/-- An assignment is saved if all its rows could be made. -/
theorem save_eq_ok {overwrite : Bool}
    (success : save path overwrite problem genes ws = .ok () ws') :
    ∃ lines, rows problem 0 genes = (lines, none) ∧
      ws'.Holds path (.text (table lines).text) :=
  Workspace.saveRows_eq_ok success

namespace Lists

variable (lists : Lists problem genes lines)

include lists

theorem full : ∀ line ∈ lines, line ≠ [] := by
  intro line member
  obtain ⟨i, found⟩ := List.mem_iff_getElem?.1 member
  obtain ⟨job, place, node, cost, -, -, -, rfl⟩ := lists.each i line found
  exact List.cons_ne_nil _ _

/-- All fields are short, if the labels are and each index of a node has few enough digits to be
read. -/
theorem readable (short : ∀ label ∈ problem.labels, label.length ≤ Table.fieldLimit)
    (few : problem.nodes.length ≤ 10 ^ Decimal.maxDigits) :
    ∀ line ∈ columns :: lines, Table.isReadable line = true := by
  intro line member
  rcases List.mem_cons.1 member with rfl | inside
  · decide
  · obtain ⟨i, found⟩ := List.mem_iff_getElem?.1 inside
    obtain ⟨job, place, node, cost, asked, -, given, rfl⟩ := lists.each i line found
    have below := (List.getElem?_eq_some_iff.1 given).1.trans_le few
    have wide := Binary64.digitLimit_eq
    have number := Decimal.length_toString_le (by decide : 0 < Decimal.maxDigits) below
    have length : (Decimal.shortest job.length).length ≤ Table.fieldLimit := by
      have := Decimal.length_shortest_le job.length
      unfold Table.fieldLimit
      omega
    have charge : (Decimal.fixed 10 cost).length ≤ Table.fieldLimit := by
      have := Decimal.length_fixed_le 10 cost
      unfold Table.fieldLimit
      omega
    have index : (toString place).length ≤ Table.fieldLimit :=
      number.trans (by decide)
    simp only [Table.isReadable, cells, List.all_cons, List.all_nil, Bool.and_true,
      Bool.and_eq_true, decide_eq_true_eq]
    exact ⟨short _ (Problem.label_mem_of_job asked), index,
      short _ (Problem.label_mem_of_node given), length, charge⟩

/-- Each job has its row. -/
theorem entry {i : Nat} {job : Job Float} (asked : problem.jobs[i]? = some job)
    (within : i < genes.length) :
    ∃ row, (table lines).entries[i]? = some row ∧ Shows problem genes i job row := by
  have distinct : columns.Nodup := by decide
  have inside : i < lines.length := lists.length ▸ within
  have found := List.getElem?_eq_getElem inside
  obtain ⟨job', place, node, cost, asked', taken, given, same⟩ := lists.each i _ found
  obtain rfl : job = job' := Option.some.inj (asked.symm.trans asked')
  rw [same] at found
  refine ⟨Table.entry columns (cells job i node place cost), ?_, place, node, taken, given, ?_, ?_,
    ?_⟩
  · exact (List.getElem?_map ..).trans (congrArg (Option.map (Table.entry columns)) found)
  · exact Table.getOrNull_entry distinct (i := 0) rfl rfl
  · exact Table.getOrNull_entry distinct (i := 1) rfl rfl
  · exact Table.getOrNull_entry distinct (i := 2) rfl rfl

/-- The genes can be read from their column. -/
theorem mapM_genes (few : problem.nodes.length ≤ 10 ^ Decimal.maxDigits) :
    ((table lines).entries.map (·.getOrNull "node_index")).mapM Document.toWhole = .ok genes := by
  have distinct : columns.Nodup := by decide
  rw [mapM_eq_ok_iff, List.forall₂_map_left_iff]
  change List.Forall₂ _ (lines.map (Table.entry columns)) genes
  rw [List.forall₂_map_left_iff, List.forall₂_iff_get]
  refine ⟨lists.length, fun i inside within => ?_⟩
  obtain ⟨job, place, node, cost, -, taken, given, same⟩ :=
    lists.each i _ (List.getElem?_eq_getElem inside)
  have gene : genes.get ⟨i, within⟩ = (place : Int) :=
    Option.some.inj ((List.getElem?_eq_getElem within).symm.trans taken)
  have cell : (Table.entry columns lines[i]).getOrNull "node_index" = .text (toString place) := by
    rw [same]
    exact Table.getOrNull_entry distinct (i := 1) rfl rfl
  have below := (List.getElem?_eq_some_iff.1 given).1.trans_le few
  change Document.toWhole ((Table.entry columns lines[i]).getOrNull "node_index") = _
  have whole : toString place = toString (place : Int) := rfl
  rw [cell, gene, whole]
  exact Document.toWhole_toString (Decimal.isWritable_natCast.2 below)

/-- All rows of a saved assignment can be loaded. -/
theorem loadTable (holds : ws.Holds path (.text (table lines).text))
    (short : ∀ label ∈ problem.labels, label.length ≤ Table.fieldLimit)
    (few : problem.nodes.length ≤ 10 ^ Decimal.maxDigits) :
    ws.loadTable path ["node_index"] = .ok (table lines).entries :=
  holds.loadTable lists.full (by decide : ["node_index"].all columns.contains = true)
    (lists.readable short few)

/-- A saved assignment is loaded with its genes. -/
theorem load {α : Type} [Scalar α] (holds : ws.Holds path (.text (table lines).text))
    (short : ∀ label ∈ problem.labels, label.length ≤ Table.fieldLimit)
    (few : problem.nodes.length ≤ 10 ^ Decimal.maxDigits) {top : Int}
    (named : ∀ gene ∈ genes, inRange top gene = true) :
    Assignment.load ws path top = .ok (Candidate.fresh genes top : Candidate α) := by
  have passed : firstFailing (inRange top) 0 genes = none := firstFailing_eq_none_iff.2 named
  unfold Assignment.load
  rw [lists.loadTable holds short few]
  change Candidate.ofDocuments _ top _ _ _ = _
  unfold Candidate.ofDocuments
  rw [lists.mapM_genes few]
  change Candidate.checked (Candidate.fresh genes top) = _
  unfold Candidate.checked Candidate.fresh
  simp only [passed]

theorem length_entries : (table lines).entries.length = genes.length :=
  (List.length_map _).trans lists.length

end Lists

/-- The path leads to the assignment: to its genes, and row by row to the labels of its jobs and of
the nodes they are on. -/
structure Loads (problem : Problem Float) (c : Candidate Float) (path : Path) (ws : Workspace) :
    Prop where
  genes : load ws path c.top = .ok (Candidate.fresh c.genes c.top : Candidate Float)
  jobs : ∃ rows, ws.loadTable path ["node_index"] = .ok rows ∧
    rows.length = problem.jobs.length ∧
    ∀ (i : Nat) (job : Job Float), problem.jobs[i]? = some job →
      ∃ row, rows[i]? = some row ∧ Shows problem c.genes i job row

theorem loads_of_holds {c : Candidate Float} (lists : Lists problem c.genes lines)
    (valid : c.Valid) (assigns : problem.Assigns c.genes)
    (short : ∀ label ∈ problem.labels, label.length ≤ Table.fieldLimit)
    (few : problem.nodes.length ≤ 10 ^ Decimal.maxDigits)
    (holds : ws.Holds path (.text (table lines).text)) : Loads problem c path ws where
  genes := lists.load holds short few valid
  jobs := by
    refine ⟨_, lists.loadTable holds short few, lists.length_entries.trans assigns.length,
      fun i job asked => lists.entry asked ?_⟩
    rw [assigns.length]
    exact (List.getElem?_eq_some_iff.1 asked).1

/-- An assignment that uses no node without capacity has all its rows, so that saving it is saving
their table. Wherever that is done the assignment is loaded as it was, unevaluated, whatever
characters the labels of jobs and nodes are made of, as long as none of them is longer than a field
that can be read. -/
theorem saved_assignment_loads {c : Candidate Float} (valid : c.Valid)
    (assigns : problem.Assigns c.genes) (charged : Charged problem c.genes)
    (short : ∀ label ∈ problem.labels, label.length ≤ Table.fieldLimit)
    (few : problem.nodes.length ≤ 10 ^ Decimal.maxDigits) (path : Path) (overwrite : Bool) :
    ∃ lines, rows problem 0 c.genes = (lines, none) ∧
      save path overwrite problem c.genes =
        Workspace.saveTable path overwrite (table lines) ∧
      ∀ ws ws', save path overwrite problem c.genes ws = .ok () ws' →
        Loads problem c path ws' := by
  obtain ⟨lines, complete⟩ := exists_rows_of_charged assigns charged
  have lists := lists_of_rows complete fun gene member => (assigns.named gene member).1
  have saved : save path overwrite problem c.genes =
      Workspace.saveTable path overwrite (table lines) := save_eq complete
  refine ⟨lines, complete, saved, fun ws ws' success => ?_⟩
  rw [saved] at success
  exact loads_of_holds lists valid assigns short few (Workspace.holds_of_save nofun success)

/-- Two jobs on three nodes, with labels of commas, quotes, line ends and letters of many kinds. -/
def tangled : Problem Float where
  jobs := [⟨2, 0, 0, 0, 1, some "first, \"größte\"\r\n"⟩, ⟨1, 1, 0.5, 0, 1, some ""⟩]
  nodes := [⟨4, 1, 0, 0, none⟩, ⟨0, 1, 0, 0, some "nowhere"⟩, ⟨3, 0.1, 1, 2, some "\"\n,棚\r"⟩]

/-- Both jobs are loaded on the node that they were saved on. That nothing can be charged for on a
node which they do not use is no obstacle. -/
theorem tangled_assignment_loads :
    (∃ ws', save (Path.ofText "best.csv") false tangled [2, 0] Workspace.bare = .ok () ws') ∧
    ∀ ws', save (Path.ofText "best.csv") false tangled [2, 0] Workspace.bare = .ok () ws' →
      Loads tangled (Candidate.fresh [2, 0] 2) (Path.ofText "best.csv") ws' := by
  have valid : (Candidate.fresh [2, 0] 2 : Candidate Float).Valid :=
    show ∀ gene ∈ [2, 0], inRange 2 gene = true by decide
  have assigns : tangled.Assigns [2, 0] := ⟨rfl, by decide⟩
  have charged : Charged tangled [2, 0] := by
    unfold Charged
    decide +kernel
  have short : ∀ label ∈ tangled.labels, label.length ≤ Table.fieldLimit := by decide
  have few : tangled.nodes.length ≤ 10 ^ Decimal.maxDigits := by decide +kernel
  obtain ⟨lines, -, saved, loads⟩ := saved_assignment_loads (c := Candidate.fresh [2, 0] 2) valid
    assigns charged short few (Path.ofText "best.csv") false
  have written := congrFun saved Workspace.bare
  exact ⟨⟨_, written⟩, loads Workspace.bare⟩

/-- A job on a node without capacity. -/
def stranded : Problem Float := ⟨[⟨1, 0, 0, 0, 1, none⟩], [⟨0, 0, 0, 0, none⟩]⟩

/-- Saving it breaks off, and what is left behind is a table without rows, which is loaded as
another assignment. -/
theorem stranded_assignment_is_lost :
    stranded.Assigns [0] ∧ (∀ label ∈ stranded.labels, label.length ≤ Table.fieldLimit) ∧
    ∃ ws', save (Path.ofText "a.csv") false stranded [0] Workspace.bare =
        .error .divisionByZero ws' ∧
      load ws' (Path.ofText "a.csv") 0 = .ok (Candidate.fresh [] 0 : Candidate Float) ∧
      (Candidate.fresh [] 0 : Candidate Float).genes ≠ [0] := by
  have assigns : stranded.Assigns [0] := ⟨rfl, by decide⟩
  have short : ∀ label ∈ stranded.labels, label.length ≤ Table.fieldLimit := by decide
  have few : stranded.nodes.length ≤ 10 ^ Decimal.maxDigits := by decide +kernel
  have broken : rows stranded 0 [0] = ([], some .divisionByZero) := by
    have faults : row stranded 0 (0 : Nat) = .error .divisionByZero :=
      row_of_free rfl rfl (by decide +kernel)
    rw [Nat.cast_zero] at faults
    rw [rows, faults]
  obtain ⟨ws', saved⟩ : ∃ ws', Workspace.saveTable (Path.ofText "a.csv") false (table [])
      Workspace.bare = .ok () ws' := ⟨_, rfl⟩
  have nothing : Lists stranded [] [] := ⟨rfl, nofun⟩
  have holds : ws'.Holds _ (.text (table []).text) := Workspace.holds_of_save nofun saved
  refine ⟨assigns, short, ws', ?_, nothing.load holds short few nofun, by decide⟩
  unfold save
  rw [broken]
  exact Workspace.saveRows_of_fault saved

end Assignment

end EvoSched
