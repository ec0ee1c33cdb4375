import EvoSched.Proofs.Problem.Saving

set_option autoImplicit false

namespace EvoSched

open Binary64 (Same same_clearZero)

namespace Document

variable {d : Document} {x : Float} {n : Int}

/-- A number with the value of `x`, given as a real or as a whole one. -/
def IsNumber (d : Document) (x : Float) : Prop :=
  (∃ y, d = .real y ∧ Same y x) ∨ ∃ n y, d = .whole n ∧ Binary64.ofInt? n = some y ∧ Same y x

/-- A text from which a number with the value of `x` is read. -/
def IsNumeral (d : Document) (x : Float) : Prop :=
  ∃ s y, d = .text s ∧ Decimal.readReal s = some y ∧ Same y x

def IsWhole (d : Document) (n : Int) : Prop := d = .whole n

def IsCount (d : Document) (n : Int) : Prop := ∃ s, d = .text s ∧ Decimal.readWhole s = .value n

theorem isNumber_of_real (x : Float) : IsNumber (.real x) x := .inl ⟨x, rfl, .refl x⟩

theorem isNumber_of_whole (near : (Binary64.ofInt? n).any (· == x) = true) :
    IsNumber (.whole n) x := by
  obtain ⟨y, found, same⟩ := (Option.any_eq_true _ _).1 near
  exact .inr ⟨n, y, rfl, found, .inl same⟩

theorem isNumeral_of_text {s : String} (near : (Decimal.readReal s).any (· == x) = true) :
    IsNumeral (.text s) x := by
  obtain ⟨y, found, same⟩ := (Option.any_eq_true _ _).1 near
  exact ⟨s, y, rfl, found, .inl same⟩

/-- What is read of `d` itself, and of `d` in a field that has a default. -/
structure Reads (d : Document) (x : Float) : Prop where
  given : d.isMissing = false
  itself : ∃ y, d.toReal = .ok y ∧ Same y x
  orZero : ∃ y, (d.orElse (.whole 0)).toReal = .ok y ∧ Same y x

theorem IsNumber.reads (number : IsNumber d x) : Reads d x := by
  rcases number with ⟨y, rfl, same⟩ | ⟨n, y, rfl, found, same⟩
  · exact ⟨rfl, ⟨y, rfl, same⟩, _, toReal_orElse_real y, (same_clearZero y).trans same⟩
  · have read : (whole n).toReal = .ok y := by
      unfold toReal
      simp only [found]
    refine ⟨rfl, ⟨y, read, same⟩, y, ?_, same⟩
    unfold orElse
    split
    · rename_i nothing
      obtain rfl : n = 0 := beq_iff_eq.1 nothing
      exact read
    · exact read

theorem orElse_text {s : String} (given : s.isEmpty = false) (default : Document) :
    (text s).orElse default = text s :=
  if_neg (ne_true_of_eq_false given)

theorem IsNumeral.reads (numeral : IsNumeral d x) : Reads d x := by
  obtain ⟨s, y, rfl, found, same⟩ := numeral
  have read : (text s).toReal = .ok y := by
    unfold toReal
    simp only [found]
  have given := given_of_toReal read
  refine ⟨given, ⟨y, read, same⟩, y, ?_, same⟩
  rw [orElse_text given]
  exact read

theorem IsWhole.toWhole (whole : IsWhole d n) :
    (d.orElse (.whole 1)).toWhole = .ok (countOr 1 n) := by
  rw [whole]
  exact toWhole_orElse_whole 1 n

theorem IsCount.toWhole (count : IsCount d n) : (d.orElse (.whole 1)).toWhole = .ok n := by
  obtain ⟨s, rfl, found⟩ := count
  have given : s.isEmpty = false := by
    rw [String.isEmpty_eq_false_iff]
    rintro rfl
    cases found
  rw [orElse_text given]
  unfold Document.toWhole
  simp only [found]

end Document

section

variable (real : Document → Float → Prop) (whole : Document → Int → Prop)

/-- A job whose values stand under their keys, where `real` and `whole` say how a number is held. -/
structure Job.Given (d : Document) (job : Job Float) : Prop where
  length : real (d.getOrNull "length") job.length
  memory : real (d.getOrNull "mem_required") job.memory
  input : real (d.getOrNull "input_size") job.input
  output : real (d.getOrNull "output_size") job.output
  pes : whole (d.getOrNull "pes") job.pes
  id : ∃ id, job.id = some id ∧ id ≠ "" ∧ d.getOrNull "id" = .text id

structure Node.Given (d : Document) (node : Node Float) : Prop where
  capacity : real (d.getOrNull "capacity") node.capacity
  perSecond : real (d.getOrNull "cost_per_second") node.perSecond
  perMemory : real (d.getOrNull "cost_per_mem") node.perMemory
  perTransfer : real (d.getOrNull "cost_per_bw") node.perTransfer
  id : ∃ id, node.id = some id ∧ id ≠ "" ∧ d.getOrNull "id" = .text id

end

/-- The same job: equal ids and counts, and the same numbers. -/
structure Job.Same (first second : Job Float) : Prop where
  length : Binary64.Same first.length second.length
  memory : Binary64.Same first.memory second.memory
  input : Binary64.Same first.input second.input
  output : Binary64.Same first.output second.output
  pes : first.pes = second.pes
  id : first.id = second.id

structure Node.Same (first second : Node Float) : Prop where
  capacity : Binary64.Same first.capacity second.capacity
  perSecond : Binary64.Same first.perSecond second.perSecond
  perMemory : Binary64.Same first.perMemory second.perMemory
  perTransfer : Binary64.Same first.perTransfer second.perTransfer
  id : first.id = second.id

theorem idField_of_given {d : Document} {id : String} (default : String) (given : id ≠ "")
    (found : d.getOrNull "id" = .text id) : idField d default = .ok id := by
  have written : d.getOrNull "id" = Job.idDocument (some id) := found
  rw [idField_of_idDocument default written, labelOr_of_named given]

section

variable {real : Document → Float → Prop} {whole : Document → Int → Prop} {d : Document}

/-- A job is read where its values are given; `seen` says what becomes of its count. -/
theorem Job.Given.ofDocument {seen : Int → Int} {job : Job Float} (given : Given real whole d job)
    (reads : ∀ d x, real d x → d.Reads x)
    (counts : ∀ d n, whole d n → (d.orElse (.whole 1)).toWhole = .ok (seen n)) (index : Int) :
    ∃ job', ofDocument d index = .ok job' ∧ Job.Same job' { job with pes := seen job.pes } := by
  obtain ⟨missing, ⟨length, first, same₁⟩, -⟩ := reads _ _ given.length
  obtain ⟨memory, second, same₂⟩ := (reads _ _ given.memory).orZero
  obtain ⟨input, third, same₃⟩ := (reads _ _ given.input).orZero
  obtain ⟨output, fourth, same₄⟩ := (reads _ _ given.output).orZero
  obtain ⟨id, named, some_text, found⟩ := given.id
  refine ⟨⟨length, memory, input, output, seen job.pes, some id⟩, ofDocument_eq_ok_iff.2 ?_,
    same₁, same₂, same₃, same₄, rfl, named.symm⟩
  exact ⟨missing, first, second, third, fourth, counts _ _ given.pes, id, rfl,
    idField_of_given _ some_text found⟩

theorem Node.Given.ofDocument {node : Node Float} (given : Given real d node)
    (reads : ∀ d x, real d x → d.Reads x) (index : Int) :
    ∃ node', ofDocument d index = .ok node' ∧ Node.Same node' node := by
  obtain ⟨missing, ⟨capacity, first, same₁⟩, -⟩ := reads _ _ given.capacity
  obtain ⟨perSecond, second, same₂⟩ := (reads _ _ given.perSecond).orZero
  obtain ⟨perMemory, third, same₃⟩ := (reads _ _ given.perMemory).orZero
  obtain ⟨perTransfer, fourth, same₄⟩ := (reads _ _ given.perTransfer).orZero
  obtain ⟨id, named, some_text, found⟩ := given.id
  refine ⟨⟨capacity, perSecond, perMemory, perTransfer, some id⟩, ofDocument_eq_ok_iff.2 ?_,
    same₁, same₂, same₃, same₄, named.symm⟩
  exact ⟨missing, first, second, third, fourth, id, rfl, idField_of_given _ some_text found⟩

end

/-- Items that are given one for one are read one for one. -/
theorem readEach_of_forall₂ {α β : Type} {read : Document → Int → Except Fault β}
    {given : Document → α → Prop} {shows : β → α → Prop}
    (each : ∀ d x, given d x → ∀ index, ∃ y, read d index = .ok y ∧ shows y x)
    {ds : List Document} {xs : List α} (all : List.Forall₂ given ds xs) (index : Nat) :
    ∃ ys, readEach read index ds = .ok ys ∧ List.Forall₂ shows ys xs := by
  induction all generalizing index with
  | nil => exact ⟨[], rfl, .nil⟩
  | cons first rest ih =>
      obtain ⟨y, read, meets⟩ := each _ _ first index
      obtain ⟨ys, remaining, meet⟩ := ih (index + 1)
      exact ⟨y :: ys, result_bind_eq_ok.2 ⟨y, read, result_bind_eq_ok.2 ⟨ys, remaining, rfl⟩⟩,
        .cons meets meet⟩

/-- Lists that both go one for one with a third are related as their items are. -/
theorem forall₂_iff_of_forall₂ {α β γ : Type} {first : α → γ → Prop} {second : β → γ → Prop}
    {rel : α → β → Prop} {holds : γ → Prop} {xs : List α} {ys : List β} {zs : List γ}
    (left : List.Forall₂ first xs zs) (right : List.Forall₂ second ys zs)
    (each : ∀ x y z, first x z → second y z → (rel x y ↔ holds z)) :
    List.Forall₂ rel xs ys ↔ ∀ z ∈ zs, holds z := by
  induction left generalizing ys with
  | nil =>
      cases right
      exact ⟨fun _ => nofun, fun _ => .nil⟩
  | cons here _ ih =>
      cases right with
      | cons there rest =>
          rw [List.forall₂_cons, List.forall_mem_cons, each _ _ _ here there, ih rest]

/-- A job as a document gives it: with a processing element if it asks for none. -/
def Job.counted (job : Job Float) : Job Float := { job with pes := countOr 1 job.pes }

/-- Of a job that asks for none, the table keeps that and the document does not. -/
theorem Job.same_iff_of_counted {first second job : Job Float} (document : Same first job.counted)
    (table : Same second job) : Same first second ↔ job.pes ≠ 0 := by
  have counts : first.pes = second.pes ↔ job.pes ≠ 0 := by
    have counted : first.pes = countOr 1 job.pes := document.pes
    rw [counted, table.pes, countOr]
    grind
  constructor
  · intro same
    exact counts.1 same.pes
  · intro some_pes
    exact
      { length := document.length.trans table.length.symm
        memory := document.memory.trans table.memory.symm
        input := document.input.trans table.input.symm
        output := document.output.trans table.output.symm
        pes := counts.2 some_pes
        id := document.id.trans table.id.symm }

theorem Node.Same.of_same {first second node : Node Float} (left : Same first node)
    (right : Same second node) : Same first second where
  capacity := left.capacity.trans right.capacity.symm
  perSecond := left.perSecond.trans right.perSecond.symm
  perMemory := left.perMemory.trans right.perMemory.symm
  perTransfer := left.perTransfer.trans right.perTransfer.symm
  id := left.id.trans right.id.symm

/-- The rows of a table hold the values of jobs as texts. -/
structure Job.InTable (jobs : List (Job Float)) (table : Table) : Prop where
  columns : table.hasColumns ["length"] = true
  rows : List.Forall₂ (Given Document.IsNumeral Document.IsCount) table.entries jobs

structure Node.InTable (nodes : List (Node Float)) (table : Table) : Prop where
  columns : table.hasColumns ["capacity"] = true
  rows : List.Forall₂ (Given Document.IsNumeral) table.entries nodes

section

variable {ws : Workspace} {path : Path} {text : String} (file : ws.Holds path (.text text))

include file

/-- The rows of a table are read one for one, if its fields can be read. -/
theorem exists_readTable {α β : Type} {read : Document → Int → Except Fault β}
    {given : Document → α → Prop} {shows : β → α → Prop} {required : List String} {xs : List α}
    (columns : (Table.ofText text).hasColumns required = true)
    (rows : List.Forall₂ given (Table.ofText text).entries xs)
    (each : ∀ d x, given d x → ∀ index, ∃ y, read d index = .ok y ∧ shows y x) :
    ∃ ys, List.Forall₂ shows ys xs ∧
      (ws.loadTable path required >>= readEach read 0) =
        if (Table.ofText text).fits then .ok ys else .error (.fieldTooLong Table.fieldLimit) := by
  obtain ⟨ys, success, shown⟩ := readEach_of_forall₂ each rows 0
  refine ⟨ys, shown, ?_⟩
  rw [file.loadTable_ofText columns]
  cases (Table.ofText text).fits with
  | false => rfl
  | true => exact success

theorem Job.exists_loadTable {jobs : List (Job Float)}
    (described : InTable jobs (Table.ofText text)) :
    ∃ loaded, List.Forall₂ Same loaded jobs ∧
      loadTable ws path = if (Table.ofText text).fits then .ok loaded
        else .error (.fieldTooLong Table.fieldLimit) := by
  refine exists_readTable file described.columns described.rows fun d job given index => ?_
  exact given.ofDocument (fun _ _ => Document.IsNumeral.reads)
    (fun _ _ => Document.IsCount.toWhole) index

theorem Node.exists_loadTable {nodes : List (Node Float)}
    (described : InTable nodes (Table.ofText text)) :
    ∃ loaded, List.Forall₂ Same loaded nodes ∧
      loadTable ws path = if (Table.ofText text).fits then .ok loaded
        else .error (.fieldTooLong Table.fieldLimit) := by
  refine exists_readTable file described.columns described.rows fun d node given index => ?_
  exact given.ofDocument (fun _ _ => Document.IsNumeral.reads) index

end

namespace Problem

variable {problem : Problem Float} {ws : Workspace} {given : String} {entry : Entry}
  {entries : List (String × Document)}

/-- The entries of a document hold the values of a problem as numbers. -/
structure InDocument (problem : Problem Float) (entries : List (String × Document)) : Prop where
  jobs : ∃ ds, entries.lookup "jobs" = some (.list ds) ∧
    List.Forall₂ (Job.Given Document.IsNumber Document.IsWhole) ds problem.jobs
  nodes : ∃ ds, entries.lookup "nodes" = some (.list ds) ∧
    List.Forall₂ (Node.Given Document.IsNumber) ds problem.nodes

theorem exists_load (file : ws.Holds (Path.ofText given) entry)
    (contains : ws.documentIn entry = .ok (some (.map entries)))
    (described : InDocument problem entries) :
    ∃ loaded, load ws given = .ok loaded ∧
      List.Forall₂ (fun job' job => Job.Same job' job.counted) loaded.jobs problem.jobs ∧
      List.Forall₂ Node.Same loaded.nodes problem.nodes := by
  obtain ⟨jobDocuments, jobsFound, jobsGiven⟩ := described.jobs
  obtain ⟨nodeDocuments, nodesFound, nodesGiven⟩ := described.nodes
  have eachJob (d : Document) (job : Job Float)
      (given : Job.Given Document.IsNumber Document.IsWhole d job) (index : Int) :=
    given.ofDocument (fun _ _ => Document.IsNumber.reads)
      (fun _ _ => Document.IsWhole.toWhole) index
  have eachNode (d : Document) (node : Node Float) (given : Node.Given Document.IsNumber d node)
      (index : Int) := given.ofDocument (fun _ _ => Document.IsNumber.reads) index
  obtain ⟨jobs, readJobs, sameJobs⟩ := readEach_of_forall₂ eachJob jobsGiven 0
  obtain ⟨nodes, readNodes, sameNodes⟩ := readEach_of_forall₂ eachNode nodesGiven 0
  refine ⟨⟨jobs, nodes⟩, ?_, sameJobs, sameNodes⟩
  refine result_bind_eq_ok.2 ⟨entries, file.loadEntries contains rfl, ?_⟩
  refine result_bind_eq_ok.2 ⟨jobDocuments, listField_eq_ok_iff.2 jobsFound, ?_⟩
  refine result_bind_eq_ok.2 ⟨nodeDocuments, listField_eq_ok_iff.2 nodesFound, ?_⟩
  exact result_bind_eq_ok.2 ⟨jobs, readJobs, result_bind_eq_ok.2 ⟨nodes, readNodes, rfl⟩⟩

/-- A problem whose values a document holds as numbers and two tables as texts is loaded from both,
unless a field of a table is too long to be read. The nodes are the same, and the jobs are the same
exactly if each of them asks for a processing element: one that asks for none keeps that in the
table, but is given one in the document, where zero counts as not given. -/
theorem formats_agree_unless_idle {jobsPath nodesPath : Path} {jobsText nodesText : String}
    (file : ws.Holds (Path.ofText given) entry)
    (contains : ws.documentIn entry = .ok (some (.map entries)))
    (described : InDocument problem entries)
    (jobsFile : ws.Holds jobsPath (.text jobsText))
    (jobRows : Job.InTable problem.jobs (Table.ofText jobsText))
    (nodesFile : ws.Holds nodesPath (.text nodesText))
    (nodeRows : Node.InTable problem.nodes (Table.ofText nodesText)) :
    ∃ loaded jobs nodes, load ws given = .ok loaded ∧
      (Job.loadTable ws jobsPath = if (Table.ofText jobsText).fits then .ok jobs
        else .error (.fieldTooLong Table.fieldLimit)) ∧
      (Node.loadTable ws nodesPath = if (Table.ofText nodesText).fits then .ok nodes
        else .error (.fieldTooLong Table.fieldLimit)) ∧
      List.Forall₂ (fun job' job => Job.Same job' job.counted) loaded.jobs problem.jobs ∧
      List.Forall₂ Job.Same jobs problem.jobs ∧ List.Forall₂ Node.Same nodes problem.nodes ∧
      List.Forall₂ Node.Same loaded.nodes nodes ∧
      (List.Forall₂ Job.Same loaded.jobs jobs ↔ ∀ job ∈ problem.jobs, job.pes ≠ 0) := by
  obtain ⟨loaded, success, counted, sameNodes⟩ := exists_load file contains described
  obtain ⟨jobs, keptJobs, jobsLoaded⟩ := Job.exists_loadTable jobsFile jobRows
  obtain ⟨nodes, keptNodes, nodesLoaded⟩ := Node.exists_loadTable nodesFile nodeRows
  have jobsAgree : List.Forall₂ Job.Same loaded.jobs jobs ↔ ∀ job ∈ problem.jobs, job.pes ≠ 0 :=
    forall₂_iff_of_forall₂ counted keptJobs fun _ _ _ => Job.same_iff_of_counted
  have nodesAgree : List.Forall₂ Node.Same loaded.nodes nodes ↔ ∀ node ∈ problem.nodes, True :=
    forall₂_iff_of_forall₂ sameNodes keptNodes fun _ _ _ first second =>
      iff_true_intro (first.of_same second)
  exact ⟨loaded, jobs, nodes, success, jobsLoaded, nodesLoaded, counted, keptJobs, keptNodes,
    nodesAgree.2 fun _ _ => trivial, jobsAgree⟩

/-- A job and a node, where the job asks for `pes` processing elements. -/
def order (pes : Int) : Problem Float where
  jobs := [⟨4000, 100, 0, 0.5, pes, some "a, \"b\""⟩]
  nodes := [⟨1000, 0.01, 0, 0, some "fog"⟩]

def orderEntries (pes : Int) : List (String × Document) := [
  ("jobs", .list [.map [("id", .text "a, \"b\""), ("length", .whole 4000),
    ("mem_required", .real 100), ("input_size", .whole 0), ("output_size", .real 0.5),
    ("pes", .whole pes)]]),
  ("nodes", .list [.map [("id", .text "fog"), ("capacity", .whole 1000),
    ("cost_per_second", .real 0.01), ("cost_per_mem", .real 0), ("cost_per_bw", .whole 0)]])]

/-- The jobs of the order, with the text of the count. -/
def orderJobs (count : String) : Table where
  header := ["id", "length", "mem_required", "input_size", "output_size", "pes"]
  rows := [["a, \"b\"", "4e3", " 100 ", "0", ".50", count]]

def orderNodes : Table where
  header := ["id", "capacity", "cost_per_second", "cost_per_mem", "cost_per_bw"]
  rows := [["fog", "1_000", "1e-2", "-0", "0.0"]]

def orderFiles (pes : Int) (count : String) : Workspace where
  entries := [(["order.yaml"], .document (.map (orderEntries pes))),
    (["jobs.csv"], .text (orderJobs count).text), (["nodes.csv"], .text orderNodes.text)]
  parse _ := none

section

variable {pes : Int} {count : String}

theorem inDocument_order : InDocument (order pes) (orderEntries pes) := by
  have zero : Document.IsNumber (.whole 0) 0 := Document.isNumber_of_whole (by decide +kernel)
  have length : Document.IsNumber (.whole 4000) 4000 :=
    Document.isNumber_of_whole (by decide +kernel)
  have capacity : Document.IsNumber (.whole 1000) 1000 :=
    Document.isNumber_of_whole (by decide +kernel)
  have real := Document.isNumber_of_real
  refine ⟨⟨_, rfl, .cons ?_ .nil⟩, ⟨_, rfl, .cons ?_ .nil⟩⟩
  · exact ⟨length, real 100, zero, real 0.5, rfl, _, rfl, by decide, rfl⟩
  · exact ⟨capacity, real 0.01, real 0, zero, _, rfl, by decide, rfl⟩

theorem jobsInTable_order (read : Decimal.readWhole count = .value pes) :
    Job.InTable (order pes).jobs (Table.ofText (orderJobs count).text) := by
  have length : Document.IsNumeral (.text "4e3") 4000 :=
    Document.isNumeral_of_text (by decide +kernel)
  have memory : Document.IsNumeral (.text " 100 ") 100 :=
    Document.isNumeral_of_text (by decide +kernel)
  have input : Document.IsNumeral (.text "0") 0 := Document.isNumeral_of_text (by decide +kernel)
  have output : Document.IsNumeral (.text ".50") 0.5 :=
    Document.isNumeral_of_text (by decide +kernel)
  rw [Table.ofText_text (by simp [orderJobs])]
  refine ⟨rfl, .cons ?_ .nil⟩
  exact ⟨length, memory, input, output, ⟨count, rfl, read⟩, _, rfl, by decide, rfl⟩

theorem nodesInTable_order :
    Node.InTable (order pes).nodes (Table.ofText orderNodes.text) := by
  have capacity : Document.IsNumeral (.text "1_000") 1000 :=
    Document.isNumeral_of_text (by decide +kernel)
  have perSecond : Document.IsNumeral (.text "1e-2") 0.01 :=
    Document.isNumeral_of_text (by decide +kernel)
  have perMemory : Document.IsNumeral (.text "-0") 0 :=
    Document.isNumeral_of_text (by decide +kernel)
  have perTransfer : Document.IsNumeral (.text "0.0") 0 :=
    Document.isNumeral_of_text (by decide +kernel)
  rw [Table.ofText_text (by simp [orderNodes])]
  refine ⟨rfl, .cons ?_ .nil⟩
  exact ⟨capacity, perSecond, perMemory, perTransfer, _, rfl, by decide, rfl⟩

theorem holds_order :
    (orderFiles pes count).Holds (Path.ofText "order.yaml")
        (.document (.map (orderEntries pes))) ∧
      (orderFiles pes count).Holds (Path.ofText "jobs.csv") (.text (orderJobs count).text) ∧
      (orderFiles pes count).Holds (Path.ofText "nodes.csv") (.text orderNodes.text) :=
  ⟨⟨["order.yaml"], by rfl, by rfl⟩, ⟨["jobs.csv"], by rfl, by rfl⟩,
    ⟨["nodes.csv"], by rfl, by rfl⟩⟩

end

/-- The order is loaded as the same problem from both formats. -/
theorem order_formats_agree :
    ∃ loaded jobs nodes, load (orderFiles 2 " +2") "order.yaml" = .ok loaded ∧
      Job.loadTable (orderFiles 2 " +2") (Path.ofText "jobs.csv") = .ok jobs ∧
      Node.loadTable (orderFiles 2 " +2") (Path.ofText "nodes.csv") = .ok nodes ∧
      List.Forall₂ Job.Same loaded.jobs jobs ∧ List.Forall₂ Node.Same loaded.nodes nodes := by
  obtain ⟨document, jobsFile, nodesFile⟩ := @holds_order 2 " +2"
  have jobsFit : (Table.ofText (orderJobs " +2").text).fits = true := by decide +kernel
  have nodesFit : (Table.ofText orderNodes.text).fits = true := by decide +kernel
  obtain ⟨loaded, jobs, nodes, success, jobsLoaded, nodesLoaded, -, -, -, sameNodes, sameJobs⟩ :=
    formats_agree_unless_idle document rfl inDocument_order jobsFile
      (jobsInTable_order (by decide +kernel)) nodesFile nodesInTable_order
  rw [if_pos jobsFit] at jobsLoaded
  rw [if_pos nodesFit] at nodesLoaded
  have busy : ∀ job ∈ (order 2).jobs, job.pes ≠ 0 := by simp [order]
  exact ⟨loaded, jobs, nodes, success, jobsLoaded, nodesLoaded, sameJobs.2 busy, sameNodes⟩

/-- With no processing element asked for, the document asks for one and the table for none. -/
theorem idle_order_formats_differ :
    InDocument (order 0) (orderEntries 0) ∧
      Job.InTable (order 0).jobs (Table.ofText (orderJobs "0").text) ∧
      Node.InTable (order 0).nodes (Table.ofText orderNodes.text) ∧
      ∃ loaded jobs, load (orderFiles 0 "0") "order.yaml" = .ok loaded ∧
        Job.loadTable (orderFiles 0 "0") (Path.ofText "jobs.csv") = .ok jobs ∧
        loaded.jobs.map (·.pes) = [1] ∧ jobs.map (·.pes) = [0] := by
  obtain ⟨document, jobsFile, -⟩ := @holds_order 0 "0"
  have rows := @jobsInTable_order 0 "0" (by decide +kernel)
  obtain ⟨⟨loaded, nodes⟩, success, counted, -⟩ := exists_load document rfl inDocument_order
  obtain ⟨jobs, kept, jobsLoaded⟩ := Job.exists_loadTable jobsFile rows
  have fits : (Table.ofText (orderJobs "0").text).fits = true := by decide +kernel
  rw [if_pos fits] at jobsLoaded
  refine ⟨inDocument_order, rows, nodesInTable_order, _, jobs, success, jobsLoaded, ?_, ?_⟩
  · cases counted with
    | cons same rest =>
        cases rest
        exact congrArg (· :: []) same.pes
  · cases kept with
    | cons same rest =>
        cases rest
        exact congrArg (· :: []) same.pes

end Problem

end EvoSched
