import EvoSched.Problem.File
import EvoSched.Proofs.Problem.Reading
import EvoSched.Proofs.Workspace.Saving

set_option autoImplicit false

namespace EvoSched

namespace Document

variable {d : Document} {key : String} {fault : Fault}

/-- Values without members, in which nothing can be looked up. -/
def isScalar : Document → Bool
  | null | truth _ | whole _ | real _ => true
  | _ => false

/-- Looking up a key ends with a fault. -/
inductive Baffles (key : String) : Document → Fault → Prop where
  | scalar {d : Document} (plain : d.isScalar = true) : Baffles key d (.notIterable d.kind)
  | text {s : String} (occurs : key.toList <:+: s.toList) : Baffles key (.text s) .textIndex
  | list {items : List Document} (inside : Document.text key ∈ items) :
      Baffles key (.list items) .listIndex

theorem occursIn_iff (part cs : List Char) : occursIn part cs = true ↔ part <:+: cs := by
  induction cs with
  | nil => rw [occursIn, List.isEmpty_iff, List.infix_nil]
  | cons c rest ih =>
      rw [occursIn, Bool.or_eq_true, List.isPrefixOf_iff_prefix, ih, List.infix_cons_iff]

theorem field?_eq_error_iff : d.field? key = .error fault ↔ Baffles key d fault := by
  constructor
  · intro failed
    cases d with
    | map entries =>
        rw [field?_map] at failed
        cases failed
    | text s =>
        rw [field?_text] at failed
        split at failed
        · rename_i occurs
          cases failed
          exact .text ((occursIn_iff _ _).1 occurs)
        · cases failed
    | list items =>
        by_cases inside : Document.text key ∈ items
        · rw [field?_list_of_mem inside] at failed
          cases failed
          exact .list inside
        · rw [field?_list_of_not_mem inside] at failed
          cases failed
    | null => cases failed; exact .scalar rfl
    | truth b => cases failed; exact .scalar rfl
    | whole n => cases failed; exact .scalar rfl
    | real x => cases failed; exact .scalar rfl
  · rintro (plain | occurs | inside)
    · cases d with
      | text s => cases plain
      | list items => cases plain
      | map entries => cases plain
      | _ => rfl
    · rw [field?_text, if_pos ((occursIn_iff _ _).2 occurs)]
    · exact field?_list_of_mem inside

/-- Only a whole number that no double comes near is not reported as no number. -/
theorem toReal_eq_error_iff (stray : ∀ why, fault ≠ .unreadable why) :
    d.toReal = .error fault ↔
      ∃ n, d = .whole n ∧ Binary64.overflowBound ≤ n.natAbs ∧ fault = .tooLarge := by
  constructor
  · intro failed
    unfold toReal at failed
    split at failed
    · cases failed
    · rename_i n
      split at failed
      · cases failed
      · rename_i huge
        cases failed
        refine ⟨n, rfl, ?_, rfl⟩
        by_contra small
        rw [Binary64.ofInt?, if_pos (Nat.lt_of_not_le small)] at huge
        cases huge
    · cases failed
    · split at failed
      · cases failed
      · cases failed
        exact absurd rfl (stray _)
    · cases failed
      exact absurd rfl (stray _)
  · rintro ⟨n, rfl, huge, rfl⟩
    have none : Binary64.ofInt? n = none := if_neg (Nat.not_lt_of_le huge)
    unfold toReal
    simp only [none]

/-- Only an infinity is not reported as no whole number. -/
theorem toWhole_eq_error_iff (stray : ∀ why, fault ≠ .unreadable why) :
    d.toWhole = .error fault ↔
      ∃ x negative, d = .real x ∧ Binary64.read x = .infinite negative ∧
        fault = .infiniteWhole := by
  constructor
  · intro failed
    unfold toWhole at failed
    split at failed
    · cases failed
    · cases failed
    · rename_i x
      split at failed
      · cases failed
        exact absurd rfl (stray _)
      · rename_i negative infinite
        cases failed
        exact ⟨x, negative, rfl, infinite, rfl⟩
      · cases failed
    · split at failed
      · cases failed
      · cases failed
        exact absurd rfl (stray _)
      · cases failed
        exact absurd rfl (stray _)
    · cases failed
      exact absurd rfl (stray _)
  · rintro ⟨x, negative, rfl, infinite, rfl⟩
    unfold toWhole
    simp only [infinite]

end Document

theorem idField_eq_error {d : Document} {default : String} {fault : Fault}
    (failed : idField d default = .error fault) : ∃ why, fault = .unreadable why := by
  unfold idField at failed
  simp only at failed
  split at failed
  · cases failed
  · split at failed
    · cases failed
    · cases failed
      exact ⟨_, rfl⟩

namespace Document

variable {d : Document} {fault : Fault}

/-- Among values that are read one after another `d` comes up: all ahead of it can be read. -/
def ComesUp {β : Type} (read : Document → Except Fault β) (ds : List Document) (d : Document) :
    Prop :=
  ∃ front rest, ds = front ++ d :: rest ∧ ∀ e ∈ front, ∃ x, read e = .ok x

section

variable {β : Type} {read : Document → Except Fault β} {ds : List Document}

theorem exists_mapM_iff : (∃ xs, ds.mapM read = .ok xs) ↔ ∀ d ∈ ds, ∃ x, read d = .ok x := by
  constructor
  · rintro ⟨xs, done⟩ d member
    obtain ⟨x, -, found⟩ := exists_image_of_mapM done member
    exact ⟨x, found⟩
  · intro readable
    obtain ⟨xs, done, -⟩ := mapM_exists fun d member =>
      (readable d member).imp fun _ found => (⟨found, trivial⟩ : _ ∧ True)
    exact ⟨xs, done⟩

theorem mapM_fails_iff :
    ds.mapM read = .error fault ↔ ∃ d, ComesUp read ds d ∧ read d = .error fault := by
  rw [mapM_eq_error_iff]
  constructor
  · rintro ⟨front, d, rest, xs, split, done, failed⟩
    exact ⟨d, ⟨front, rest, split, exists_mapM_iff.1 ⟨xs, done⟩⟩, failed⟩
  · rintro ⟨d, ⟨front, rest, split, readable⟩, failed⟩
    obtain ⟨xs, done⟩ := exists_mapM_iff.2 readable
    exact ⟨front, d, rest, xs, split, done, failed⟩

theorem given_of_comesUp {first : Document} {others : List Document} {n : Int}
    (comes : ComesUp toReal (first :: others) (.whole n)) : first.isMissing = false := by
  obtain ⟨front, rest, split, readable⟩ := comes
  cases front with
  | nil =>
      cases split
      rfl
  | cons e front =>
      cases split
      obtain ⟨x, read⟩ := readable _ List.mem_cons_self
      exact given_of_toReal read

end

/-- Whether the values of an item can be read: its measures, its counts and its id, in this
order. -/
def attempt (d : Document) (measures counts : List Document) (default : String) :
    Except Fault Unit := do
  let _ ← measures.mapM toReal
  let _ ← counts.mapM toWhole
  let _ ← idField d default
  pure ()

/-- The faults that are not reported as a rejection of the item `d`, which has to have the field
`required`. -/
inductive Escapes (required : String) (measures counts : List Document) (d : Document) :
    Fault → Prop where
  | lookup {fault : Fault} (baffles : d.Baffles required fault) :
      Escapes required measures counts d fault
  /-- A whole number is beyond all doubles, and the values ahead of it can be read. -/
  | huge {n : Int} (first : ComesUp toReal measures (.whole n))
      (beyond : Binary64.overflowBound ≤ n.natAbs) : Escapes required measures counts d .tooLarge
  /-- A count is infinite, and the values ahead of it can be read. -/
  | endless {x : Float} {negative : Bool} (readable : ∀ m ∈ measures, ∃ x, m.toReal = .ok x)
      (first : ComesUp toWhole counts (.real x)) (infinite : Binary64.read x = .infinite negative) :
      Escapes required measures counts d .infiniteWhole

theorem Baffles.stray {key : String} (baffles : d.Baffles key fault) :
    ∀ why, fault ≠ .invalid why := by
  cases baffles with
  | scalar plain => exact nofun
  | text occurs => exact nofun
  | list inside => exact nofun

theorem Escapes.stray {required : String} {measures counts : List Document}
    (escapes : Escapes required measures counts d fault) : ∀ why, fault ≠ .invalid why := by
  cases escapes with
  | lookup baffles => exact baffles.stray
  | huge first beyond => exact nofun
  | endless readable first infinite => exact nofun

theorem attempt_eq_error_iff {measures counts : List Document} {default : String}
    (stray : ∀ why, fault ≠ .unreadable why) :
    attempt d measures counts default = .error fault ↔
      (∃ n, ComesUp toReal measures (.whole n) ∧ Binary64.overflowBound ≤ n.natAbs ∧
        fault = .tooLarge) ∨
      (∀ m ∈ measures, ∃ x, m.toReal = .ok x) ∧ ∃ x negative, ComesUp toWhole counts (.real x) ∧
        Binary64.read x = .infinite negative ∧ fault = .infiniteWhole := by
  unfold attempt
  rw [result_bind_eq_error, mapM_fails_iff, ← exists_mapM_iff]
  simp only [result_bind_eq_error, mapM_fails_iff, toReal_eq_error_iff stray,
    toWhole_eq_error_iff stray]
  constructor
  · rintro (⟨_, first, n, rfl, beyond, same⟩ | ⟨xs, done, counted | ⟨_, -, named | ⟨_, -, absurd⟩⟩⟩)
    · exact .inl ⟨n, first, beyond, same⟩
    · obtain ⟨_, first, x, negative, rfl, infinite, same⟩ := counted
      exact .inr ⟨⟨xs, done⟩, x, negative, first, infinite, same⟩
    · obtain ⟨why, same⟩ := idField_eq_error named
      exact absurd same (stray why)
    · cases absurd
  · rintro (⟨n, first, beyond, same⟩ | ⟨⟨xs, done⟩, x, negative, first, infinite, same⟩)
    · exact .inl ⟨_, first, n, rfl, beyond, same⟩
    · exact .inr ⟨xs, done, .inl ⟨_, first, x, negative, rfl, infinite, same⟩⟩

section

variable {β : Type} {measures counts : List Document} {default : String}

/-- What is read of a measure does not matter for whether the values behind it can be read. -/
theorem attempt_measure {m : Document} {rest : Float → Except Fault β}
    (later : ∀ x, (rest x).map (fun _ => ()) = attempt d measures counts default) :
    (m.toReal >>= rest).map (fun _ => ()) = attempt d (m :: measures) counts default := by
  have tail : ∀ x, (fun _ => ()) <$> rest x = attempt d measures counts default := later
  change (fun _ => ()) <$> (m.toReal >>= rest) = _
  simp only [map_bind, tail, attempt, List.mapM_cons, bind_assoc, pure_bind]

theorem attempt_count {c : Document} {rest : Int → Except Fault β}
    (later : ∀ n, (rest n).map (fun _ => ()) = attempt d [] counts default) :
    (c.toWhole >>= rest).map (fun _ => ()) = attempt d [] (c :: counts) default := by
  have tail : ∀ n, (fun _ => ()) <$> rest n = attempt d [] counts default := later
  change (fun _ => ()) <$> (c.toWhole >>= rest) = _
  simp only [map_bind, tail, attempt, List.mapM_nil, List.mapM_cons, bind_assoc, pure_bind]

theorem attempt_id {make : String → β} :
    (idField d default >>= fun id => pure (make id)).map (fun _ => ()) =
      attempt d [] [] default := by
  change (fun _ => ()) <$> (idField d default >>= fun id => pure (make id)) = _
  simp only [map_bind, map_pure, attempt, List.mapM_nil, pure_bind]

end

end Document

theorem requireField_eq_error_iff {item field : String} {d : Document} {index : Int}
    {fault : Fault} (stray : ∀ why, fault ≠ .invalid why) :
    requireField item field d index = .error fault ↔ d.Baffles field fault := by
  rw [← Document.field?_eq_error_iff]
  unfold requireField
  rw [result_bind_eq_error]
  constructor
  · rintro (failed | ⟨found, -, rest⟩)
    · exact failed
    · cases found with
      | none =>
          cases rest
          exact absurd rfl (stray _)
      | some value =>
          simp only at rest
          split at rest
          · cases rest
            exact absurd rfl (stray _)
          · cases rest
  · exact .inl

theorem inItem_eq_error_iff {β : Type} {item : String} {index : Int} {result : Except Fault β}
    {fault : Fault} (stray : ∀ why, fault ≠ .invalid why) :
    inItem item index result = .error fault ↔
      result = .error fault ∧ ∀ why, fault ≠ .unreadable why := by
  unfold inItem
  split
  · constructor
    · intro failed
      cases failed
      exact absurd rfl (stray _)
    · rintro ⟨same, other⟩
      cases same
      exact absurd rfl (other _)
  · rename_i other
    constructor
    · rintro rfl
      exact ⟨rfl, fun why same => other why (congrArg Except.error same)⟩
    · exact And.left

theorem map_eq_error_iff {β γ : Type} {result : Except Fault β} {f : β → γ} {fault : Fault} :
    result.map f = .error fault ↔ result = .error fault := by
  cases result with
  | error other => exact ⟨fun same => by cases same; rfl, fun same => by cases same; rfl⟩
  | ok x => exact ⟨nofun, nofun⟩

/-- An item is read in two steps: the field that it has to have is looked up, and then its values
are read, whose faults are reported with the name of the item. Only the first step and the numbers
of the second have faults that are not reported. -/
theorem item_eq_error_iff {β : Type} {item kind required default : String} {d : Document}
    {index : Int} {fault : Fault} {read : Document → Except Fault β}
    {others counts : List Document}
    (reads : (read (d.getOrNull required)).map (fun _ => ()) =
      d.attempt (d.getOrNull required :: others) counts default)
    (stray : ∀ why, fault ≠ .invalid why) :
    (requireField item required d index >>= fun value => inItem kind index (read value)) =
        .error fault ↔
      Document.Escapes required (d.getOrNull required :: others) counts d fault := by
  rw [result_bind_eq_error, requireField_eq_error_iff stray]
  constructor
  · rintro (baffles | ⟨value, found, failed⟩)
    · exact .lookup baffles
    · obtain ⟨rfl, -⟩ := requireField_eq_ok_iff.1 found
      obtain ⟨failed, other⟩ := (inItem_eq_error_iff stray).1 failed
      rw [← map_eq_error_iff, reads, Document.attempt_eq_error_iff other] at failed
      rcases failed with ⟨n, first, beyond, rfl⟩ | ⟨readable, x, negative, first, infinite, rfl⟩
      · exact .huge first beyond
      · exact .endless readable first infinite
  · intro escapes
    have later (given : (d.getOrNull required).isMissing = false)
        (other : ∀ why, fault ≠ .unreadable why)
        (failed : d.attempt (d.getOrNull required :: others) counts default = .error fault) :
        ∃ value, requireField item required d index = .ok value ∧
          inItem kind index (read value) = .error fault := by
      rw [← reads, map_eq_error_iff] at failed
      exact ⟨_, requireField_eq_ok_iff.2 ⟨rfl, given⟩,
        (inItem_eq_error_iff stray).2 ⟨failed, other⟩⟩
    cases escapes with
    | lookup baffles => exact .inl baffles
    | huge first beyond =>
        have other : ∀ why, Fault.tooLarge ≠ .unreadable why := nofun
        refine .inr (later (Document.given_of_comesUp first) other ?_)
        exact (Document.attempt_eq_error_iff other).2 (.inl ⟨_, first, beyond, rfl⟩)
    | endless readable first infinite =>
        have other : ∀ why, Fault.infiniteWhole ≠ .unreadable why := nofun
        obtain ⟨x, read⟩ := readable _ List.mem_cons_self
        refine .inr (later (Document.given_of_toReal read) other ?_)
        exact (Document.attempt_eq_error_iff other).2 (.inr ⟨readable, _, _, first, infinite, rfl⟩)

/-- The numbers of a job, in the order they are read. -/
def Job.measures (d : Document) : List Document :=
  [d.getOrNull "length", (d.getOrNull "mem_required").orElse (.whole 0),
    (d.getOrNull "input_size").orElse (.whole 0), (d.getOrNull "output_size").orElse (.whole 0)]

def Job.counts (d : Document) : List Document := [(d.getOrNull "pes").orElse (.whole 1)]

def Node.measures (d : Document) : List Document :=
  [d.getOrNull "capacity", (d.getOrNull "cost_per_second").orElse (.whole 0),
    (d.getOrNull "cost_per_mem").orElse (.whole 0), (d.getOrNull "cost_per_bw").orElse (.whole 0)]

/-- The faults of reading a job that are not reported as such. -/
def Job.Escapes (d : Document) (fault : Fault) : Prop :=
  d.Escapes "length" (measures d) (counts d) fault

def Node.Escapes (d : Document) (fault : Fault) : Prop :=
  d.Escapes "capacity" (measures d) [] fault

section

variable {d : Document} {index : Int} {fault : Fault}

open Document (attempt_measure attempt_count attempt_id)

theorem Job.map_readMeasures (d : Document) (index : Int) :
    (readMeasures d (d.getOrNull "length") index).map (fun _ => ()) =
      d.attempt (measures d) (counts d) ("job_" ++ toString index) :=
  attempt_measure fun _ => attempt_measure fun _ => attempt_measure fun _ =>
    attempt_measure fun _ => attempt_count fun _ => attempt_id

theorem Node.map_readMeasures (d : Document) (index : Int) :
    (readMeasures d (d.getOrNull "capacity") index).map (fun _ => ()) =
      d.attempt (measures d) [] ("node_" ++ toString index) :=
  attempt_measure fun _ => attempt_measure fun _ => attempt_measure fun _ =>
    attempt_measure fun _ => attempt_id

theorem Job.ofDocument_eq_error_iff (stray : ∀ why, fault ≠ .invalid why) :
    ofDocument d index = .error fault ↔ Job.Escapes d fault :=
  item_eq_error_iff (map_readMeasures d index) stray

theorem Node.ofDocument_eq_error_iff (stray : ∀ why, fault ≠ .invalid why) :
    ofDocument d index = .error fault ↔ Node.Escapes d fault :=
  item_eq_error_iff (map_readMeasures d index) stray

end

namespace Problem

variable {path given : String} {entries : List (String × Document)} {d : Document} {fault : Fault}
  {ws : Workspace} {entry : Entry}

/-- The faults of loading a problem that are not reported as such: those of the first job that
cannot be read or, where all jobs can be read, of the first node. -/
inductive Escapes (entries : List (String × Document)) (fault : Fault) : Prop where
  | job {front rest nodes : List Document} {d : Document} {jobs : List (Job Float)}
      (jobsFound : entries.lookup "jobs" = some (.list (front ++ d :: rest)))
      (nodesFound : entries.lookup "nodes" = some (.list nodes))
      (before : readEach Job.ofDocument 0 front = .ok jobs) (escapes : Job.Escapes d fault)
  | node {items front rest : List Document} {d : Document} {jobs : List (Job Float)}
      {nodes : List (Node Float)} (jobsFound : entries.lookup "jobs" = some (.list items))
      (nodesFound : entries.lookup "nodes" = some (.list (front ++ d :: rest)))
      (jobsRead : readEach Job.ofDocument 0 items = .ok jobs)
      (before : readEach Node.ofDocument 0 front = .ok nodes) (escapes : Node.Escapes d fault)

theorem listField_ne_error {key : String} (stray : ∀ why, fault ≠ .invalid why) :
    listField path key entries ≠ .error fault := by
  intro failed
  unfold listField at failed
  split at failed
  · cases failed
    exact stray _ rfl
  · cases failed
  · cases failed
    exact stray _ rfl

theorem ofEntries_eq_error_iff (stray : ∀ why, fault ≠ .invalid why) :
    ofEntries path entries = .error fault ↔ Escapes entries fault := by
  unfold ofEntries
  simp only [result_bind_eq_error, listField_ne_error stray, false_or, listField_eq_ok_iff,
    readEach_eq_error_iff]
  constructor
  · rintro ⟨items, jobsFound, nodes, nodesFound, failed | ⟨jobs, jobsRead, failed | ⟨_, _, absurd⟩⟩⟩
    · obtain ⟨front, d, rest, jobs, rfl, before, failed⟩ := failed
      exact .job jobsFound nodesFound before ((Job.ofDocument_eq_error_iff stray).1 failed)
    · obtain ⟨front, d, rest, nodes, rfl, before, failed⟩ := failed
      exact .node jobsFound nodesFound jobsRead before
        ((Node.ofDocument_eq_error_iff stray).1 failed)
    · cases absurd
  · intro escapes
    cases escapes with
    | job jobsFound nodesFound before escapes =>
        exact ⟨_, jobsFound, _, nodesFound, .inl ⟨_, _, _, _, rfl, before,
          (Job.ofDocument_eq_error_iff stray).2 escapes⟩⟩
    | node jobsFound nodesFound jobsRead before escapes =>
        exact ⟨_, jobsFound, _, nodesFound, .inr ⟨_, jobsRead, .inl ⟨_, _, _, _, rfl, before,
          (Node.ofDocument_eq_error_iff stray).2 escapes⟩⟩⟩

theorem Escapes.stray (escapes : Escapes entries fault) : ∀ why, fault ≠ .invalid why := by
  cases escapes with
  | job jobsFound nodesFound before escapes => exact Document.Escapes.stray escapes
  | node jobsFound nodesFound jobsRead before escapes => exact Document.Escapes.stray escapes

theorem load_eq_error_iff (file : ws.Holds (Path.ofText given) entry)
    (contains : ws.documentIn entry = .ok (some d)) (stray : ∀ why, fault ≠ .invalid why) :
    load ws given = .error fault ↔ ∃ entries, d = .map entries ∧ Escapes entries fault := by
  unfold load
  by_cases shape : ∃ entries, d = .map entries
  · obtain ⟨entries, rfl⟩ := shape
    have loaded := file.loadEntries contains rfl
    rw [result_bind_eq_error, loaded]
    simp only [reduceCtorEq, false_or, Except.ok.injEq, exists_eq_left', Document.map.injEq,
      ofEntries_eq_error_iff stray]
  · obtain ⟨why, rejected⟩ := file.loadEntries_of_other contains (not_exists.1 shape)
    rw [rejected]
    constructor
    · intro failed
      cases failed
      exact absurd rfl (stray why)
    · rintro ⟨entries, same, -⟩
      exact absurd ⟨entries, same⟩ shape

/-- A problem file is loaded or rejected with what is wrong with it, whatever it holds, but for one
kind of item: the first that cannot be read is no map, and looking up its length or capacity faults,
or it has a whole number beyond all doubles or an infinite count, ahead of any other value that
cannot be read. -/
theorem load_rejects_unless_escapes (file : ws.Holds (Path.ofText given) entry)
    (contains : ws.documentIn entry = .ok (some d)) :
    ((∃ problem, load ws given = .ok problem) ∨ (∃ why, load ws given = .error (.invalid why)) ∨
      ∃ entries fault, d = .map entries ∧ Escapes entries fault ∧ load ws given = .error fault) ∧
    ∀ entries fault, d = .map entries → Escapes entries fault →
      load ws given = .error fault ∧ ∀ why, fault ≠ .invalid why := by
  constructor
  · cases result : load ws given with
    | ok problem => exact .inl ⟨problem, rfl⟩
    | error fault =>
        by_cases reported : ∃ why, fault = .invalid why
        · obtain ⟨why, rfl⟩ := reported
          exact .inr (.inl ⟨why, rfl⟩)
        · have stray := not_exists.1 reported
          obtain ⟨entries, same, escapes⟩ := (load_eq_error_iff file contains stray).1 result
          exact .inr (.inr ⟨entries, fault, same, escapes, rfl⟩)
  · intro entries fault same escapes
    exact ⟨(load_eq_error_iff file contains escapes.stray).2 ⟨entries, same, escapes⟩,
      escapes.stray⟩

/-- A problem file with a list of jobs and one proper node. -/
def strangeEntries (jobs : List Document) : List (String × Document) :=
  [("jobs", .list jobs), ("nodes", .list [.map [("capacity", .whole 1)]])]

def strangeFiles (jobs : List Document) : Workspace where
  entries := [(["strange.yaml"], .document (.map (strangeEntries jobs)))]
  parse _ := none

theorem holds_strangeFiles (jobs : List Document) :
    (strangeFiles jobs).Holds (Path.ofText "strange.yaml")
      (.document (.map (strangeEntries jobs))) :=
  ⟨["strange.yaml"], by rfl, by rfl⟩

/-- A text in place of a job, in which the name of the field occurs that a job has to have. -/
theorem load_escapes_wavelength :
    load (strangeFiles [.text "wavelength"]) "strange.yaml" = .error .textIndex ∧
      ∀ why, Fault.textIndex ≠ .invalid why := by
  have occurs : "length".toList <:+: "wavelength".toList := ⟨"wave".toList, [], by decide⟩
  have escapes : Job.Escapes (.text "wavelength") .textIndex := .lookup (.text occurs)
  obtain ⟨-, escaped⟩ :=
    load_rejects_unless_escapes (holds_strangeFiles [.text "wavelength"]) rfl
  exact escaped _ .textIndex rfl (@Escapes.job _ _ [] [] _ _ [] rfl rfl rfl escapes)

/-- An infinite count is not reported as a wrong value. -/
theorem endless_count_is_not_reported :
    load (strangeFiles [.map [("length", .real 1), ("pes", .real (1 / 0))]]) "strange.yaml" =
        .error .infiniteWhole ∧
      ∀ why, Fault.infiniteWhole ≠ .invalid why := by
  have stray : ∀ why, Fault.infiniteWhole ≠ .invalid why := nofun
  have infinite : Binary64.read (1 / 0) = .infinite false := by decide +kernel
  have given : (Document.real (1 / 0)).isEmptyLike = false := by decide +kernel
  have counted : Job.counts (.map [("length", .real 1), ("pes", .real (1 / 0))]) =
      [.real (1 / 0)] := congrArg (· :: []) (if_neg (ne_true_of_eq_false given))
  have readable : ∀ m ∈ Job.measures (.map [("length", .real 1), ("pes", .real (1 / 0))]),
      ∃ x, m.toReal = .ok x := by
    have zero : ∃ x, (Document.whole 0).toReal = .ok x := ⟨_, Document.toReal_zero⟩
    refine List.forall_mem_cons.2 ⟨⟨1, rfl⟩, ?_⟩
    refine List.forall_mem_cons.2 ⟨zero, List.forall_mem_cons.2 ⟨zero, ?_⟩⟩
    exact List.forall_mem_singleton.2 zero
  refine ⟨(load_eq_error_iff (holds_strangeFiles _) rfl stray).2 ⟨_, rfl, ?_⟩, stray⟩
  refine @Escapes.job _ _ [] [] _ _ [] rfl rfl rfl ?_
  exact .endless readable ⟨[], [], counted, nofun⟩ infinite

end Problem

end EvoSched
