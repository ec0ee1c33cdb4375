import EvoSched.Proofs.Computation
import EvoSched.Problem.Form

set_option autoImplicit false

namespace EvoSched

namespace Document

variable {d value : Document} {key : String}

theorem field?_map (entries : List (String × Document)) :
    (map entries).field? key = .ok (entries.lookup key) := by
  unfold field? hasKey valueAt
  simp only
  cases entries.lookup key with
  | none => rfl
  | some value => rfl

theorem field?_text (s : String) :
    (text s).field? key =
      if occursIn key.toList s.toList then .error .textIndex else .ok none := rfl

theorem hasKey_list {items : List Document} :
    (list items).hasKey key = .ok true ↔ text key ∈ items := by
  unfold hasKey
  simp only [Except.ok.injEq, List.any_eq_true]
  constructor
  · rintro ⟨item, inside, same⟩
    cases item with
    | text s =>
        rw [beq_iff_eq] at same
        exact same ▸ inside
    | _ => cases same
  · intro inside
    exact ⟨text key, inside, beq_self_eq_true key⟩

theorem field?_list_of_mem {items : List Document} (inside : text key ∈ items) :
    (list items).field? key = .error .listIndex := by
  unfold field?
  rw [hasKey_list.2 inside]
  rfl

theorem field?_list_of_not_mem {items : List Document} (outside : text key ∉ items) :
    (list items).field? key = .ok none := by
  have absent : (list items).hasKey key = .ok false := by
    cases found : (list items).hasKey key with
    | error fault => cases found
    | ok inside =>
        cases inside with
        | false => rfl
        | true => exact absurd (hasKey_list.1 found) outside
  unfold field?
  rw [absent]
  rfl

/-- Only a map has a value under a key. -/
theorem field?_eq_some_iff :
    d.field? key = .ok (some value) ↔
      ∃ entries, d = .map entries ∧ entries.lookup key = some value := by
  cases d with
  | map entries =>
      rw [field?_map, Except.ok.injEq]
      constructor
      · intro found
        exact ⟨entries, rfl, found⟩
      · rintro ⟨_, same, found⟩
        cases same
        exact found
  | text s =>
      rw [field?_text]
      split
      · exact ⟨nofun, nofun⟩
      · exact ⟨nofun, nofun⟩
  | list items =>
      by_cases inside : text key ∈ items
      · rw [field?_list_of_mem inside]
        exact ⟨nofun, nofun⟩
      · rw [field?_list_of_not_mem inside]
        exact ⟨nofun, nofun⟩
  | null => exact ⟨nofun, nofun⟩
  | truth b => exact ⟨nofun, nofun⟩
  | whole n => exact ⟨nofun, nofun⟩
  | real x => exact ⟨nofun, nofun⟩

theorem getOrNull_of_lookup {entries : List (String × Document)}
    (found : entries.lookup key = some value) : (map entries).getOrNull key = value := by
  change (entries.lookup key).getD null = value
  rw [found]
  rfl

/-- A value that is given is looked up in a map. -/
theorem lookup_of_getOrNull (found : d.getOrNull key = value) (given : value.isMissing = false) :
    ∃ entries, d = .map entries ∧ entries.lookup key = some value := by
  cases d with
  | map entries =>
      change (entries.lookup key).getD null = value at found
      cases inside : entries.lookup key with
      | none =>
          rw [inside] at found
          cases found
          cases given
      | some other =>
          rw [inside] at found
          cases found
          exact ⟨entries, rfl, inside⟩
  | _ =>
      cases found
      cases given

theorem toReal_zero : (whole 0).toReal = .ok Scalar.zero := by
  have small : Binary64.ofInt? 0 = some Scalar.zero :=
    if_pos (by decide +kernel : (0 : Int).natAbs < Binary64.overflowBound)
  unfold toReal
  simp only [small]

theorem given_of_toReal {x : Float} (read : d.toReal = .ok x) : d.isMissing = false := by
  cases d with
  | null => cases read
  | text s =>
      change s.isEmpty = false
      rw [String.isEmpty_eq_false_iff]
      rintro rfl
      cases read
  | _ => rfl

end Document

section

variable {item field : String} {d value : Document} {index : Int} {β : Type}

theorem requireField_eq_ok_iff :
    requireField item field d index = .ok value ↔
      d.getOrNull field = value ∧ value.isMissing = false := by
  unfold requireField
  rw [result_bind_eq_ok]
  constructor
  · rintro ⟨found, looked, rest⟩
    cases found with
    | none => cases rest
    | some other =>
        simp only at rest
        split at rest
        · cases rest
        · rename_i given
          cases rest
          obtain ⟨entries, rfl, inside⟩ := Document.field?_eq_some_iff.1 looked
          exact ⟨Document.getOrNull_of_lookup inside, Bool.eq_false_iff.2 given⟩
  · rintro ⟨found, given⟩
    have looked := Document.field?_eq_some_iff.2 (Document.lookup_of_getOrNull found given)
    refine ⟨some value, looked, ?_⟩
    simp only [given, Bool.false_eq_true, if_false]

theorem inItem_eq_ok_iff {result : Except Fault β} {x : β} :
    inItem item index result = .ok x ↔ result = .ok x := by
  unfold inItem
  split
  · exact ⟨nofun, nofun⟩
  · exact Iff.rfl

end

theorem Problem.listField_eq_ok_iff {path key : String} {entries : List (String × Document)}
    {items : List Document} :
    listField path key entries = .ok items ↔ entries.lookup key = some (.list items) := by
  unfold listField
  split
  · rename_i none
    rw [none]
    exact ⟨nofun, nofun⟩
  · rename_i found
    rw [found, Except.ok.injEq, Option.some.injEq, Document.list.injEq]
  · rename_i value other found
    constructor
    · exact nofun
    · intro list
      rw [found] at list
      cases list
      exact absurd rfl (other _)

/-- What a job is read from. -/
structure Job.Reads (d : Document) (index : Int) (job : Job Float) : Prop where
  given : (d.getOrNull "length").isMissing = false
  length : (d.getOrNull "length").toReal = .ok job.length
  memory : realField d "mem_required" = .ok job.memory
  input : realField d "input_size" = .ok job.input
  output : realField d "output_size" = .ok job.output
  pes : ((d.getOrNull "pes").orElse (.whole 1)).toWhole = .ok job.pes
  id : ∃ id, job.id = some id ∧ idField d ("job_" ++ toString index) = .ok id

theorem Job.ofDocument_eq_ok_iff {d : Document} {index : Int} {job : Job Float} :
    ofDocument d index = .ok job ↔ Reads d index job := by
  unfold ofDocument readMeasures
  simp only [result_bind_eq_ok, requireField_eq_ok_iff, inItem_eq_ok_iff]
  constructor
  · rintro ⟨_, ⟨rfl, given⟩, length, first, memory, second, input, third, output, fourth, pes,
      count, id, named, same⟩
    cases same
    exact ⟨given, first, second, third, fourth, count, id, rfl, named⟩
  · rintro ⟨given, first, second, third, fourth, count, id, same, named⟩
    refine ⟨_, ⟨rfl, given⟩, _, first, _, second, _, third, _, fourth, _, count, _, named, ?_⟩
    rw [← same]
    rfl

/-- What a node is read from. -/
structure Node.Reads (d : Document) (index : Int) (node : Node Float) : Prop where
  given : (d.getOrNull "capacity").isMissing = false
  capacity : (d.getOrNull "capacity").toReal = .ok node.capacity
  perSecond : realField d "cost_per_second" = .ok node.perSecond
  perMemory : realField d "cost_per_mem" = .ok node.perMemory
  perTransfer : realField d "cost_per_bw" = .ok node.perTransfer
  id : ∃ id, node.id = some id ∧ idField d ("node_" ++ toString index) = .ok id

theorem Node.ofDocument_eq_ok_iff {d : Document} {index : Int} {node : Node Float} :
    ofDocument d index = .ok node ↔ Reads d index node := by
  unfold ofDocument readMeasures
  simp only [result_bind_eq_ok, requireField_eq_ok_iff, inItem_eq_ok_iff]
  constructor
  · rintro ⟨_, ⟨rfl, given⟩, capacity, first, perSecond, second, perMemory, third, perTransfer,
      fourth, id, named, same⟩
    cases same
    exact ⟨given, first, second, third, fourth, id, rfl, named⟩
  · rintro ⟨given, first, second, third, fourth, id, same, named⟩
    refine ⟨_, ⟨rfl, given⟩, _, first, _, second, _, third, _, fourth, _, named, ?_⟩
    rw [← same]
    rfl

section

variable {β : Type} {read : Document → Int → Except Fault β} {index : Nat} {ds : List Document}

/-- Items are read one for one, each with its position. -/
theorem readEach_eq_ok_iff {items : List β} :
    readEach read index ds = .ok items ↔
      items.length = ds.length ∧
        ∀ (i : Nat) (d : Document), ds[i]? = some d →
          ∃ item, items[i]? = some item ∧ read d (index + i : Nat) = .ok item := by
  induction ds generalizing index items with
  | nil =>
      simp only [readEach, Except.ok.injEq, List.length_nil, List.length_eq_zero_iff,
        List.getElem?_nil]
      exact ⟨fun same => ⟨same.symm, nofun⟩, fun same => same.1.symm⟩
  | cons d rest ih =>
      simp only [readEach, result_bind_eq_ok, ih]
      constructor
      · rintro ⟨item, first, others, ⟨length, each⟩, same⟩
        cases same
        refine ⟨congrArg Nat.succ length, fun i e found => ?_⟩
        cases i with
        | zero =>
            cases found
            exact ⟨item, rfl, first⟩
        | succ i =>
            have later := each i e found
            rwa [Nat.add_right_comm] at later
      · rintro ⟨length, each⟩
        cases items with
        | nil => cases length
        | cons item others =>
            obtain ⟨_, same, first⟩ := each 0 d rfl
            cases same
            refine ⟨item, first, others, ⟨Nat.succ.inj length, fun i e found => ?_⟩, rfl⟩
            rw [Nat.add_right_comm]
            exact each (i + 1) e found

/-- Reading a list faults at the first item that cannot be read. -/
theorem readEach_eq_error_iff {fault : Fault} :
    readEach read index ds = .error fault ↔
      ∃ front d rest items, ds = front ++ d :: rest ∧ readEach read index front = .ok items ∧
        read d (index + front.length : Nat) = .error fault := by
  induction ds generalizing index with
  | nil => simp [readEach]
  | cons e others ih =>
      rw [readEach, result_bind_eq_error]
      constructor
      · rintro (first | ⟨item, first, failed⟩)
        · exact ⟨[], e, others, [], rfl, rfl, first⟩
        · rcases result_bind_eq_error.1 failed with tail | ⟨items, -, absurd⟩
          · obtain ⟨front, d, rest, items, rfl, done, failing⟩ := ih.1 tail
            refine ⟨e :: front, d, rest, item :: items, rfl, ?_, ?_⟩
            · exact result_bind_eq_ok.2 ⟨item, first, result_bind_eq_ok.2 ⟨items, done, rfl⟩⟩
            · rwa [Nat.add_right_comm] at failing
          · cases absurd
      · rintro ⟨front, d, rest, items, split, done, failing⟩
        cases front with
        | nil =>
            cases split
            exact .inl failing
        | cons _ front =>
            cases split
            obtain ⟨item, first, remaining⟩ := result_bind_eq_ok.1 done
            obtain ⟨items, tail, -⟩ := result_bind_eq_ok.1 remaining
            rw [List.length_cons, ← Nat.add_assoc, ← Nat.add_right_comm] at failing
            have failed := ih.2 ⟨front, d, rest, items, rfl, tail, failing⟩
            exact .inr ⟨item, first, result_bind_eq_error.2 (.inl failed)⟩

end

end EvoSched
