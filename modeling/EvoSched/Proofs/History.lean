import EvoSched.History
import EvoSched.Proofs.Decimal.Length
import EvoSched.Proofs.Decimal.Reprinting
import EvoSched.Proofs.Workspace.Saving

set_option autoImplicit false

namespace EvoSched.History

variable {ws ws' : Workspace} {path : Path} {records : List (Record Float)} {r : Record Float}

theorem rows_eq_ok {lines : List (List String)} (complete : rows records = (lines, none)) :
    lines = records.map row ∧ ∀ r ∈ records, isWritable r = true := by
  induction records generalizing lines with
  | nil =>
      cases complete
      exact ⟨rfl, nofun⟩
  | cons r rest ih =>
      rw [rows] at complete
      split at complete
      · rename_i writable
        cases later : rows rest with
        | mk others fault =>
            rw [later] at complete
            cases complete
            obtain ⟨rfl, all⟩ := ih later
            exact ⟨rfl, List.forall_mem_cons.2 ⟨writable, all⟩⟩
      · cases complete

theorem rows_of_writable (writable : ∀ r ∈ records, isWritable r = true) :
    rows records = (records.map row, none) := by
  induction records with
  | nil => rfl
  | cons r rest ih =>
      obtain ⟨first, others⟩ := List.forall_mem_cons.1 writable
      rw [rows, if_pos first, ih others]
      rfl

theorem save_eq {overwrite : Bool} (writable : ∀ r ∈ records, isWritable r = true) :
    save path overwrite records = Workspace.saveTable path overwrite (table records) := by
  unfold save
  rw [rows_of_writable writable]
  exact Workspace.saveRows_of_complete

theorem save_eq_ok {overwrite : Bool} (success : save path overwrite records ws = .ok () ws') :
    (∀ r ∈ records, isWritable r = true) ∧ ws'.Holds path (.text (table records).text) := by
  obtain ⟨lines, complete, holds⟩ := Workspace.saveRows_eq_ok success
  obtain ⟨rfl, writable⟩ := rows_eq_ok complete
  exact ⟨writable, holds⟩

/-- The record that is read from the row of another. -/
def recalled (r : Record Float) : Record Float :=
  ⟨r.generation, Decimal.reread 10 r.bestFitness, Decimal.reread 10 r.meanFitness,
    Decimal.reread 10 r.bestTime, Decimal.reread 10 r.bestCost, r.populationSize,
    Decimal.reread 6 r.elapsed, none⟩

/-- A loaded record has the numbers of the saved one. -/
structure Recalls (r r' : Record Float) : Prop where
  generation : r'.generation = r.generation
  populationSize : r'.populationSize = r.populationSize

theorem recalls_map_recalled (records : List (Record Float)) :
    List.Forall₂ Recalls records (records.map recalled) := by
  rw [List.forall₂_map_right_iff, List.forall₂_same]
  exact fun r _ => ⟨rfl, rfl⟩

theorem length_whole_le {n : Int} (writable : Decimal.isWritable n = true) :
    (toString n).length ≤ Table.fieldLimit := by
  have digits : (Nat.toDigits 10 n.natAbs).length ≤ 4300 := of_decide_eq_true writable
  rw [← String.length_toList, Decimal.toList_toString_int, List.length_append]
  unfold Table.fieldLimit
  split
  · rw [List.length_singleton]
    omega
  · rw [List.length_nil]
    omega

theorem readable_row (writable : isWritable r = true) : Table.isReadable (row r) = true := by
  obtain ⟨generation, size⟩ := Bool.and_eq_true_iff.1 writable
  have wide := Binary64.digitLimit_eq
  have measure (places : Nat) (few : places ≤ 10) (x : Float) :
      (Scalar.fixed places x).length ≤ Table.fieldLimit := by
    have length : (Scalar.fixed places x).length ≤ _ := Decimal.length_fixed_le places x
    unfold Table.fieldLimit
    omega
  simp only [Table.isReadable, row, List.all_cons, List.all_nil, Bool.and_true, Bool.and_eq_true,
    decide_eq_true_eq]
  exact ⟨length_whole_le generation, measure 10 (by decide) _, measure 10 (by decide) _,
    measure 10 (by decide) _, measure 10 (by decide) _, length_whole_le size,
    measure 6 (by decide) _⟩

/-- The field in a column of the row of a record. -/
theorem getOrNull_row {i : Nat} {name field : String} (column : columns[i]? = some name)
    (cell : (row r)[i]? = some field) :
    (Table.entry columns (row r)).getOrNull name = .text field :=
  Table.getOrNull_entry (by decide) column cell

theorem recordOf_row (writable : isWritable r = true) :
    recordOf (Table.entry columns (row r)) = .ok (recalled r) := by
  obtain ⟨generation, size⟩ := Bool.and_eq_true_iff.1 writable
  have measure {i places : Nat} {name : String} {x : Float} (column : columns[i]? = some name)
      (cell : (row r)[i]? = some (Scalar.fixed places x)) :
      ((Table.entry columns (row r)).getOrNull name).toReal = .ok (Decimal.reread places x) := by
    rw [getOrNull_row column cell]
    exact Document.toReal_fixed places x
  have number {i : Nat} {name : String} {n : Int} (column : columns[i]? = some name)
      (cell : (row r)[i]? = some (toString n)) (short : Decimal.isWritable n = true) :
      ((Table.entry columns (row r)).getOrNull name).toWhole = .ok n := by
    rw [getOrNull_row column cell]
    exact Document.toWhole_toString short
  have first := number (i := 0) rfl rfl generation
  have sixth := number (i := 5) rfl rfl size
  refine result_bind_eq_ok.2 ⟨_, first, ?_⟩
  refine result_bind_eq_ok.2 ⟨_, measure (i := 1) rfl rfl, ?_⟩
  refine result_bind_eq_ok.2 ⟨_, measure (i := 2) rfl rfl, ?_⟩
  refine result_bind_eq_ok.2 ⟨_, measure (i := 3) rfl rfl, ?_⟩
  refine result_bind_eq_ok.2 ⟨_, measure (i := 4) rfl rfl, ?_⟩
  refine result_bind_eq_ok.2 ⟨_, sixth, ?_⟩
  exact result_bind_eq_ok.2 ⟨_, measure (i := 6) rfl rfl, rfl⟩

section

variable (holds : ws.Holds path (.text (table records).text))
  (writable : ∀ r ∈ records, isWritable r = true)

include holds writable

/-- A saved table has a row for each record. -/
theorem loadTable :
    ws.loadTable path columns = .ok (records.map fun r => Table.entry columns (row r)) := by
  have full : ∀ line ∈ (table records).rows, line ≠ [] := by
    intro line member
    obtain ⟨r, -, rfl⟩ := List.mem_map.1 member
    exact List.cons_ne_nil _ _
  have readable : ∀ line ∈ columns :: (table records).rows, Table.isReadable line = true := by
    rw [List.forall_mem_cons]
    refine ⟨by decide, fun line member => ?_⟩
    obtain ⟨r, inside, rfl⟩ := List.mem_map.1 member
    exact readable_row (writable r inside)
  have header : (table records).hasColumns columns = true :=
    (by decide : columns.all columns.contains = true)
  rw [holds.loadTable full header readable]
  exact congrArg Except.ok List.map_map

theorem load_eq : load ws path = .ok (records.map recalled) := by
  refine result_bind_eq_ok.2 ⟨_, loadTable holds writable, mapM_eq_ok_iff.2 ?_⟩
  rw [List.forall₂_map_left_iff, List.forall₂_map_right_iff, List.forall₂_same]
  exact fun r member => recordOf_row (writable r member)

/-- A saved history is loaded record by record. -/
theorem exists_load :
    ∃ loaded, load ws path = .ok loaded ∧ List.Forall₂ Recalls records loaded :=
  ⟨_, load_eq holds writable, recalls_map_recalled records⟩

end

section

variable {loaded : List (Record Float)} (recalls : List.Forall₂ Recalls records loaded)

include recalls

theorem map_generation : loaded.map (·.generation) = records.map (·.generation) := by
  induction recalls with
  | nil => rfl
  | cons first rest ih => rw [List.map_cons, List.map_cons, first.generation, ih]

theorem map_populationSize : loaded.map (·.populationSize) = records.map (·.populationSize) := by
  induction recalls with
  | nil => rfl
  | cons first rest ih => rw [List.map_cons, List.map_cons, first.populationSize, ih]

theorem exists_recalled {g : Nat} {r' : Record Float} (read : loaded[g]? = some r') :
    ∃ r, records[g]? = some r ∧ Recalls r r' := by
  obtain ⟨length, each⟩ := List.forall₂_iff_get.1 recalls
  obtain ⟨inside, rfl⟩ := List.getElem?_eq_some_iff.1 read
  have within : g < records.length := length ▸ inside
  exact ⟨records[g], List.getElem?_eq_getElem within, each g within inside⟩

end

theorem row_recalled (r : Record Float) : row (recalled r) = row r := by
  have measure (x : Float) : Scalar.fixed 10 (Decimal.reread 10 x) = Scalar.fixed 10 x :=
    Decimal.fixed_reread (by decide) x
  have seconds : Scalar.fixed 6 (Decimal.reread 6 r.elapsed) = Scalar.fixed 6 r.elapsed :=
    Decimal.fixed_reread (by decide) r.elapsed
  simp only [row, recalled, measure, seconds]

theorem table_recalled (records : List (Record Float)) :
    table (records.map recalled) = table records := by
  have same : (row ∘ recalled : Record Float → List String) = row := funext row_recalled
  rw [table, List.map_map, same, table]

theorem rows_recalled (records : List (Record Float)) :
    rows (records.map recalled) = rows records := by
  induction records with
  | nil => rfl
  | cons r rest ih =>
      rw [List.map_cons, rows, rows, ih, row_recalled]
      rfl

/-- A saved history is loaded with as many records, in their order and with their numbers; and
writing what was loaded is writing what was saved, so that it leaves the same text, from which the
same is loaded. Records whose whole numbers can be written are saved as their table; the measures
can be any doubles. -/
theorem saved_history_is_stable (path : Path) (overwrite : Bool) (records : List (Record Float)) :
    ((∀ r ∈ records, isWritable r = true) →
      save path overwrite records = Workspace.saveTable path overwrite (table records)) ∧
    ∀ ws ws', save path overwrite records ws = .ok () ws' →
      ∃ loaded, load ws' path = .ok loaded ∧ List.Forall₂ Recalls records loaded ∧
        ws'.Holds path (.text (table loaded).text) ∧
        (∀ again overwrite, save again overwrite loaded = save again overwrite records) ∧
        ∀ again overwrite ws₁ ws₂, save again overwrite loaded ws₁ = .ok () ws₂ →
          ws₂.Holds again (.text (table records).text) ∧ load ws₂ again = .ok loaded := by
  refine ⟨save_eq, fun ws ws' success => ?_⟩
  obtain ⟨writable, holds⟩ := save_eq_ok success
  have same (again : Path) (overwrite : Bool) :
      save again overwrite (records.map recalled) = save again overwrite records := by
    unfold save
    rw [rows_recalled]
  refine ⟨_, load_eq holds writable, recalls_map_recalled records, ?_, same, ?_⟩
  · rwa [table_recalled]
  · intro again overwrite ws₁ ws₂ saved
    rw [same] at saved
    have holds' := (save_eq_ok saved).2
    exact ⟨holds', load_eq holds' writable⟩

/-- Measures of many kinds: the least below zero, infinite, none at all, and very large. -/
def strange : Record Float :=
  ⟨-3, -5e-324, 1 / 0, 0 / 0, 1e300, 0, -0.0, none⟩

/-- The history of it is loaded, and what was loaded is written to the same text. -/
theorem strange_history_is_stable :
    ∃ ws' loaded, save (Path.ofText "h.csv") false [strange] Workspace.bare = .ok () ws' ∧
      load ws' (Path.ofText "h.csv") = .ok loaded ∧ List.Forall₂ Recalls [strange] loaded ∧
      ∃ ws₂, save (Path.ofText "h.csv") false loaded Workspace.bare = .ok () ws₂ ∧
        ws₂.Holds (Path.ofText "h.csv") (.text (table [strange]).text) := by
  obtain ⟨written, stable⟩ := saved_history_is_stable (Path.ofText "h.csv") false [strange]
  have writable : ∀ r ∈ [strange], isWritable r = true := by
    rw [List.forall_mem_singleton]
    decide
  have success := congrFun (written writable) Workspace.bare
  obtain ⟨loaded, read, recalls, -, same, rewritten⟩ := stable Workspace.bare _ success
  have again := (congrFun (same (Path.ofText "h.csv") false) Workspace.bare).trans success
  exact ⟨_, loaded, success, read, recalls, _, again, (rewritten _ _ _ _ again).1⟩

end EvoSched.History
