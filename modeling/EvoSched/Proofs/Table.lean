import EvoSched.Table

set_option autoImplicit false

namespace EvoSched.Table

theorem writeFields_cons (field next : String) (others : List String) :
    writeFields (field :: next :: others) =
      writeField field ++ ',' :: writeFields (next :: others) := rfl

namespace Reader

variable {field : List Char} {fields : List String} {rows : List (List String)}

/-- A field may begin here. -/
def Begins (mode : Mode) : Prop := mode = .rowStart ∨ mode = .fieldStart

/-- A field may end here, if it has begun. -/
def Ends (mode : Mode) : Prop := mode = .bare ∨ mode = .closing ∨ mode = .fieldStart

theorem plain_iff {c : Char} :
    isSpecial c = false ↔ c ≠ ',' ∧ c ≠ '"' ∧ isLineEnd c = false := by
  grind [isSpecial, isLineEnd]

theorem step_bare {c : Char} (plain : isSpecial c = false) :
    step ⟨.bare, field, fields, rows⟩ c = ⟨.bare, c :: field, fields, rows⟩ := by
  obtain ⟨comma, -, inside⟩ := plain_iff.1 plain
  simp [step, follow, push, comma, inside]

theorem step_begin {mode : Mode} {c : Char} (begins : Begins mode) (plain : isSpecial c = false) :
    step ⟨mode, [], fields, rows⟩ c = ⟨.bare, [c], fields, rows⟩ := by
  obtain ⟨comma, quote, inside⟩ := plain_iff.1 plain
  rcases begins with rfl | rfl
  · simp [step, beginRow, beginField, follow, push, comma, quote, inside]
  · simp [step, beginField, follow, push, comma, quote, inside]

theorem step_quote {mode : Mode} (begins : Begins mode) :
    step ⟨mode, [], fields, rows⟩ '"' = ⟨.quoted, [], fields, rows⟩ := by
  rcases begins with rfl | rfl
  · rfl
  · rfl

/-- A comma ends a field, an empty one included. -/
theorem step_comma {mode : Mode} (ready : Begins mode ∨ Ends mode) :
    step ⟨mode, field, fields, rows⟩ ',' =
      ⟨.fieldStart, [], String.ofList field.reverse :: fields, rows⟩ := by
  rcases ready with (rfl | rfl) | rfl | rfl | rfl
  · rfl
  · rfl
  · rfl
  · rfl
  · rfl

/-- A line end ends a row with its last field. -/
theorem foldl_lineEnd {mode : Mode} (ends : Ends mode) :
    ['\r', '\n'].foldl step ⟨mode, field, fields, rows⟩ =
      ⟨.rowStart, [], [], (String.ofList field.reverse :: fields).reverse :: rows⟩ := by
  rcases ends with rfl | rfl | rfl
  · rfl
  · rfl
  · rfl

theorem foldl_bare {cs : List Char} (plain : cs.any isSpecial = false) :
    cs.foldl step ⟨.bare, field, fields, rows⟩ = ⟨.bare, cs.reverse ++ field, fields, rows⟩ := by
  induction cs generalizing field with
  | nil => rfl
  | cons c rest ih =>
      rw [List.any_cons, Bool.or_eq_false_iff] at plain
      rw [List.foldl_cons, step_bare plain.1, ih plain.2, List.reverse_cons, List.append_assoc]
      rfl

/-- In quotes every character stands for itself, and two quotes for one. -/
theorem foldl_doubleQuotes (cs : List Char) :
    (doubleQuotes cs).foldl step ⟨.quoted, field, fields, rows⟩ =
      ⟨.quoted, cs.reverse ++ field, fields, rows⟩ := by
  induction cs generalizing field with
  | nil => rfl
  | cons c rest ih =>
      rw [doubleQuotes, List.reverse_cons, List.append_assoc]
      split
      · rename_i quote
        rw [quote]
        exact ih
      · rename_i other
        have pushed :
            step ⟨.quoted, field, fields, rows⟩ c = ⟨.quoted, c :: field, fields, rows⟩ := by
          simp [step, push, other]
        rw [List.foldl_cons, pushed]
        exact ih

/-- A written field is read whole. Behind an empty one the reader is still at its beginning. -/
theorem foldl_writeField {mode : Mode} (begins : Begins mode) (text : String) :
    ∃ mode', (writeField text).foldl step ⟨mode, [], fields, rows⟩ =
        ⟨mode', text.toList.reverse, fields, rows⟩ ∧
      (mode' = .bare ∨ mode' = .closing ∨ mode' = mode ∧ text = "") := by
  unfold writeField
  split
  · refine ⟨.closing, ?_, .inr (.inl rfl)⟩
    rw [List.foldl_cons, step_quote begins, List.foldl_append, foldl_doubleQuotes,
      List.append_nil]
    rfl
  · rename_i plain
    rw [Bool.not_eq_true] at plain
    cases characters : text.toList with
    | nil =>
        have empty : text = "" := String.toList_inj.1 characters
        exact ⟨mode, rfl, .inr (.inr ⟨rfl, empty⟩)⟩
    | cons c rest =>
        rw [characters, List.any_cons, Bool.or_eq_false_iff] at plain
        refine ⟨.bare, ?_, .inl rfl⟩
        rw [List.foldl_cons, step_begin begins plain.1, foldl_bare plain.2, List.reverse_cons]

theorem foldl_writeFields {mode : Mode} (begins : Begins mode) {row : List String}
    (some_field : row ≠ []) (shows : mode = .rowStart → row ≠ [""]) :
    (writeFields row ++ ['\r', '\n']).foldl step ⟨mode, [], fields, rows⟩ =
      ⟨.rowStart, [], [], (fields.reverse ++ row) :: rows⟩ := by
  -- Behind a comma the reader is past the start of the row, so that `shows` is only about the
  -- first field: an empty one, alone in its row, would be read as a blank row.
  induction row generalizing mode fields with
  | nil => exact absurd rfl some_field
  | cons text rest ih =>
      obtain ⟨mode', read, left⟩ := @foldl_writeField fields rows mode begins text
      cases rest with
      | nil =>
          have ends : Ends mode' := by
            rcases left with bare | closed | ⟨rfl, empty⟩
            · exact .inl bare
            · exact .inr (.inl closed)
            · rcases begins with atRow | atField
              · exact absurd (congrArg (· :: []) empty) (shows atRow)
              · exact .inr (.inr atField)
          rw [writeFields, List.foldl_append, read, foldl_lineEnd ends, List.reverse_reverse,
            String.ofList_toList, List.reverse_cons]
      | cons next others =>
          have ready : Begins mode' ∨ Ends mode' := by
            rcases left with bare | closed | ⟨rfl, -⟩
            · exact .inr (.inl bare)
            · exact .inr (.inr (.inl closed))
            · exact .inl begins
          rw [writeFields_cons, List.append_assoc, List.foldl_append, read, List.cons_append,
            List.foldl_cons, step_comma ready, List.reverse_reverse, String.ofList_toList,
            ih (.inr rfl) (List.cons_ne_nil next others) nofun, List.reverse_cons,
            List.append_assoc, List.singleton_append]

theorem foldl_writeRow (row : List String) :
    (writeRow row).foldl step ⟨.rowStart, [], [], rows⟩ = ⟨.rowStart, [], [], row :: rows⟩ := by
  unfold writeRow
  split
  · rename_i blank
    rw [blank]
    rfl
  · rename_i shows
    cases row with
    | nil => rfl
    | cons text rest =>
        exact foldl_writeFields (.inl rfl) (List.cons_ne_nil text rest) fun _ => shows

theorem foldl_writeRows (written : List (List String)) :
    (written.flatMap writeRow).foldl step ⟨.rowStart, [], [], rows⟩ =
      ⟨.rowStart, [], [], written.reverse ++ rows⟩ := by
  induction written generalizing rows with
  | nil => rfl
  | cons row rest ih =>
      rw [List.flatMap_cons, List.foldl_append, foldl_writeRow, ih, List.reverse_cons,
        List.append_assoc]
      rfl

end Reader

/-- Reading rows that were written gives them back, whatever characters are in them. -/
theorem readRows_writeRows (rows : List (List String)) : readRows (writeRows rows) = rows := by
  unfold readRows writeRows
  rw [String.toList_ofList]
  have read : (rows.flatMap writeRow).foldl Reader.step Reader.start =
      ⟨.rowStart, [], [], rows.reverse ++ []⟩ := Reader.foldl_writeRows rows
  rw [read, List.append_nil]
  exact List.reverse_reverse rows

theorem ofText_text {table : Table} (full : ∀ row ∈ table.rows, row ≠ []) :
    ofText table.text = table := by
  unfold ofText text
  rw [readRows_writeRows]
  have kept : (table.rows.filter fun row => !row.isEmpty) = table.rows := by
    rw [List.filter_eq_self]
    intro row member
    rw [Bool.not_eq_true', List.isEmpty_eq_false_iff]
    exact full row member
  change (⟨table.header, table.rows.filter fun row => !row.isEmpty⟩ : Table) = table
  rw [kept]

/-- Of entries with different keys, each sets its own. -/
theorem lookup_setEntries (fields entries : List (String × Document)) (name : String)
    (distinct : (fields.map (·.1)).Nodup) :
    (fields.foldl (fun entries field => setEntry field.1 field.2 entries) entries).lookup name =
      (fields.lookup name).or (entries.lookup name) := by
  induction fields generalizing entries with
  | nil => rfl
  | cons field rest ih =>
      obtain ⟨fresh, distinct⟩ := List.nodup_cons.1 distinct
      rw [List.foldl_cons, ih _ distinct, lookup_setEntry, List.lookup_cons]
      by_cases same : name = field.1
      · have absent : rest.lookup name = none := by
          rw [List.lookup_eq_none_iff]
          intro other member
          rw [bne_iff_ne]
          intro again
          exact fresh (List.mem_map.2 ⟨other, member, again.symm.trans same⟩)
        rw [if_pos same, absent, beq_iff_eq.2 same]
        rfl
      · rw [if_neg same, beq_eq_false_iff_ne.2 same]

theorem map_columns (header row : List String) : (columns header row).map (·.1) = header := by
  induction header generalizing row with
  | nil => rfl
  | cons name names ih =>
      cases row with
      | nil => exact congrArg (name :: ·) (ih [])
      | cons field fields => exact congrArg (name :: ·) (ih fields)

theorem lookup_columns {header row : List String} (distinct : header.Nodup) {i : Nat}
    {name field : String} (column : header[i]? = some name) (cell : row[i]? = some field) :
    (columns header row).lookup name = some (.text field) := by
  induction header generalizing row i with
  | nil => cases column
  | cons first names ih =>
      obtain ⟨fresh, distinct⟩ := List.nodup_cons.1 distinct
      cases row with
      | nil => cases cell
      | cons text fields =>
          rw [columns, List.lookup_cons]
          cases i with
          | zero =>
              cases column
              cases cell
              rw [beq_self_eq_true]
          | succ i =>
              have other : name ≠ first := by
                rintro rfl
                exact fresh (List.mem_of_getElem? column)
              rw [beq_eq_false_iff_ne.2 other]
              exact ih distinct column cell

/-- A row has its fields under the names of their columns. -/
theorem getOrNull_entry {header row : List String} (distinct : header.Nodup) {i : Nat}
    {name field : String} (column : header[i]? = some name) (cell : row[i]? = some field) :
    (entry header row).getOrNull name = .text field := by
  unfold entry Document.getOrNull Document.get?
  simp only
  rw [lookup_setEntries, lookup_columns distinct column cell]
  · rfl
  · rw [map_columns]
    exact distinct

end EvoSched.Table
