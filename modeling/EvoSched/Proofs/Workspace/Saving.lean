import EvoSched.Proofs.Table
import EvoSched.Proofs.Workspace.Writing

set_option autoImplicit false

namespace EvoSched

/-- No field of a table is too long to be read, those of the header included. -/
def Table.fits (table : Table) : Bool := (table.header :: table.rows).all isReadable

namespace Workspace

variable {ws ws' : Workspace} {path : Path} {entry : Entry}

/-- The path leads to the entry. -/
def Holds (ws : Workspace) (path : Path) (entry : Entry) : Prop :=
  ∃ names, ws.locate path = .place names ∧ ws.entryAt? names = some entry

theorem holds_of_write (file : entry ≠ .directory) (success : write path entry ws = .ok () ws') :
    ws'.Holds path entry := by
  unfold write at success
  split at success
  · rename_i names found
    split at success
    · cases success
    · rename_i other
      cases success
      have spares := spares_put found (fun directory => other directory) file
      exact ⟨names, spares.locate found,
        entryAt?_put_self ws entry (isStart_of_ne fun directory => other directory)⟩
  · cases success
  · cases success
  · cases success
  · cases success

theorem holds_of_save {overwrite : Bool} (file : entry ≠ .directory)
    (success : save path overwrite entry ws = .ok () ws') : ws'.Holds path entry := by
  obtain ⟨_, ws₁, -, written⟩ := bind_eq_ok.1 success
  exact holds_of_write file written

variable {header : List String} {lines : List (List String)} {overwrite : Bool}

theorem saveRows_of_complete :
    saveRows path overwrite header (lines, none) = saveTable path overwrite ⟨header, lines⟩ :=
  bind_pure (saveTable path overwrite ⟨header, lines⟩)

/-- A row that faults leaves the table of the rows before it. -/
theorem saveRows_of_fault {fault : Fault}
    (saved : saveTable path overwrite ⟨header, lines⟩ ws = .ok () ws') :
    saveRows path overwrite header (lines, some fault) ws = .error fault ws' :=
  (bind_of_ok saved).trans rfl

/-- Rows are saved if all of them could be made. -/
theorem saveRows_eq_ok {made : List (List String) × Option Fault}
    (success : saveRows path overwrite header made ws = .ok () ws') :
    ∃ lines, made = (lines, none) ∧ ws'.Holds path (.text (Table.text ⟨header, lines⟩)) := by
  obtain ⟨lines, fault⟩ := made
  obtain ⟨_, ws₁, saved, rest⟩ := bind_eq_ok.1 success
  cases fault with
  | some fault => cases rest
  | none =>
      cases rest
      exact ⟨lines, rfl, holds_of_save nofun saved⟩

theorem holds_of_createRoot {overwrite : Bool}
    (success : createRoot path overwrite ws = .ok () ws') : ws'.Holds path .directory := by
  obtain ⟨names, found, directory, -⟩ := createRoot_eq_ok success
  exact ⟨names, found, directory⟩

namespace Holds

theorem loadFile (holds : ws.Holds path entry) (file : entry ≠ .directory) :
    ws.loadFile path = .ok entry := by
  obtain ⟨names, found, present⟩ := holds
  unfold Workspace.loadFile
  rw [found]
  cases entry with
  | directory => exact absurd rfl file
  | text s => simp only [present]
  | document d => simp only [present]
  | figure f => simp only [present]

theorem findFile (holds : ws.Holds path entry) (file : entry ≠ .directory) (missing : Fault) :
    ws.findFile path missing = .ok entry := by
  have ⟨names, found, present⟩ := holds
  unfold Workspace.findFile
  rw [contains_of_entry found present]
  exact holds.loadFile file

section

variable {given : String} {d : Document} (holds : ws.Holds (Path.ofText given) entry)
  (contains : ws.documentIn entry = .ok (some d))

include holds contains

theorem findDocument (missing : Fault) :
    ws.findFile (Path.ofText given) missing = .ok entry := by
  refine holds.findFile ?_ missing
  rintro rfl
  cases contains

/-- The entries of a document file that holds a map. -/
theorem loadEntries {entries : List (String × Document)} (shape : d = .map entries) :
    ws.loadEntries given = .ok entries := by
  refine result_bind_eq_ok.2 ⟨entry, holds.findDocument contains _, ?_⟩
  exact result_bind_eq_ok.2 ⟨some d, contains, by rw [shape]⟩

/-- A document file that holds anything else is rejected. -/
theorem loadEntries_of_other (other : ∀ entries, d ≠ .map entries) :
    ∃ why, ws.loadEntries given = .error (.invalid why) := by
  unfold Workspace.loadEntries
  simp only [holds.findDocument contains, contains, bind, Except.bind]
  cases d with
  | null => exact ⟨_, rfl⟩
  | map entries => exact absurd rfl (other entries)
  | _ => exact ⟨_, rfl⟩

end

theorem directory {paths : List Path} (holds : ws.Holds path .directory)
    (spares : Spares paths ws ws') : ws'.Holds path .directory := by
  obtain ⟨names, found, present⟩ := holds
  exact ⟨names, spares.locate found, spares.directory present⟩

/-- A file in a directory is none of those that have other names in it. -/
theorem kept {root : Path} {name : String} (names : List String) (down : name ≠ "..")
    (aside : ∀ other ∈ names, other ≠ ".." ∧ other ≠ name)
    (holds : ws.Holds (root.child name) entry) (there : ws.Holds root .directory)
    (spares : Spares (names.map root.child) ws ws') : ws'.Holds (root.child name) entry := by
  obtain ⟨here, found, directory⟩ := there
  obtain ⟨place, leads, present⟩ := holds
  obtain rfl := locate_child down found directory leads
  refine ⟨_, spares.locate leads, spares.kept present ?_⟩
  intro path member same
  obtain ⟨other, among, rfl⟩ := List.mem_map.1 member
  obtain ⟨otherDown, different⟩ := aside other among
  have places :=
    locate_child otherDown (spares.locate found) (spares.directory directory) same
  exact different (List.singleton_injective (List.append_cancel_left places)).symm

/-- A table file with the columns that are asked for is loaded row by row, if its fields can be
read. -/
theorem loadTable_ofText {text : String} {required : List String}
    (holds : ws.Holds path (.text text))
    (columns : (Table.ofText text).hasColumns required = true) :
    ws.loadTable path required =
      if (Table.ofText text).fits then .ok (Table.ofText text).entries
      else .error (.fieldTooLong Table.fieldLimit) := by
  unfold Workspace.loadTable Table.fits
  rw [holds.findFile nofun, List.all_cons]
  change (if (!Table.isReadable (Table.ofText text).header) = true then _
    else if (!(Table.ofText text).hasColumns required) = true then _ else _) = _
  rw [columns]
  cases Table.isReadable (Table.ofText text).header with
  | false => rfl
  | true =>
      change (if (!(Table.ofText text).rows.all Table.isReadable) = true then _ else _) = _
      cases (Table.ofText text).rows.all Table.isReadable with
      | false => rfl
      | true => rfl

/-- A saved table is loaded, row by row. -/
theorem loadTable {table : Table} {required : List String}
    (holds : ws.Holds path (.text table.text)) (full : ∀ row ∈ table.rows, row ≠ [])
    (columns : table.hasColumns required = true)
    (readable : ∀ row ∈ table.header :: table.rows, Table.isReadable row = true) :
    ws.loadTable path required = .ok table.entries := by
  have same := Table.ofText_text full
  have fits : table.fits = true := List.all_eq_true.2 readable
  rw [holds.loadTable_ofText (by rwa [same]), same, if_pos fits]

end Holds

end Workspace

end EvoSched
