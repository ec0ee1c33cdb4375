import EvoSched.Proofs.Workspace.Frame
import EvoSched.Workspace.Tables

set_option autoImplicit false

namespace EvoSched.Workspace

variable {ws ws' : Workspace} {path : Path} {paths paths' : List Path}

/-- A file is at a place. -/
def HasFile (ws : Workspace) (place : List String) : Prop :=
  ∃ entry, ws.entryAt? place = some entry ∧ entry ≠ .directory

/-- Every entry of `ws` is in `ws'` as it was, except for files that some of the paths lead to,
which are files still. -/
structure Spares (paths : List Path) (ws ws' : Workspace) : Prop where
  spared (place : List String) (entry : Entry) : ws.entryAt? place = some entry →
    ws'.entryAt? place = some entry ∨
      ws.HasFile place ∧ ws'.HasFile place ∧ ∃ path ∈ paths, ws'.locate path = .place place
  grounded : ws.Grounded → ws'.Grounded

namespace Spares

theorem of_paves (paves : Paves path ws ws') : Spares paths ws ws' where
  spared place entry present := .inl (paves.kept place entry present)
  grounded := paves.grounded

theorem mono (subset : paths ⊆ paths') (spares : Spares paths ws ws') : Spares paths' ws ws' where
  spared place entry present := by
    rcases spares.spared place entry present with kept | ⟨before, after, path, member, found⟩
    · exact .inl kept
    · exact .inr ⟨before, after, path, subset member, found⟩
  grounded := spares.grounded

/-- Directories stay. -/
theorem directory (spares : Spares paths ws ws') {place : List String}
    (present : ws.entryAt? place = some .directory) : ws'.entryAt? place = some .directory := by
  rcases spares.spared place .directory present with kept | ⟨⟨entry, same, file⟩, -⟩
  · exact kept
  · rw [present] at same
    cases same
    exact absurd rfl file

/-- So do places of paths. -/
theorem locate (spares : Spares paths ws ws') {place : List String}
    (found : ws.locate path = .place place) : ws'.locate path = .place place :=
  locate_of_directories (fun _ => spares.directory) found

/-- Files stay files. -/
theorem hasFile (spares : Spares paths ws ws') {place : List String} (file : ws.HasFile place) :
    ws'.HasFile place := by
  obtain ⟨entry, present, other⟩ := file
  rcases spares.spared place entry present with kept | ⟨-, after, -⟩
  · exact ⟨entry, kept, other⟩
  · exact after

/-- An entry stays as it is if no path leads to it. -/
theorem kept (spares : Spares paths ws ws') {place : List String} {entry : Entry}
    (present : ws.entryAt? place = some entry)
    (aside : ∀ path ∈ paths, ws'.locate path ≠ .place place) :
    ws'.entryAt? place = some entry := by
  rcases spares.spared place entry present with kept | ⟨-, -, path, member, found⟩
  · exact kept
  · exact absurd found (aside path member)

end Spares

instance : Std.Refl (Spares paths) where
  refl _ := ⟨fun _ _ present => .inl present, id⟩

instance : IsTrans Workspace (Spares paths) where
  trans ws ws' ws'' first second := by
    refine ⟨fun place entry present => ?_, second.grounded ∘ first.grounded⟩
    -- A file that both change is counted with the path of the first, which still leads to it.
    rcases first.spared place entry present with same | ⟨before, middle, path, member, found⟩
    · rcases second.spared place entry same with same' | ⟨⟨old, still, file⟩, after, changed⟩
      · exact .inl same'
      · rw [same] at still
        cases still
        exact .inr ⟨⟨entry, present, file⟩, after, changed⟩
    · exact .inr ⟨before, second.hasFile middle, path, member, second.locate found⟩

theorem spares_put {names : List String} {entry : Entry} (found : ws.locate path = .place names)
    (other : ws.entryAt? names ≠ some .directory) (file : entry ≠ .directory) :
    Spares [path] ws (ws.put names entry) := by
  have inner : isStart names = false := isStart_of_ne other
  have stay (place : List String) (present : ws.entryAt? place = some .directory) :
      (ws.put names entry).entryAt? place = some .directory := by
    rw [entryAt?_put names entry place inner, if_neg]
    · exact present
    · rintro rfl
      exact other present
  refine ⟨fun place old present => ?_, fun grounded => grounded.put inner stay found⟩
  rw [entryAt?_put names entry place inner]
  split
  · rename_i same
    subst same
    refine .inr ⟨⟨old, present, ?_⟩, ⟨entry, ?_, file⟩, path, List.mem_singleton_self path, ?_⟩
    · rintro rfl
      exact other present
    · exact entryAt?_put_self ws entry inner
    · exact locate_of_directories stay found
  · exact .inl present

theorem moves_of_mem {β : Type} {act : FilesM β} (moves : Moves (Spares [path]) act)
    (member : path ∈ paths) : Moves (Spares paths) act :=
  moves.mono fun _ _ => .mono (List.cons_subset.2 ⟨member, List.nil_subset paths⟩)

theorem moves_write {entry : Entry} (file : entry ≠ .directory) :
    Moves (Spares [path]) (write path entry) := by
  intro ws
  unfold write
  split
  · rename_i names found
    split
    · exact refl ws
    · rename_i other
      exact spares_put found (fun directory => other directory) file
  · exact refl ws
  · exact refl ws
  · exact refl ws
  · exact refl ws

theorem moves_refuse {rel : Workspace → Workspace → Prop} [Std.Refl rel] [IsTrans Workspace rel]
    (path : Path) (overwrite : Bool) (fault : Fault) : Moves rel (refuse path overwrite fault) := by
  refine .bind .get fun ws => .bind .ofResult fun found => ?_
  split
  · exact .throw
  · exact .pure

theorem moves_prepare (path : Path) (overwrite : Bool) :
    Moves (Paves path.parent) (prepare path overwrite) :=
  (moves_refuse path overwrite _).bind fun _ => moves_makeDirectory path.parent true

theorem moves_createRoot (path : Path) (overwrite : Bool) :
    Moves (Paves path) (createRoot path overwrite) :=
  (moves_refuse path overwrite _).bind fun _ => moves_makeDirectory path overwrite

theorem moves_save (path : Path) (overwrite : Bool) {entry : Entry} (file : entry ≠ .directory) :
    Moves (Spares [path]) (save path overwrite entry) :=
  ((moves_prepare path overwrite).mono fun _ _ => .of_paves).bind fun _ => moves_write file

theorem moves_saveTable (path : Path) (overwrite : Bool) (table : Table) :
    Moves (Spares [path]) (saveTable path overwrite table) :=
  moves_save path overwrite nofun

theorem moves_saveRows (path : Path) (overwrite : Bool) (header : List String)
    (made : List (List String) × Option Fault) :
    Moves (Spares [path]) (saveRows path overwrite header made) := by
  refine (moves_saveTable path overwrite _).bind fun _ => ?_
  split
  · exact .pure
  · exact .throw

theorem contains_of_entry {names : List String} {entry : Entry}
    (found : ws.locate path = .place names) (present : ws.entryAt? names = some entry) :
    ws.contains path = .ok true := by
  unfold contains lookup
  rw [found]
  change Except.ok (ws.entryAt? names).isSome = .ok true
  rw [present]
  rfl

theorem refuse_eq (path : Path) (overwrite : Bool) (fault : Fault) (ws : Workspace) :
    refuse path overwrite fault ws =
      match ws.contains path with
      | .error other => .error other ws
      | .ok found => if (found && !overwrite) = true then .error fault ws else .ok () ws := by
  change (ofResult (ws.contains path) >>= fun found =>
    if (found && !overwrite) = true then throw fault else pure ()) ws = _
  cases ws.contains path with
  | error other => rfl
  | ok found => cases found <;> cases overwrite <;> rfl

theorem refuse_eq_ok {overwrite : Bool} {fault : Fault} :
    refuse path overwrite fault ws = .ok () ws' ↔
      ws' = ws ∧ ∃ found, ws.contains path = .ok found ∧ (found = true → overwrite = true) := by
  rw [refuse_eq]
  cases ws.contains path with
  | error other => simp
  | ok found => cases found <;> cases overwrite <;> simp [eq_comm]

theorem refuse_of_found {fault : Fault} (found : ws.contains path = .ok true) :
    refuse path false fault ws = .error fault ws := by
  rw [refuse_eq, found]
  rfl

/-- The root of a run is a directory then. Unless it may be overwritten, it is a new one. -/
theorem createRoot_eq_ok {overwrite : Bool} (success : createRoot path overwrite ws = .ok () ws') :
    ∃ names, ws'.locate path = .place names ∧ ws'.entryAt? names = some .directory ∧
      (overwrite = false → ws.entryAt? names = none) := by
  obtain ⟨_, ws₁, free, made⟩ := bind_eq_ok.1 success
  obtain ⟨rfl, -⟩ := refuse_eq_ok.1 free
  exact makeDirectory_eq_ok made

end EvoSched.Workspace
