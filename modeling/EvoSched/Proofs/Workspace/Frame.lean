import EvoSched.Proofs.Effects
import EvoSched.Workspace

set_option autoImplicit false

namespace EvoSched

/-- The path of the first `count` parts. -/
def Path.upTo (path : Path) (count : Nat) : Path := { path with parts := path.parts.take count }

@[simp] theorem Path.upTo_slashes (path : Path) (count : Nat) :
    (path.upTo count).slashes = path.slashes := rfl

@[simp] theorem Path.upTo_parts (path : Path) (count : Nat) :
    (path.upTo count).parts = path.parts.take count := rfl

theorem Path.upTo_length (path : Path) : path.upTo path.parts.length = path := by
  rw [upTo, List.take_length]

namespace Workspace

/-- A workspace without files in which no text stands for a document. -/
def bare : Workspace := .new fun _ => none

variable {ws ws' : Workspace} {path : Path}

theorem entryAt?_of_isStart {place : List String} (start : isStart place = true) :
    ws.entryAt? place = some .directory := if_pos start

theorem isStart_of_ne {place : List String} (absent : ws.entryAt? place ≠ some .directory) :
    isStart place = false := by
  by_contra start
  exact absent (entryAt?_of_isStart (eq_true_of_ne_false start))

/-- Following names to a place, and then more of them. -/
theorem walk_append {here names there : List String} (found : ws.walk here names = .place there)
    (rest : List String) : ws.walk here (names ++ rest) = ws.walk there rest := by
  induction names generalizing here with
  | nil =>
      cases found
      rfl
  | cons name names ih =>
      rw [List.cons_append, walk]
      rw [walk] at found
      split at found
      · split at found
        · rename_i up
          rw [if_pos up]
          exact ih found
        · rename_i down
          rw [if_neg down]
          split at found
          · cases found
          · rename_i short
            rw [if_neg short]
            exact ih found
      · cases found
      · cases found

/-- As long as all directories stay, names lead where they led. -/
theorem walk_of_directories
    (stay : ∀ place, ws.entryAt? place = some .directory → ws'.entryAt? place = some .directory)
    {here names place : List String} (found : ws.walk here names = .place place) :
    ws'.walk here names = .place place := by
  induction names generalizing here with
  | nil => exact found
  | cons name names ih =>
      rw [walk] at found ⊢
      split at found
      · rename_i directory
        rw [stay here directory]
        simp only
        split at found
        · rename_i up
          rw [if_pos up]
          exact ih found
        · rename_i down
          rw [if_neg down]
          split at found
          · cases found
          · rename_i short
            rw [if_neg short]
            exact ih found
      · cases found
      · cases found

theorem locate_of_directories
    (stay : ∀ place, ws.entryAt? place = some .directory → ws'.entryAt? place = some .directory)
    {place : List String} (found : ws.locate path = .place place) :
    ws'.locate path = .place place := by
  unfold locate at found ⊢
  split at found
  · cases found
  · rename_i whole
    rw [if_neg whole]
    split at found
    · cases found
    · rename_i short
      rw [if_neg short]
      exact walk_of_directories stay found

/-- Where the names of a path lead, if it has a place. -/
theorem walk_of_locate {place : List String} (found : ws.locate path = .place place) :
    ws.walk (if path.slashes = 0 then [] else ["/"]) path.parts = .place place := by
  unfold locate at found
  split at found
  · cases found
  · split at found
    · cases found
    · exact found

theorem walk_of_missing (missing : ws.locate path = .missing) :
    ws.walk (if path.slashes = 0 then [] else ["/"]) path.parts = .missing := by
  unfold locate at missing
  split at missing
  · cases missing
  · split at missing
    · cases missing
    · exact missing

/-- A name in a directory leads one step further. -/
theorem locate_child {here place : List String} {name : String} (down : name ≠ "..")
    (found : ws.locate path = .place here) (directory : ws.entryAt? here = some .directory)
    (child : ws.locate (path.child name) = .place place) : place = here ++ [name] := by
  have walked := walk_of_locate child
  have parts : (path.child name).parts = path.parts ++ [name] := rfl
  have slashes : (path.child name).slashes = path.slashes := rfl
  rw [parts, slashes, walk_append (walk_of_locate found)] at walked
  simp only [walk, directory, if_neg down] at walked
  split at walked
  · cases walked
  · cases walked
    rfl

/-- What is at a place is in a directory. -/
def Grounded (ws : Workspace) : Prop :=
  ∀ place entry, ws.entryAt? place = some entry → isStart place = false →
    ws.entryAt? (above place) = some .directory

theorem isStart_append (here : List String) {name : String} (down : name ≠ "..")
    (named : name ≠ "/") : isStart (here ++ [name]) = false := by
  rw [isStart, List.all_append, List.all_cons, beq_false_of_ne down, Bool.false_and,
    Bool.and_false, Bool.or_false, beq_eq_false_iff_ne]
  intro root
  cases here with
  | nil => exact named (List.singleton_injective root)
  | cons first rest => simp at root

theorem isStart_above {place : List String} (start : isStart place = true) :
    isStart (above place) = true := by
  unfold above
  split
  · exact start
  · rename_i below
    have up : place.all (· == "..") = true := by
      rw [isStart, Bool.or_eq_true] at start
      exact start.resolve_left below
    rw [isStart, List.all_append, up]
    exact Bool.or_true _

theorem above_append {here : List String} {name : String}
    (inner : isStart (here ++ [name]) = false) : above (here ++ [name]) = here := by
  unfold above
  rw [if_neg, if_neg, List.dropLast_concat]
  · rw [inner]
    nofun
  · intro root
    rw [isStart, root] at inner
    cases inner

theorem grounded_of_entries
    (each : ∀ item ∈ ws.entries, isStart item.1 = false →
      ws.entryAt? (above item.1) = some .directory) : ws.Grounded := by
  intro place entry present inner
  rw [entryAt?, inner, if_neg Bool.false_ne_true, List.lookup_eq_some_iff] at present
  obtain ⟨before, rest, entries, -⟩ := present
  refine each (place, entry) ?_ inner
  rw [entries]
  exact List.mem_append_right _ List.mem_cons_self

/-- Where nothing is, nothing is in it. -/
theorem Grounded.absent (grounded : ws.Grounded) {here : List String} {name : String}
    (inner : isStart (here ++ [name]) = false)
    (absent : ws.entryAt? here = none) : ws.entryAt? (here ++ [name]) = none := by
  cases present : ws.entryAt? (here ++ [name]) with
  | none => rfl
  | some entry =>
      have around := grounded _ entry present inner
      rw [above_append inner, absent] at around
      cases around

/-- A place to which names lead is a start, or it is in a directory. -/
theorem Grounded.walk (grounded : ws.Grounded) {here names place : List String}
    (around : isStart here = true ∨ ws.entryAt? (above here) = some .directory)
    (found : ws.walk here names = .place place) :
    isStart place = true ∨ ws.entryAt? (above place) = some .directory := by
  -- What carries the induction is where the walk has come to: down it is in a directory, and up
  -- again it is where `grounded` puts a directory.
  induction names generalizing here with
  | nil =>
      cases found
      exact around
  | cons name names ih =>
      rw [Workspace.walk] at found
      split at found
      · rename_i directory
        split at found
        · refine ih ?_ found
          cases start : isStart here with
          | true => exact .inl (isStart_above start)
          | false =>
              rw [start] at around
              cases outer : isStart (above here) with
              | true => exact .inl rfl
              | false => exact .inr (grounded _ _ (around.resolve_left nofun) outer)
        · split at found
          · cases found
          · refine ih ?_ found
            cases start : isStart (here ++ [name]) with
            | true => exact .inl rfl
            | false =>
                rw [above_append start]
                exact .inr directory
      · cases found
      · cases found

theorem entryAt?_put (names : List String) (entry : Entry) (place : List String)
    (inner : isStart names = false) :
    (ws.put names entry).entryAt? place =
      if place = names then some entry else ws.entryAt? place := by
  split
  · rename_i same
    rw [same]
    exact entryAt?_put_self ws entry inner
  · rename_i other
    exact entryAt?_put_of_ne ws entry other

/-- An entry may be put where a path leads, if all directories stay. -/
theorem Grounded.put (grounded : ws.Grounded) {names : List String} {entry : Entry}
    (inner : isStart names = false)
    (stay : ∀ place, ws.entryAt? place = some .directory →
      (ws.put names entry).entryAt? place = some .directory)
    (found : ws.locate path = .place names) : (ws.put names entry).Grounded := by
  intro place old present start
  rw [entryAt?_put names entry place inner] at present
  split at present
  · rename_i same
    subst same
    have begins : isStart (if path.slashes = 0 then [] else ["/"]) = true := by
      split <;> rfl
    rcases grounded.walk (.inl begins) (walk_of_locate found) with absurd | around
    · rw [inner] at absurd
      cases absurd
    · exact stay _ around
  · exact stay _ (grounded place old present start)

/-- `ws'` is `ws` with directories added on the way along a path. -/
structure Paves (path : Path) (ws ws' : Workspace) : Prop where
  kept (place : List String) (entry : Entry) :
    ws.entryAt? place = some entry → ws'.entryAt? place = some entry
  added (place : List String) (entry : Entry) : ws'.entryAt? place = some entry →
    ws.entryAt? place = some entry ∨
      ws.entryAt? place = none ∧ entry = .directory ∧
        ∃ count, ws'.locate (path.upTo count) = .place place
  grounded : ws.Grounded → ws'.Grounded

theorem Paves.locate {path other : Path} {place : List String} (paves : Paves path ws ws')
    (found : ws.locate other = .place place) : ws'.locate other = .place place :=
  locate_of_directories (fun place => paves.kept place .directory) found

theorem Paves.absent {path : Path} {place : List String} (paves : Paves path ws ws')
    (absent : ws'.entryAt? place = none) : ws.entryAt? place = none := by
  cases before : ws.entryAt? place with
  | none => rfl
  | some entry =>
      rw [paves.kept place entry before] at absent
      cases absent

instance : Std.Refl (Paves path) where
  refl _ := ⟨fun _ _ present => present, fun _ _ present => .inl present, id⟩

instance : IsTrans Workspace (Paves path) where
  trans ws ws' ws'' first second := by
    refine ⟨fun place entry present => second.kept place entry (first.kept place entry present),
      fun place entry present => ?_, second.grounded ∘ first.grounded⟩
    rcases second.added place entry present with middle | ⟨absent, directory, way⟩
    · rcases first.added place entry middle with old | ⟨absent, directory, count, way⟩
      · exact .inl old
      · exact .inr ⟨absent, directory, count, second.locate way⟩
    · exact .inr ⟨first.absent absent, directory, way⟩

theorem paves_put {names : List String} {count : Nat}
    (found : ws.locate (path.upTo count) = .place names) (absent : ws.entryAt? names = none) :
    Paves path ws (ws.put names .directory) := by
  have inner : isStart names = false := isStart_of_ne (by rw [absent]; nofun)
  have kept (place : List String) (entry : Entry) (present : ws.entryAt? place = some entry) :
      (ws.put names .directory).entryAt? place = some entry := by
    rw [entryAt?_put names .directory place inner, if_neg]
    · exact present
    · rintro rfl
      rw [absent] at present
      cases present
  have stay (place : List String) := kept place .directory
  refine ⟨kept, fun place entry present => ?_, fun grounded => grounded.put inner stay found⟩
  rw [entryAt?_put names .directory place inner] at present
  split at present
  · rename_i same
    cases present
    subst same
    exact .inr ⟨absent, rfl, count, locate_of_directories stay found⟩
  · exact .inl present

theorem moves_makeOne (path : Path) (count : Nat) (welcome : Bool) :
    Moves (Paves path) (makeOne (path.upTo count) welcome) := by
  intro ws
  unfold makeOne
  split
  · exact refl ws
  · exact refl ws
  · exact refl ws
  · exact refl ws
  · rename_i names found
    split
    · rename_i absent
      exact paves_put found absent
    · split
      · exact refl ws
      · exact refl ws
    · exact refl ws

theorem moves_makeFirst (path : Path) (count : Nat) (welcome : Bool) :
    Moves (Paves path) (makeFirst path count welcome) := by
  induction count generalizing welcome with
  | zero => exact (moves_makeOne path 0 welcome).discard
  | succ count ih =>
      refine (moves_makeOne path (count + 1) welcome).bind fun made => ?_
      cases made with
      | true => exact .pure
      | false => exact (ih true).bind fun _ => (moves_makeOne path (count + 1) welcome).discard

theorem moves_makeDirectory (path : Path) (welcome : Bool) :
    Moves (Paves path) (makeDirectory path welcome) :=
  moves_makeFirst path path.parts.length welcome

theorem makeOne_eq_ok {welcome made : Bool} (success : makeOne path welcome ws = .ok made ws') :
    made = false ∧ ws.locate path = .missing ∨
      made = true ∧ ∃ names, ws'.locate path = .place names ∧
        ws'.entryAt? names = some .directory ∧ (welcome = false → ws.entryAt? names = none) := by
  unfold makeOne at success
  split at success
  · rename_i missing
    cases success
    exact .inl ⟨rfl, missing⟩
  · cases success
  · cases success
  · cases success
  · rename_i names found
    right
    split at success
    · rename_i absent
      cases success
      have inner : isStart names = false := isStart_of_ne (by rw [absent]; nofun)
      have whole : ws.locate (path.upTo path.parts.length) = .place names := by
        rwa [path.upTo_length]
      have paves : Paves path ws (ws.put names .directory) := paves_put whole absent
      exact ⟨rfl, names, paves.locate found, entryAt?_put_self ws .directory inner, fun _ => absent⟩
    · rename_i directory
      split at success
      · rename_i wanted
        cases success
        refine ⟨rfl, names, found, directory, fun unwelcome => ?_⟩
        rw [unwelcome] at wanted
        cases wanted
      · cases success
    · cases success

/-- One step behind a directory, the way along a path is not missing. -/
theorem locate_ne_missing {count : Nat} {names : List String}
    (found : ws.locate (path.upTo count) = .place names)
    (directory : ws.entryAt? names = some .directory) :
    ws.locate (path.upTo (count + 1)) ≠ .missing := by
  intro missing
  have walked := walk_of_missing missing
  have way := walk_of_locate found
  rw [Path.upTo_slashes, Path.upTo_parts] at walked way
  rw [List.take_add_one, walk_append way] at walked
  cases next : path.parts[count]? with
  | none =>
      rw [next] at walked
      cases walked
  | some name =>
      rw [next] at walked
      simp only [Option.toList_some, walk, directory] at walked
      split at walked
      · cases walked
      · split at walked
        · cases walked
        · cases walked

theorem discard_eq_ok {β : Type} {act : FilesM β} (success : discard act ws = .ok () ws') :
    ∃ x, act ws = .ok x ws' := by
  change act.map _ ws = .ok () ws' at success
  unfold EStateM.map at success
  split at success
  · rename_i x t result
    cases success
    exact ⟨x, result⟩
  · cases success

theorem makeFirst_eq_ok {count : Nat} {welcome : Bool}
    (success : makeFirst path count welcome ws = .ok () ws') :
    ∃ names, ws'.locate (path.upTo count) = .place names ∧
      ws'.entryAt? names = some .directory ∧ (welcome = false → ws.entryAt? names = none) := by
  -- A way that is missing is made up to its last name, and the name is tried again. It cannot be
  -- missing a second time.
  induction count generalizing ws ws' welcome with
  | zero =>
      obtain ⟨made, result⟩ := discard_eq_ok success
      rcases makeOne_eq_ok result with ⟨-, missing⟩ | ⟨-, there⟩
      · cases walk_of_missing missing
      · exact there
  | succ count ih =>
      obtain ⟨made, ws₁, first, rest⟩ := bind_eq_ok.1 success
      rcases makeOne_eq_ok first with ⟨rfl, -⟩ | ⟨rfl, there⟩
      · obtain ⟨_, ws₂, begun, ended⟩ := bind_eq_ok.1 rest
        obtain ⟨made, result⟩ := discard_eq_ok ended
        obtain ⟨above, way, directory, -⟩ := ih begun
        rcases makeOne_eq_ok result with ⟨-, missing⟩ | ⟨-, names, found, there, fresh⟩
        · exact absurd missing (locate_ne_missing way directory)
        · refine ⟨names, found, there, fun unwelcome => ?_⟩
          have paves : Paves path ws ws₂ :=
            IsTrans.trans ws ws₁ ws₂ ((moves_makeOne path _ welcome).of_eq_ok first)
              ((moves_makeFirst path count true).of_eq_ok begun)
          exact paves.absent (fresh unwelcome)
      · cases rest
        exact there

/-- A directory that was made is there, and if it was not welcome there was nothing before. -/
theorem makeDirectory_eq_ok {welcome : Bool}
    (success : makeDirectory path welcome ws = .ok () ws') :
    ∃ names, ws'.locate path = .place names ∧ ws'.entryAt? names = some .directory ∧
      (welcome = false → ws.entryAt? names = none) := by
  have made := makeFirst_eq_ok success
  rwa [path.upTo_length] at made

end Workspace

end EvoSched
