import EvoSched.Chart
import EvoSched.Sequence
import EvoSched.Workspace.Path

set_option autoImplicit false

namespace EvoSched

inductive Entry where
  | directory
  | text (s : String)
  | document (d : Document)
  | figure (f : Figure Float)

namespace Entry

/-- The text of a file that was written as text. -/
def text? : Entry → Option String
  | text s => some s
  | _ => none

end Entry

/-- Entries by place: the names on the way from the working directory, with two dots for each step
above it, or from the root, whose name is a slash. -/
structure Workspace where
  entries : List (List String × Entry)
  /-- The document that a text stands for, if it stands for one. -/
  parse : String → Option Document

/-- A computation on the files. A fault leaves what was written before it. -/
abbrev FilesM (β : Type) := EStateM Fault Workspace β

namespace Workspace

/-- A workspace without files, in which texts are read in a notation for documents. -/
def new (parse : String → Option Document) : Workspace := ⟨[], parse⟩

/-- Where places start: at the working directory, somewhere above it, or at the root. -/
def isStart (place : List String) : Bool := place == ["/"] || place.all (· == "..")

/-- The entry at a place. The directories where places start are always there. -/
def entryAt? (ws : Workspace) (place : List String) : Option Entry :=
  if isStart place then some .directory else ws.entries.lookup place

/-- The place of the directory above. The root is above itself. -/
def above (place : List String) : List String :=
  if place == ["/"] then place
  else if isStart place then place ++ [".."]
  else place.dropLast

/-- Where a path leads. -/
inductive Lead where
  | place (names : List String)
  | missing
  | blocked
  /-- To a name that no file can have for its length, or the path is too long itself. -/
  | tooLong
  /-- Nowhere: a null character ends the path too early. -/
  | cut
  deriving DecidableEq, Repr

def walk (ws : Workspace) : List String → List String → Lead
  | here, [] => .place here
  | here, name :: rest =>
    match ws.entryAt? here with
    | some .directory =>
      if name = ".." then ws.walk (above here) rest
      else if Path.maxName < name.utf8ByteSize then .tooLong
      else ws.walk (here ++ [name]) rest
    | some _ => .blocked
    | none => .missing

def locate (ws : Workspace) (path : Path) : Lead :=
  if path.isCut then .cut
  else if Path.maxBytes < path.text.utf8ByteSize then .tooLong
  else ws.walk (if path.slashes = 0 then [] else ["/"]) path.parts

/-- The entry at a path, if one is there. Whether it is cannot be told where a name is too long. -/
def lookup (ws : Workspace) (path : Path) : Except Fault (Option Entry) :=
  match ws.locate path with
  | .place names => .ok (ws.entryAt? names)
  | .missing | .blocked | .cut => .ok none
  | .tooLong => .error (.nameTooLong path.text)

def contains (ws : Workspace) (path : Path) : Except Fault Bool :=
  (ws.lookup path).map Option.isSome

/-- The name of an entry below the working directory, with a slash behind that of a directory. -/
def shownEntry? (place : List String) (entry : Entry) : Option String :=
  if isStart (place.take 1) then none
  else
    match entry with
    | .directory => some ("/".intercalate place ++ "/")
    | _ => some ("/".intercalate place)

def tree (ws : Workspace) : List String :=
  sortedTexts (ws.entries.filterMap fun (place, entry) => shownEntry? place entry)

/-- An entry that `before` has just so. -/
def isKept (before : Workspace) (place : List String) : Entry → Bool
  | .directory =>
    match before.entryAt? place with
    | some .directory => true
    | _ => false
  | .text s => ((before.entryAt? place).bind Entry.text?) == some s
  | _ => false

/-- The entries that are not as they were `before`, directories ahead of what is in them. -/
def changes (before after : Workspace) : List (List String × Entry) :=
  (after.entries.filter fun (place, entry) => !before.isKept place entry).mergeSort
    fun a b => a.1.length ≤ b.1.length

def placeText : List String → String
  | "/" :: names => "/" ++ "/".intercalate names
  | names => "/".intercalate names

def put (ws : Workspace) (place : List String) (entry : Entry) : Workspace :=
  { ws with entries := (place, entry) :: ws.entries.filter fun old => !(old.1 == place) }

theorem lookup_filter_ne (entries : List (List String × Entry)) {place other : List String}
    (h : other ≠ place) :
    (entries.filter fun old => !(old.1 == place)).lookup other = entries.lookup other := by
  induction entries with
  | nil => rfl
  | cons entry rest ih => grind

theorem entryAt?_put_self (ws : Workspace) {place : List String} (entry : Entry)
    (h : isStart place = false) : (ws.put place entry).entryAt? place = some entry := by
  simp [entryAt?, put, h]

theorem entryAt?_put_of_ne (ws : Workspace) {place other : List String} (entry : Entry)
    (h : other ≠ place) : (ws.put place entry).entryAt? other = ws.entryAt? other := by
  have := lookup_filter_ne ws.entries h
  grind [entryAt?, put]

/-- Makes one directory, or finds it there already, which is a fault unless it is `welcome`. The
answer is false where the directory above is missing. -/
def makeOne (path : Path) (welcome : Bool) : FilesM Bool := fun ws =>
  match ws.locate path with
  | .missing => .ok false ws
  | .blocked => .error (.parentNotDirectory path.text) ws
  | .tooLong => .error (.nameTooLong path.text) ws
  | .cut => .error .pathCut ws
  | .place names =>
    match ws.entryAt? names with
    | none => .ok true (ws.put names .directory)
    | some .directory =>
      if welcome then .ok true ws else .error (.fileInTheWay path.text) ws
    | some _ => .error (.fileInTheWay path.text) ws

/-- Makes the directory of the first `count` parts of a path, after those above it if they are
missing. -/
def makeFirst (path : Path) : Nat → Bool → FilesM Unit
  | 0, welcome => discard (makeOne { path with parts := [] } welcome)
  | count + 1, welcome => do
    let here : Path := { path with parts := path.parts.take (count + 1) }
    if ← makeOne here welcome then pure ()
    else
      makeFirst path count true
      discard (makeOne here welcome)

/-- Makes a directory and those above it. One that is there already is a fault, unless it is
`welcome`; a file always is. -/
def makeDirectory (path : Path) (welcome : Bool) : FilesM Unit :=
  makeFirst path path.parts.length welcome

def write (path : Path) (entry : Entry) : FilesM Unit := fun ws =>
  match ws.locate path with
  | .place names =>
    match ws.entryAt? names with
    | some .directory => .error (.directoryInTheWay path.text) ws
    | _ => .ok () (ws.put names entry)
  | .missing => .error (.fileMissing path.text) ws
  | .blocked => .error (.parentNotDirectory path.text) ws
  | .tooLong => .error (.nameTooLong path.text) ws
  | .cut => .error .pathCut ws

/-- A path where something is already is a fault, unless that may be overwritten. -/
def refuse (path : Path) (overwrite : Bool) (fault : Fault) : FilesM Unit := do
  let found ← ofResult ((← get).contains path)
  if found && !overwrite then throw fault

/-- Makes way for an output file: missing directories are made. -/
def prepare (path : Path) (overwrite : Bool) : FilesM Unit := do
  refuse path overwrite (.outputExists path.text)
  makeDirectory path.parent true

def createRoot (path : Path) (overwrite : Bool) : FilesM Unit := do
  refuse path overwrite (.rootExists path.text)
  makeDirectory path overwrite

def save (path : Path) (overwrite : Bool) (entry : Entry) : FilesM Unit := do
  prepare path overwrite
  write path entry

def loadFile (ws : Workspace) (path : Path) : Except Fault Entry :=
  match ws.locate path with
  | .place names =>
    match ws.entryAt? names with
    | none => .error (.fileMissing path.text)
    | some .directory => .error (.directoryInTheWay path.text)
    | some entry => .ok entry
  | .missing => .error (.fileMissing path.text)
  | .blocked => .error (.parentNotDirectory path.text)
  | .tooLong => .error (.nameTooLong path.text)
  | .cut => .error .pathCut

def findFile (ws : Workspace) (path : Path) (missing : Fault) : Except Fault Entry := do
  if ← ws.contains path then ws.loadFile path else .error missing

/-- The document in a file, if there is one. A figure cannot be read as text. -/
def documentIn (ws : Workspace) : Entry → Except Fault (Option Document)
  | .text s => .ok (ws.parse s)
  | .document d => .ok (some d)
  | .figure _ => .error .undecodable
  | .directory => .ok none

/-- The entries of the document in a file. Faults name the file by the path as it was `given`. -/
def loadEntries (ws : Workspace) (given : String) :
    Except Fault (List (String × Document)) := do
  let entry ← ws.findFile (Path.ofText given) (.configMissing given)
  match ← ws.documentIn entry with
  | none => .error (.invalid (.malformedFile given))
  | some .null => .error (.invalid (.emptyFile given))
  | some (.map entries) => .ok entries
  | some _ => .error (.invalid (.fileNotMap given))

end Workspace

end EvoSched
