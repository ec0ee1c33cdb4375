import EvoSched.Document.Reading

set_option autoImplicit false

namespace EvoSched

structure Table where
  header : List String
  rows : List (List String)
  deriving DecidableEq, Repr

namespace Table

/-- A character that a field holds only in quotes. -/
def isSpecial (c : Char) : Bool := c == ',' || c == '"' || c == '\r' || c == '\n'

def doubleQuotes : List Char → List Char
  | [] => []
  | c :: rest => if c = '"' then '"' :: '"' :: doubleQuotes rest else c :: doubleQuotes rest

def writeField (field : String) : List Char :=
  if field.toList.any isSpecial then '"' :: (doubleQuotes field.toList ++ ['"'])
  else field.toList

def writeFields : List String → List Char
  | [] => []
  | [field] => writeField field
  | field :: rest => writeField field ++ ',' :: writeFields rest

/-- A row as a line. A single empty field is quoted, since a blank line is no row. -/
def writeRow (row : List String) : List Char :=
  (if row = [""] then ['"', '"'] else writeFields row) ++ ['\r', '\n']

def writeRows (rows : List (List String)) : String :=
  String.ofList (rows.flatMap writeRow)

def text (table : Table) : String := writeRows (table.header :: table.rows)

inductive Mode where
  /-- Before the first character of a row. -/
  | rowStart
  /-- After a carriage return that ended a row, to which a line feed may belong. -/
  | rowEnd
  | fieldStart
  | bare
  | quoted
  /-- After a quote in quotes, which is doubled or closes them. -/
  | closing
  deriving DecidableEq, Repr

/-- What has been read: fields, rows and the characters of a field stand backwards. -/
structure Reader where
  mode : Mode
  field : List Char
  fields : List String
  rows : List (List String)

namespace Reader

def start : Reader := ⟨.rowStart, [], [], []⟩

def push (r : Reader) (mode : Mode) (c : Char) : Reader :=
  { r with mode, field := c :: r.field }

def endField (r : Reader) : Reader :=
  { r with mode := .fieldStart, field := [], fields := String.ofList r.field.reverse :: r.fields }

def endRow (r : Reader) (c : Char) : Reader :=
  { mode := if c = '\r' then .rowEnd else .rowStart, field := [], fields := []
    rows := r.fields.reverse :: r.rows }

def isLineEnd (c : Char) : Bool := c == '\r' || c == '\n'

/-- A character outside quotes, after the first of its field. -/
def follow (r : Reader) (c : Char) : Reader :=
  if isLineEnd c then r.endField.endRow c
  else if c = ',' then r.endField
  else r.push .bare c

def beginField (r : Reader) (c : Char) : Reader :=
  if c = '"' then { r with mode := .quoted } else r.follow c

/-- The first character of a row: a line end makes a blank row, which has no fields. -/
def beginRow (r : Reader) (c : Char) : Reader :=
  if isLineEnd c then r.endRow c else r.beginField c

def step (r : Reader) (c : Char) : Reader :=
  match r.mode with
  | .rowStart => r.beginRow c
  | .rowEnd => if c = '\n' then { r with mode := .rowStart } else r.beginRow c
  | .fieldStart => r.beginField c
  | .bare => r.follow c
  | .quoted => if c = '"' then { r with mode := .closing } else r.push .quoted c
  | .closing => if c = '"' then r.push .quoted c else r.follow c

/-- The rows at the end of the text. A row under way ends there, quoted or not. -/
def finish (r : Reader) : List (List String) :=
  match r.mode with
  | .rowStart | .rowEnd => r.rows.reverse
  | _ => (r.endField.endRow '\n').rows.reverse

end Reader

/-- All rows of a text, blank ones included. -/
def readRows (text : String) : List (List String) :=
  (text.toList.foldl Reader.step Reader.start).finish

/-- The table in a text. The first row is the header, even a blank one; blank rows below it do not
count. -/
def ofText (text : String) : Table :=
  match readRows text with
  | [] => ⟨[], []⟩
  | header :: rows => ⟨header, rows.filter fun row => !row.isEmpty⟩

/-- A field that is read has no more characters. -/
def fieldLimit : Nat := 131072

def isReadable (row : List String) : Bool := row.all (·.length ≤ fieldLimit)

/-- Each column with its field: null where the row is too short, nothing for surplus fields. -/
def columns : List String → List String → List (String × Document)
  | [], _ => []
  | name :: names, [] => (name, .null) :: columns names []
  | name :: names, field :: fields => (name, .text field) :: columns names fields

/-- A row as a document. Of columns with one name the last counts. -/
def entry (header row : List String) : Document :=
  .map ((columns header row).foldl (fun entries column => setEntry column.1 column.2 entries) [])

def entries (table : Table) : List Document := table.rows.map (entry table.header)

def hasColumns (table : Table) (required : List String) : Bool :=
  required.all table.header.contains

end Table

end EvoSched
