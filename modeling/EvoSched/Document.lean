import EvoSched.Decimal.Numeral
import EvoSched.Decimal.Shortest
import EvoSched.Text.Quoted

set_option autoImplicit false

namespace EvoSched

/-- An untyped value. The entries of a map have different keys, all of them texts: maps with keys of
other kinds are left out. -/
inductive Document where
  | null
  | truth (b : Bool)
  | whole (n : Int)
  | real (x : Float)
  | text (s : String)
  | list (items : List Document)
  | map (entries : List (String × Document))
  deriving Inhabited

namespace Document

/-- The name of a value's kind, as messages give it. -/
def kind : Document → String
  | null => "NoneType"
  | truth _ => "bool"
  | whole _ => "int"
  | real _ => "float"
  | text _ => "str"
  | list _ => "list"
  | map _ => "dict"

/-- Null, false, zero and everything empty; a NaN is none of these. -/
def isEmptyLike : Document → Bool
  | null => true
  | truth b => !b
  | whole n => n == 0
  | real x => x == 0
  | text s => s.isEmpty
  | list items => items.isEmpty
  | map entries => entries.isEmpty

/-- The value itself, or `default` in place of an empty-like one. -/
def orElse (d default : Document) : Document :=
  if d.isEmptyLike then default else d

/-- Null and the empty text, which stand for a value that was not given. -/
def isMissing : Document → Bool
  | null => true
  | text s => s.isEmpty
  | _ => false

mutual

/-- A value as it shows inside a list or map: texts in quotes. -/
def quoted : Document → String
  | null => "None"
  | truth true => "True"
  | truth false => "False"
  | whole n => toString n
  | real x => Decimal.shortest x
  | text s => Text.quoted s
  | list items => "[" ++ ", ".intercalate (quotedItems items) ++ "]"
  | map entries => "\x7b" ++ ", ".intercalate (quotedEntries entries) ++ "\x7d"

def quotedItems : List Document → List String
  | [] => []
  | d :: rest => quoted d :: quotedItems rest

def quotedEntries : List (String × Document) → List String
  | [] => []
  | (key, d) :: rest => (Text.quoted key ++ ": " ++ quoted d) :: quotedEntries rest

end

/-- A value as it shows on its own: a text stands as it is. -/
def shown : Document → String
  | text s => s
  | d => d.quoted

mutual

/-- Whether the whole numbers in a value, at any depth, can be written. -/
def isWritable : Document → Bool
  | whole n => Decimal.isWritable n
  | list items => areWritable items
  | map entries => entriesAreWritable entries
  | _ => true

def areWritable : List Document → Bool
  | [] => true
  | d :: rest => isWritable d && areWritable rest

def entriesAreWritable : List (String × Document) → Bool
  | [] => true
  | (_, d) :: rest => isWritable d && entriesAreWritable rest

end

def get? (key : String) : Document → Option Document
  | map entries => entries.lookup key
  | _ => none

def getOrNull (key : String) (d : Document) : Document :=
  (d.get? key).getD null

end Document

/-- Entries with `key` set: an old entry keeps its place, a new one goes to the end. -/
def setEntry (key : String) (value : Document) :
    List (String × Document) → List (String × Document)
  | [] => [(key, value)]
  | (k, v) :: rest => if k = key then (key, value) :: rest else (k, v) :: setEntry key value rest

theorem lookup_setEntry (key other : String) (value : Document)
    (entries : List (String × Document)) :
    (setEntry key value entries).lookup other =
      if other = key then some value else entries.lookup other := by
  induction entries with
  | nil => grind [setEntry]
  | cons entry rest ih => grind [setEntry]

end EvoSched
