import EvoSched.Document.Reading
import EvoSched.Number

set_option autoImplicit false

namespace EvoSched.Document

def characters (s : String) : List Document := s.toList.map fun c => .text (String.ofList [c])

/-- An item as a key with a value: a list of two, a text of two characters, or the two keys of a
map. Only a value that can be looked up may be a key. -/
def pairOf (position : Nat) (d : Document) : Except Fault (Document × Document) := do
  let parts ← match d with
    | .list items => .ok items
    | .text s => .ok (characters s)
    | .map entries => .ok (entries.map fun entry => .text entry.1)
    | _ => .error (.entryNotPair position)
  match parts with
  | [.list _, _] => .error (.unhashable "list")
  | [.map _, _] => .error (.unhashable "dict")
  | [key, value] => .ok (key, value)
  | _ => .error (.entryLength position parts.length)

def pairsOf : Nat → List Document → Except Fault (List (Document × Document))
  | _, [] => .ok []
  | position, d :: rest => do
    let pair ← pairOf position d
    let others ← pairsOf (position + 1) rest
    pure (pair :: others)

/-- The number that a key counts as: a truth value counts as one or zero. -/
def keyNumber? : Document → Option Number
  | .truth b => some (.whole b.toNat)
  | d => Number.ofDocument? d

/-- The first key comes before the second: both are numbers, and it is the smaller one. -/
def keyPrecedes (first second : Document) : Bool :=
  match keyNumber? first, keyNumber? second with
  | some m, some n => m.compare? n == some .lt
  | _, _ => false

/-- The first of the keys that no other one precedes. -/
def firstKey? : List Document → Option Document
  | [] => none
  | key :: keys =>
    some (keys.foldl (fun least other => if keyPrecedes other least then other else least) key)

def isText : Document → Bool
  | .text _ => true
  | _ => false

/-- Pairs as entries: of equal keys the last counts. Every key has to be a text; the fault is with
the first of those that are not. -/
def entriesOfPairs (pairs : List (Document × Document)) :
    Except Fault (List (String × Document)) :=
  match firstKey? ((pairs.map (·.1)).filter (!·.isText)) with
  | some key => .error (.keyNotText key.kind)
  | none =>
    .ok (pairs.foldl (fun entries pair =>
      match pair with
      | (.text key, value) => setEntry key value entries
      | _ => entries) [])

/-- The entries that a value stands for. An empty-like value has none. -/
def toEntries (d : Document) : Except Fault (List (String × Document)) :=
  if d.isEmptyLike then .ok []
  else
    match d with
    | .map entries => .ok entries
    | .list items => pairsOf 0 items >>= entriesOfPairs
    | .text s => pairsOf 0 (characters s) >>= entriesOfPairs
    | _ => .error (.notEntries d.kind)

end EvoSched.Document
