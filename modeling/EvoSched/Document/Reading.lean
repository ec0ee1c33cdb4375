import EvoSched.Decimal.Numeral
import EvoSched.Fault

set_option autoImplicit false

namespace EvoSched.Document

/-- The text a value shows as, where its whole numbers can be written. -/
def toText (d : Document) : Except Fault String :=
  if d.isWritable then .ok d.shown else .error .wholeTooLong

def toReal (d : Document) : Except Fault Float :=
  match d with
  | truth b => .ok (Binary64.ofInt (if b then 1 else 0))
  | whole n =>
    match Binary64.ofInt? n with
    | some x => .ok x
    | none => .error .tooLarge
  | real x => .ok x
  | text s =>
    match Decimal.readReal s with
    | some x => .ok x
    | none => .error (.unreadable (.notReal d))
  | _ => .error (.unreadable (.kindNotReal d.kind))

/-- The whole number a value stands for. A double loses its fraction. -/
def toWhole (d : Document) : Except Fault Int :=
  match d with
  | truth b => .ok (if b then 1 else 0)
  | whole n => .ok n
  | real x =>
    match Binary64.read x with
    | .nan => .error (.unreadable .notANumber)
    | .infinite _ => .error .infiniteWhole
    | .finite .. => .ok ((Binary64.truncate? x).getD 0)
  | text s =>
    match Decimal.readWhole s with
    | .value n => .ok n
    | .tooManyDigits count => .error (.unreadable (.tooManyDigits count))
    | .malformed => .error (.unreadable (.notWhole d))
  | _ => .error (.unreadable (.kindNotWhole d.kind))

def occursIn (part : List Char) : List Char → Bool
  | [] => part.isEmpty
  | c :: rest => part.isPrefixOf (c :: rest) || occursIn part rest

/-- A value has a key: a map as such, a text if the key occurs in it, a list as an element. Other
values have no members at all. -/
def hasKey (key : String) (d : Document) : Except Fault Bool :=
  match d with
  | map entries => .ok (entries.lookup key).isSome
  | text s => .ok (occursIn key.toList s.toList)
  | list items =>
    .ok (items.any fun item =>
      match item with
      | text s => s == key
      | _ => false)
  | _ => .error (.notIterable d.kind)

/-- The value under a key that is there. Only a map gives it. -/
def valueAt (key : String) (d : Document) : Except Fault Document :=
  match d with
  | map entries =>
    match entries.lookup key with
    | some value => .ok value
    | none => .error (.keyMissing key)
  | text _ => .error .textIndex
  | _ => .error .listIndex

/-- The value under a key, if the key is there. -/
def field? (key : String) (d : Document) : Except Fault (Option Document) := do
  if ← d.hasKey key then
    let value ← d.valueAt key
    pure (some value)
  else pure none

end EvoSched.Document
