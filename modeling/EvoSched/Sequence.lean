import EvoSched.Fault

set_option autoImplicit false

namespace EvoSched

/-- The first element that fails a test, with its position counted from `position` on. -/
def firstFailing (ok : Int → Bool) : Nat → List Int → Option (Nat × Int)
  | _, [] => none
  | position, x :: rest =>
    if ok x then firstFailing ok (position + 1) rest else some (position, x)

/-- The place of a position in a list of `size` elements. -/
def resolve (size : Nat) (position : Int) : Option Nat :=
  let place := if position < 0 then position + size else position
  if 0 ≤ place && place < size then some place.toNat else none

theorem resolve_natCast {size place : Nat} (h : place < size) :
    resolve size (place : Int) = some place := by
  grind [resolve]

def nth {β : Type} (xs : List β) (position : Int) : Except Fault β :=
  match (resolve xs.length position).bind (xs[·]?) with
  | some x => .ok x
  | none => .error .positionOutside

theorem nth_natCast {β : Type} (xs : List β) (place : Nat) (h : place < xs.length) :
    nth xs (place : Int) = .ok xs[place] := by
  simp [nth, resolve_natCast h, h]

def setNth {β : Type} (xs : List β) (position : Int) (x : β) : Except Fault (List β) :=
  match resolve xs.length position with
  | some place => .ok (xs.set place x)
  | none => .error .slotOutside

/-- How many elements stay in front of a cut at `position`. -/
def cutAt (size : Nat) (position : Int) : Nat :=
  if position < 0 then (position + size).toNat else min position.toNat size

def sortedTexts (texts : List String) : List String :=
  texts.mergeSort fun a b => !(b < a : Bool)

end EvoSched
