import EvoSched.Document.Reading
import EvoSched.Random.Permuted

set_option autoImplicit false

namespace EvoSched.Seed

def wholeWords (n : Int) : Except Fault (List UInt32) :=
  if n < 0 then .error .negativeSeed else .ok (wordsOf n.toNat)

/-- The words of a numeral: a hexadecimal one behind `0x`, or one that begins with a digit. -/
def textWords (s : String) : Except Fault (List UInt32) :=
  match s.toList with
  | '0' :: 'x' :: _ =>
    match Decimal.readHexadecimal s with
    | some n => .ok (wordsOf n)
    | none => .error (.unreadable (.notHexadecimal s))
  | c :: _ => if c.isDigit then (Document.text s).toWhole >>= wholeWords else .error .seedText
  | [] => .error .seedText

def eachText : List String → Except Fault (List UInt32)
  | [] => .ok []
  | s :: rest => do
    let front ← textWords s
    let others ← eachText rest
    pure (front ++ others)

/-- The words of a value, those of all its items in order. A map has its keys as items. -/
def words : Document → Except Fault (List UInt32)
  | .truth b => .ok (wordsOf b.toNat)
  | .whole n => wholeWords n
  | .real _ => .error .seedReal
  | .text s => textWords s
  | .list items => eachWords items
  | .map entries => eachText (entries.map (·.1))
  | .null => .error (.seedLength Document.null.kind)
where
  eachWords : List Document → Except Fault (List UInt32)
    | [] => .ok []
    | d :: rest => do
      let front ← words d
      let others ← eachWords rest
      pure (front ++ others)

/-- The generator of a seed. Without one, fresh `entropy` takes its place. -/
def generator (entropy : Nat) (seed : Document) : Except Fault Permuted :=
  match seed with
  | .null => .ok (.ofWords (wordsOf entropy))
  | .truth _ | .whole _ | .list _ => (words seed).map .ofWords
  | .real _ | .text _ | .map _ => .error (.seedKind seed)

end EvoSched.Seed
