import EvoSched.Decimal.Numeral
import EvoSched.Document

set_option autoImplicit false

namespace EvoSched.Flow

def isLineEnd (c : Char) : Bool := c == '\n' || c == '\r'

def isGap (c : Char) : Bool := c == ' ' || c == '\t' || isLineEnd c

/-- Drops gaps and comments, from within a comment on or not. -/
def skip (inComment : Bool) : List Char → List Char
  | [] => []
  | c :: rest =>
    if isLineEnd c then skip false rest
    else if inComment || c = '#' then skip true rest
    else if isGap c then skip false rest
    else c :: rest

def hexValue (digits : List Char) : Option Nat :=
  digits.foldlM (fun value c =>
    if c.isDigit then some (16 * value + (c.toNat - 48))
    else if 'a' ≤ c ∧ c ≤ 'f' then some (16 * value + (c.toNat - 87))
    else if 'A' ≤ c ∧ c ≤ 'F' then some (16 * value + (c.toNat - 55))
    else none) 0

def shortEscape? : Char → Option Char
  | '"' => some '"'
  | '\\' => some '\\'
  | '/' => some '/'
  | '0' => some (Char.ofNat 0)
  | 'b' => some (Char.ofNat 8)
  | 'f' => some (Char.ofNat 12)
  | 'n' => some '\n'
  | 'r' => some '\r'
  | 't' => some '\t'
  | _ => none

def escapeWidth : Char → Nat
  | 'x' => 2
  | 'u' => 4
  | 'U' => 8
  | _ => 0

/-- The text up to the closing quote, and what follows it. -/
def quoted : Nat → List Char → Option (List Char × List Char)
  | 0, _ => none
  | _ + 1, [] => none
  | _ + 1, '"' :: rest => some ([], rest)
  | fuel + 1, '\\' :: letter :: rest =>
    match shortEscape? letter with
    | some c => do
      let (text, rest) ← quoted fuel rest
      pure (c :: text, rest)
    | none => do
      let width := escapeWidth letter
      if width = 0 || rest.length < width then none
      else
        let code ← hexValue (rest.take width)
        let (text, rest) ← quoted fuel (rest.drop width)
        pure (Char.ofNat code :: text, rest)
  | fuel + 1, c :: rest => do
    let (text, rest) ← quoted fuel rest
    pure (c :: text, rest)

/-- A number begins with a digit, behind a sign or not. -/
def isNumeral (s : List Char) : Bool :=
  match s with
  | c :: d :: _ => c.isDigit || ((c == '-' || c == '+') && (d.isDigit || d == '.'))
  | [c] => c.isDigit
  | [] => false

/-- A value without brackets or quotes. -/
def plain (s : List Char) : Document :=
  let text := String.ofList s
  if text = "null" || text = "~" || text = "" then .null
  else if text = "true" then .truth true
  else if text = "false" then .truth false
  else if text = ".inf" then .real (Binary64.infinity false)
  else if text = "-.inf" then .real (Binary64.infinity true)
  else if text = ".nan" then .real (Float.ofBits 0x7FF8000000000000)
  else if isNumeral s then
    match Decimal.readWhole text, Decimal.readReal text with
    | .value n, _ => .whole n
    | _, some x => .real x
    | _, none => .text text
  else .text text

/-- A character that ends a plain value inside brackets. -/
def isBoundary (c : Char) : Bool :=
  c == ',' || c == ':' || c == '[' || c == ']' || c == '\x7b' || c == '\x7d' || c == '#' ||
    isLineEnd c

def plainPart (s : List Char) : List Char × List Char :=
  let part := s.takeWhile fun c => !isBoundary c
  (Text.strip part, s.dropWhile fun c => !isBoundary c)

def key (fuel : Nat) (s : List Char) : Option (String × List Char) :=
  match s with
  | '"' :: rest => (quoted fuel rest).map fun (text, rest) => (String.ofList text, rest)
  | _ =>
    let (part, rest) := plainPart s
    if part.isEmpty then none else some (String.ofList part, rest)

mutual

/-- The value in front of a text, and what follows it. -/
def value : Nat → List Char → Option (Document × List Char)
  | 0, _ => none
  | fuel + 1, s =>
    match skip false s with
    | '"' :: rest => (quoted fuel rest).map fun (text, rest) => (.text (String.ofList text), rest)
    | '[' :: rest => (items fuel rest).map fun (ds, rest) => (.list ds, rest)
    | '\x7b' :: rest => (entries fuel rest).map fun (es, rest) => (.map es, rest)
    | s =>
      let (part, rest) := plainPart s
      if part.isEmpty then none else some (plain part, rest)

def items : Nat → List Char → Option (List Document × List Char)
  | 0, _ => none
  | fuel + 1, s =>
    match skip false s with
    | ']' :: rest => some ([], rest)
    | s => do
      let (d, rest) ← value fuel s
      match skip false rest with
      | ',' :: rest => do
        let (ds, rest) ← items fuel rest
        pure (d :: ds, rest)
      | ']' :: rest => pure ([d], rest)
      | _ => none

/-- Entries up to the closing brace. Of equal keys the last counts. -/
def entries : Nat → List Char → Option (List (String × Document) × List Char)
  | 0, _ => none
  | fuel + 1, s =>
    match skip false s with
    | '\x7d' :: rest => some ([], rest)
    | s => do
      let (name, rest) ← key fuel s
      match skip false rest with
      | ':' :: rest => do
        let (d, rest) ← value fuel rest
        match skip false rest with
        | ',' :: rest => do
          let (es, rest) ← entries fuel rest
          pure (if (es.lookup name).isSome then es else (name, d) :: es, rest)
        | '\x7d' :: rest => pure ([(name, d)], rest)
        | _ => none
      | _ => none

end

def isOpened : List Char → Bool
  | c :: _ => c == '"' || c == '[' || c == '\x7b'
  | [] => false

/-- The document in a text. There is none where a list, map or quote is not closed at its end. -/
def read (text : String) : Option Document :=
  let s := skip false text.toList
  if isOpened s then
    match value (s.length + 1) s with
    | some (d, rest) => if (skip false rest).isEmpty then some d else none
    | none => none
  else some (plain (Text.strip s))

def writeText (s : String) : String :=
  String.ofList ('"' :: (s.toList.flatMap (Text.escapeChar '"') ++ ['"']))

/-- A real number with a point, also in front of an exponent. -/
def writeReal (x : Float) : String :=
  match Binary64.read x with
  | .nan => ".nan"
  | .infinite negative => if negative then "-.inf" else ".inf"
  | .finite .. =>
    let digits := (Decimal.shortest x).toList
    if digits.contains '.' then String.ofList digits
    else String.ofList (digits.takeWhile (· != 'e') ++ ".0".toList ++ digits.dropWhile (· != 'e'))

mutual

def write : Document → String
  | .null => "null"
  | .truth b => if b then "true" else "false"
  | .whole n => toString n
  | .real x => writeReal x
  | .text s => writeText s
  | .list ds => "[" ++ ", ".intercalate (writeItems ds) ++ "]"
  | .map es => "\x7b" ++ ", ".intercalate (writeEntries es) ++ "\x7d"

def writeItems : List Document → List String
  | [] => []
  | d :: rest => write d :: writeItems rest

def writeEntries : List (String × Document) → List String
  | [] => []
  | (name, d) :: rest => (writeText name ++ ": " ++ write d) :: writeEntries rest

end

def writeFile (d : Document) : String := write d ++ "\n"

end EvoSched.Flow
