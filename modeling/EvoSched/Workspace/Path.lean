set_option autoImplicit false

namespace EvoSched

/-- A path from the working directory, or from the root if slashes begin it. -/
structure Path where
  /-- How many slashes begin the path: none, one or two. -/
  slashes : Nat
  parts : List String
  deriving DecidableEq, Repr

namespace Path

def splitSlash : List Char → List (List Char)
  | [] => [[]]
  | c :: rest =>
    if c = '/' then [] :: splitSlash rest
    else
      match splitSlash rest with
      | [] => [[c]]
      | part :: parts => (c :: part) :: parts

/-- A part that names something: neither empty nor a dot. -/
def isPart (part : List Char) : Bool := !part.isEmpty && part != ['.']

/-- Two slashes at the beginning stay two, three and more count as one. -/
def leadingSlashes (s : List Char) : Nat :=
  match (s.takeWhile (· == '/')).length with
  | 0 => 0
  | 2 => 2
  | _ => 1

def ofText (s : String) : Path :=
  ⟨leadingSlashes s.toList, ((splitSlash s.toList).filter isPart).map String.ofList⟩

/-- A path as it shows: a dot for the working directory. -/
def text (p : Path) : String :=
  if p.slashes = 0 && p.parts.isEmpty then "."
  else String.ofList (List.replicate p.slashes '/') ++ "/".intercalate p.parts

/-- The most bytes that a name has. -/
def maxName : Nat := 255

/-- The most bytes that a whole path has. -/
def maxBytes : Nat := 4095

/-- A null character, which no name has, is in the path. -/
def isCut (p : Path) : Bool := p.parts.any fun part => part.toList.contains '\x00'

def parent (p : Path) : Path := { p with parts := p.parts.dropLast }

def child (p : Path) (name : String) : Path := { p with parts := p.parts ++ [name] }

end Path

end EvoSched
