import EvoSched.Command
import EvoSched.Problem.Drawn
import EvoSched.Problem.File
import EvoSched.Random.Stream

set_option autoImplicit false

namespace EvoSched.Generate

def help : String := "usage: generate_random_problem.py [-h] [--jobs JOBS] [--fog-nodes FOG_NODES]
                                  [--seed SEED] [--overwrite]
                                  output

Generate a random job/node problem file

positional arguments:
  output                Path of the problem YAML to write

options:
  -h, --help            show this help message and exit
  --jobs JOBS           Number of jobs
  --fog-nodes FOG_NODES
                        Number of fog nodes besides the cloud
  --seed SEED           Random seed
  --overwrite           Overwrite an existing file
"

inductive OptionName where
  | help
  | jobs
  | fogNodes
  | seed
  | overwrite
  deriving DecidableEq, Repr

namespace OptionName

def all : List OptionName := [help, jobs, fogNodes, seed, overwrite]

def text : OptionName → String
  | help => "--help"
  | jobs => "--jobs"
  | fogNodes => "--fog-nodes"
  | seed => "--seed"
  | overwrite => "--overwrite"

/-- The options whose text begins so. -/
def beginning (start : List Char) : List OptionName :=
  all.filter fun name => start.isPrefixOf name.text.toList

end OptionName

inductive Argument where
  | value (s : String)
  | option (name : OptionName) (attached : Option String)
  | unknown
  /-- Behind two dashes every argument is a value. -/
  | separator
  deriving DecidableEq, Repr

/-- A minus and digits, with a point or not. A line feed may end it. -/
def isNegativeNumber (s : List Char) : Bool :=
  let isDigit (c : Char) := (Text.digitValue? c).isSome
  match if s.getLast? = some '\n' then s.dropLast else s with
  | '-' :: body =>
    match body.dropWhile isDigit with
    | [] => !body.isEmpty
    | '.' :: places => !places.isEmpty && places.all isDigit
    | _ => false
  | _ => false

def splitEquals (s : List Char) : List Char × Option (List Char) :=
  match s.dropWhile (· != '=') with
  | [] => (s, none)
  | _ :: rest => (s.takeWhile (· != '='), some rest)

/-- An argument that begins with a dash and names no known option. -/
def unnamed (s : List Char) : Argument :=
  if isNegativeNumber s || s.contains ' ' then .value (String.ofList s) else .unknown

/-- Whether the letters behind `-h` only ask for help again. An equals sign may come first. -/
def asksAgain : List Char → Bool
  | '=' :: letters => !letters.isEmpty && letters.all (· == 'h')
  | letters => letters.all (· == 'h')

/-- The form of an argument. Option names may be cut short; nothing if more than one is meant. -/
def classify (argument : String) : Option Argument :=
  let s := argument.toList
  let (name, attached) := splitEquals s
  let attached := attached.map String.ofList
  match s with
  | '-' :: '-' :: _ =>
    match OptionName.all.find? fun option => option.text.toList = name with
    | some option => some (.option option attached)
    | none =>
      match OptionName.beginning name with
      | [] => some (unnamed s)
      | [option] => some (.option option attached)
      | _ => none
  | '-' :: 'h' :: letters =>
    some (.option .help (if asksAgain letters then none else some (String.ofList letters)))
  | '-' :: _ :: _ => some (unnamed s)
  | _ => some (.value argument)

def classifyEach : List String → Option (List Argument)
  | [] => some []
  | argument :: rest =>
    if argument = "--" then some (.separator :: rest.map .value)
    else do
      let form ← classify argument
      let others ← classifyEach rest
      pure (form :: others)

/-- What is asked for. A count is nothing if its option was left without a value. -/
structure Request where
  path : String
  jobs : Option Int
  fogNodes : Option Int
  seed : Document
  overwrite : Bool

structure Draft where
  path : Option String
  /-- An argument was left over. -/
  surplus : Bool
  jobs : Option Int
  fogNodes : Option Int
  seed : Document
  overwrite : Bool

inductive Reading where
  | help
  | wrong
  | request (r : Request)

namespace Draft

def start : Draft := ⟨none, false, some 40, some 10, .null, false⟩

/-- Sets an option that takes a whole number. A seed without a value is an empty list. -/
def setWhole (d : Draft) (name : OptionName) (value : Option Int) : Option Draft :=
  match name with
  | .jobs => some { d with jobs := value }
  | .fogNodes => some { d with fogNodes := value }
  | .seed => some { d with seed := (value.map Document.whole).getD (.list []) }
  | .help | .overwrite => none

/-- Sets an option from its text. Two dashes, which separate arguments, are no value. -/
def set (d : Draft) (name : OptionName) (value : String) : Option Draft :=
  if value = "--" then d.setWhole name none
  else
    match Decimal.readWhole value with
    | .value n => d.setWhole name (some n)
    | _ => none

def request (d : Draft) : Reading :=
  match d.path with
  | some path =>
    if d.surplus then .wrong else .request ⟨path, d.jobs, d.fogNodes, d.seed, d.overwrite⟩
  | none => .wrong

end Draft

/-- Reads arguments in order, up to a call for help or a wrong one. A separator goes with a path
next to it. -/
def readArguments (d : Draft) : List Argument → Reading
  | [] => d.request
  | .option .help none :: _ => .help
  | .option .overwrite none :: rest => readArguments { d with overwrite := true } rest
  | .option name (some value) :: rest =>
    match d.set name value with
    | some d => readArguments d rest
    | none => .wrong
  | .option name none :: .value value :: rest =>
    match d.set name value with
    | some d => readArguments d rest
    | none => .wrong
  | .option _ none :: _ => .wrong
  | .unknown :: rest => readArguments { d with surplus := true } rest
  | .separator :: .value path :: rest =>
    match d.path with
    | none => readArguments { d with path := some path } rest
    | some _ => .wrong
  | .separator :: _ => .wrong
  | .value path :: .separator :: rest =>
    match d.path with
    | none => readArguments { d with path := some path } rest
    | some _ => readArguments { d with surplus := true } (.separator :: rest)
  | .value path :: rest =>
    match d.path with
    | none => readArguments { d with path := some path } rest
    | some _ => readArguments { d with surplus := true } rest

def read (arguments : List String) : Reading :=
  match classifyEach arguments with
  | none => .wrong
  | some forms => readArguments Draft.start forms

def isOccupied : Fault → Bool
  | .outputExists _ | .rootExists _ | .fileInTheWay _ => true
  | _ => false

/-- The counts of jobs and fog nodes, or nothing if one is too small. The jobs are looked at
first. -/
def counts? (r : Request) : Except Fault (Option (Nat × Nat)) :=
  match r.jobs, r.fogNodes with
  | none, _ => .error (.incomparable "<=" "list" "int")
  | some jobs, fogNodes =>
    if jobs ≤ 0 then .ok none
    else
      match fogNodes with
      | none => .error (.incomparable "<" "list" "int")
      | some fogNodes => .ok (if fogNodes < 0 then none else some (jobs.toNat, fogNodes.toNat))

/-- Draws the problem of a request and saves it. Without a seed, `entropy` stands in. A fault that
the command does not report itself is passed on. -/
def fulfil (entropy : Nat) (files : Workspace) (r : Request) : Except Fault Ending := do
  let some (jobs, fogNodes) ← counts? r
    | return .saying 1 (.start files)
        "Error: --jobs must be positive and --fog-nodes non-negative\n"
  let stream ← Stream.ofSeed entropy r.seed
  match Problem.drawn jobs fogNodes stream with
  | .error fault _ => .error fault
  | .ok problem _ =>
    let path := Path.ofText r.path
    match Problem.save path r.overwrite problem files with
    | .ok _ files =>
      return .saying 0 (.start files)
        ("Wrote " ++ toString problem.jobs.length ++ " jobs and " ++
          toString problem.nodes.length ++ " nodes to " ++ path.text ++ "\n")
    | .error fault files =>
      if isOccupied fault then return .failing (.start files) fault "Error: " "\n"
      else .error fault

def run (entropy : Nat) (arguments : List String) (files : Workspace) : Except Fault Ending :=
  match read arguments with
  | .help => .ok (.saying 0 (.start files) help)
  | .wrong => .ok (.saying 2 (.start files) "")
  | .request r => fulfil entropy files r

end EvoSched.Generate
