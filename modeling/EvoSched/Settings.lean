import EvoSched.Document.Entries
import EvoSched.Scalar.Double
import EvoSched.Sequence

set_option autoImplicit false

namespace EvoSched

inductive StrategyName where
  | replace
  | grow
  deriving DecidableEq, Repr

namespace StrategyName

def text : StrategyName → String
  | replace => "replace"
  | grow => "grow"

def ofDocument? : Document → Option StrategyName
  | .text s => if s = "replace" then some replace else if s = "grow" then some grow else none
  | _ => none

/-- The strategy of a name. A list or map cannot be looked up at all. -/
def named (name : Document) : Except Fault StrategyName :=
  match name with
  | .list _ | .map _ => .error (.unhashable name.kind)
  | _ =>
    match ofDocument? name with
    | some strategy => .ok strategy
    | none => .error (.rejecting [name] (.unknownStrategy name))

end StrategyName

structure Settings where
  populationSize : Nat
  mutationRate : Number
  crossoverRate : Number
  elitism : Nat
  timeWeight : Number
  targetSize : Nat
  maxGenerations : Nat
  maxSeconds : Option Number
  strategy : StrategyName
  mergeParents : Document
  randomSeed : Document
  workers : Nat
  verbose : Document
  reportEvery : Nat

namespace Settings

/-- Every setting by name, with its default, in the order they are written. -/
def defaults : List (String × Document) := [
  ("population_size", .whole 30),
  ("mutation_rate", .real 0.1),
  ("crossover_rate", .real 0.9),
  ("elitism_count", .whole 2),
  ("time_weight", .real 0.5),
  ("target_size", .null),
  ("max_generations", .whole 100),
  ("max_seconds", .null),
  ("strategy", .text "replace"),
  ("merge_parents", .truth true),
  ("random_seed", .null),
  ("workers", .whole 1),
  ("verbose", .truth false),
  ("report_every", .whole 10)]

def names : List String := defaults.map (·.1)

def given (entries : List (String × Document)) (name : String) : Document :=
  ((entries.lookup name).orElse fun _ => defaults.lookup name).getD .null

/-- The size that truncation restores: where it is not given, the size of the first population. -/
def givenTarget (entries : List (String × Document)) : Document :=
  match given entries "target_size" with
  | .null => given entries "population_size"
  | d => d

def positive (name : String) (d : Document) : Except Fault Nat :=
  match d with
  | .whole n => if 0 < n then .ok n.toNat else .error (.rejecting [d] (.notPositive name d))
  | _ => .error (.rejecting [d] (.notPositive name d))

def rate (name : String) (d : Document) : Except Fault Number :=
  match Number.ofDocument? d with
  | some number =>
    if number.isRate then .ok number else .error (.rejecting [d] (.notRate name d))
  | none => .error (.rejecting [d] (.notRate name d))

/-- How many of the fittest are spared mutation: fewer than `size`. -/
def elite (size : Nat) (d : Document) : Except Fault Nat :=
  match d with
  | .whole n =>
    if n < 0 then .error (.rejecting [d] (.badElitism d))
    else if n < size then .ok n.toNat
    else .error (.rejecting [d, .whole size] (.elitismTooLarge n size))
  | _ => .error (.rejecting [d] (.badElitism d))

def seconds (d : Document) : Except Fault (Option Number) :=
  match d with
  | .null => .ok none
  | _ =>
    match Number.ofDocument? d with
    | some number =>
      if number.isSpan then .ok (some number) else .error (.rejecting [d] (.badSeconds d))
    | none => .error (.rejecting [d] (.badSeconds d))

def strategyOf (d : Document) : Except Fault StrategyName :=
  match StrategyName.ofDocument? d with
  | some strategy => .ok strategy
  | none => .error (.rejecting [d] (.unknownStrategy d))

/-- Settings from entries over the defaults. The checks come in a fixed order. -/
def ofEntries (entries : List (String × Document)) : Except Fault Settings := do
  let populationSize ← positive "population_size" (given entries "population_size")
  let targetSize ← positive "target_size" (givenTarget entries)
  let maxGenerations ← positive "max_generations" (given entries "max_generations")
  let workers ← positive "workers" (given entries "workers")
  let reportEvery ← positive "report_every" (given entries "report_every")
  let mutationRate ← rate "mutation_rate" (given entries "mutation_rate")
  let crossoverRate ← rate "crossover_rate" (given entries "crossover_rate")
  let timeWeight ← rate "time_weight" (given entries "time_weight")
  let elitism ← elite populationSize (given entries "elitism_count")
  let maxSeconds ← seconds (given entries "max_seconds")
  let strategy ← strategyOf (given entries "strategy")
  pure
    { populationSize, mutationRate, crossoverRate, elitism, timeWeight, targetSize
      maxGenerations, maxSeconds, strategy, workers, reportEvery
      mergeParents := given entries "merge_parents"
      randomSeed := given entries "random_seed"
      verbose := given entries "verbose" }

/-- The argument that every call has ahead of the named ones. -/
def ownArgument : String := "self"

/-- Settings from named arguments. The first that names no setting is a fault. -/
def ofArguments (entries : List (String × Document)) : Except Fault Settings :=
  match entries.find? fun entry => !names.contains entry.1 with
  | some (name, _) =>
    .error (if name = ownArgument then .repeatedArgument name else .unknownArgument name)
  | none => ofEntries entries

/-- Settings from a document. Unknown names are refused, all of them together. -/
def ofDocument (d : Document) : Except Fault Settings := do
  let entries ← d.toEntries
  let unknown := (entries.map (·.1)).filter fun name => !names.contains name
  if unknown.isEmpty then ofEntries entries
  else .error (.invalid (.unknownSettings (sortedTexts unknown)))

def toDocument (s : Settings) : Document := .map [
  ("population_size", .whole s.populationSize),
  ("mutation_rate", s.mutationRate.toDocument),
  ("crossover_rate", s.crossoverRate.toDocument),
  ("elitism_count", .whole s.elitism),
  ("time_weight", s.timeWeight.toDocument),
  ("target_size", .whole s.targetSize),
  ("max_generations", .whole s.maxGenerations),
  ("max_seconds", (s.maxSeconds.map Number.toDocument).getD .null),
  ("strategy", .text s.strategy.text),
  ("merge_parents", s.mergeParents),
  ("random_seed", s.randomSeed),
  ("workers", .whole s.workers),
  ("verbose", s.verbose),
  ("report_every", .whole s.reportEvery)]

end Settings

end EvoSched
