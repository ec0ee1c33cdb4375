import EvoSched.Document

set_option autoImplicit false

namespace EvoSched

/-- Why a value is not read as a number or a text. -/
inductive Unreadable where
  | notReal (value : Document)
  | notWhole (value : Document)
  | notHexadecimal (text : String)
  | notANumber
  | tooManyDigits (count : Nat)
  | kindNotReal (kind : String)
  | kindNotWhole (kind : String)
  /-- A whole number of too many digits to be written. -/
  | wholeTooLong

/-- Why settings, problem data or a run configuration are rejected. -/
inductive Invalid where
  | notPositive (name : String) (value : Document)
  | notRate (name : String) (value : Document)
  | badElitism (value : Document)
  | elitismTooLarge (elitism size : Int)
  | badSeconds (value : Document)
  | unknownStrategy (value : Document)
  | unknownSettings (names : List String)
  | noJobs
  | noNodes
  | badField (item label field value : String)
  | noCapacity (label value : String)
  | missingField (item : String) (index : Int) (field : String)
  | unreadableItem (item : String) (index : Int) (why : Unreadable)
  | malformedFile (path : String)
  | emptyFile (path : String)
  | fileNotMap (path : String)
  | sectionMissing (path key : String)
  | sectionNotList (path key : String)
  | columnsMissing (path : String) (required : List String)
  | problemShape
  | problemSource
  | problemFileMissing (path : String)
  | fieldMissing (name : String)
  | notMap (name : String)
  | configArgument

inductive Fault where
  | invalid (why : Invalid)
  | unreadable (why : Unreadable)
  /-- A whole number beyond the largest double. -/
  | tooLarge
  /-- A whole number of too many digits to be written. -/
  | wholeTooLong
  /-- An infinity where a whole number is read. -/
  | infiniteWhole
  /-- A membership test on a value without members. -/
  | notIterable (kind : String)
  | textIndex
  | listIndex
  | unhashable (kind : String)
  | notEntries (kind : String)
  | entryNotPair (position : Nat)
  | entryLength (position length : Nat)
  | keyNotText (kind : String)
  | unknownArgument (name : String)
  | repeatedArgument (name : String)
  | geneOutside (position : Nat) (gene top : Int)
  | valueOutside (gene top : Int)
  | lengthMismatch (genes jobs : Nat)
  | unknownNode (position : Nat) (gene : Int)
  | emptyMaximum
  | emptyMinimum
  | divisionByZero
  | moduloByZero
  | positionOutside
  | slotOutside
  | emptyPopulation
  | boundsMissing
  | emptyRange (low : Int)
  | rangeTooHigh
  | rangeTooLow
  | negativeCount
  | negativeSeed
  | seedKind (seed : Document)
  | seedText
  | seedReal
  | seedLength (kind : String)
  | configMissing (path : String)
  | tableMissing (path : String)
  | outputExists (path : String)
  | rootExists (path : String)
  | fileMissing (path : String)
  | fileInTheWay (path : String)
  | directoryInTheWay (path : String)
  | parentNotDirectory (path : String)
  | nameTooLong (path : String)
  /-- A path with a null character in it. -/
  | pathCut
  /-- A figure where a text is read. -/
  | undecodable
  /-- A table field of more characters than a field may have. -/
  | fieldTooLong (limit : Nat)
  | pathKind (kind : String)
  | keyMissing (name : String)
  /-- Two kinds of values that an operator does not compare. -/
  | incomparable (operator first second : String)
  | noKeys (kind : String)

/-- Says that a text, as it is quoted, is no numeral of a base. A long one is cut. -/
def Unreadable.noLiteral (base : Nat) (quoted : String) : String :=
  "invalid literal for int() with base " ++ toString base ++ ": " ++
    String.ofList (quoted.toList.take 200)

def Unreadable.message : Unreadable → String
  | notReal value => "could not convert string to float: " ++ value.quoted
  | notWhole value => noLiteral 10 value.quoted
  | notHexadecimal text => noLiteral 16 (Text.quoted text)
  | notANumber => "cannot convert float NaN to integer"
  | tooManyDigits count =>
    "Exceeds the limit (4300 digits) for integer string conversion: value has " ++
      toString count ++ " digits; use sys.set_int_max_str_digits() to increase the limit"
  | kindNotReal kind => "float() argument must be a string or a real number, not '" ++ kind ++ "'"
  | kindNotWhole kind =>
    "int() argument must be a string, a bytes-like object or a real number, not '" ++ kind ++ "'"
  | wholeTooLong =>
    "Exceeds the limit (4300 digits) for integer string conversion; " ++
      "use sys.set_int_max_str_digits() to increase the limit"

def Invalid.message : Invalid → String
  | notPositive name value =>
    "'" ++ name ++ "' must be a positive integer, got: " ++ value.shown
  | notRate name value => "'" ++ name ++ "' must be a number in [0, 1], got: " ++ value.shown
  | badElitism value =>
    "'elitism_count' must be a non-negative integer, got: " ++ value.shown
  | elitismTooLarge elitism size =>
    "'elitism_count' (" ++ toString elitism ++ ") must be smaller than 'population_size' (" ++
      toString size ++ ")"
  | badSeconds value => "'max_seconds' must be a positive number, got: " ++ value.shown
  | unknownStrategy value =>
    "Invalid strategy: '" ++ value.shown ++ "'. Must be one of replace, grow"
  | unknownSettings names => "Unknown GA parameter(s): " ++ ", ".intercalate names
  | noJobs => "Job list is empty"
  | noNodes => "Node list is empty"
  | badField item label field value =>
    item ++ " " ++ label ++ " has invalid " ++ field ++ ": " ++ value ++
      " (must be finite and non-negative)"
  | noCapacity label value => "Node " ++ label ++ " has non-positive capacity: " ++ value
  | missingField item index field =>
    item ++ " " ++ toString index ++ " is missing required field '" ++ field ++ "'"
  | unreadableItem item index why =>
    "Invalid value in " ++ item ++ " " ++ toString index ++ ": " ++ why.message
  | malformedFile path => "Invalid YAML in " ++ path
  | emptyFile path => "Configuration file is empty: " ++ path
  | fileNotMap path => "Configuration file must contain a mapping: " ++ path
  | sectionMissing path key => "Problem file " ++ path ++ " is missing '" ++ key ++ "'"
  | sectionNotList path key => "'" ++ key ++ "' in " ++ path ++ " must be a list"
  | columnsMissing path required =>
    "Invalid CSV format in " ++ path ++ ". Required columns: " ++ ",".intercalate required
  | problemShape => "'problem' must be a path or a dictionary"
  | problemSource => "'problem' requires either 'path' or both 'jobs_csv' and 'nodes_csv'"
  | problemFileMissing path => "Problem file not found: " ++ path
  | fieldMissing name => "Missing required field: '" ++ name ++ "'"
  | notMap name => "'" ++ name ++ "' must be a dictionary"
  | configArgument => "--config requires an argument"

def Fault.message : Fault → String
  | invalid why => why.message
  | unreadable why => why.message
  | tooLarge => "int too large to convert to float"
  | wholeTooLong => Unreadable.wholeTooLong.message
  | infiniteWhole => "cannot convert float infinity to integer"
  | notIterable kind => "argument of type '" ++ kind ++ "' is not iterable"
  | textIndex => "string indices must be integers, not 'str'"
  | listIndex => "list indices must be integers or slices, not str"
  | unhashable kind => "unhashable type: '" ++ kind ++ "'"
  | notEntries kind => "'" ++ kind ++ "' object is not iterable"
  | entryNotPair position =>
    "cannot convert dictionary update sequence element #" ++ toString position ++ " to a sequence"
  | entryLength position length =>
    "dictionary update sequence element #" ++ toString position ++ " has length " ++
      toString length ++ "; 2 is required"
  | keyNotText kind => "sequence item 0: expected str instance, " ++ kind ++ " found"
  | unknownArgument name =>
    "GAConfig.__init__() got an unexpected keyword argument '" ++ name ++ "'"
  | repeatedArgument name =>
    "GAConfig.__init__() got multiple values for argument '" ++ name ++ "'"
  | geneOutside position gene top =>
    "Gene " ++ toString position ++ " = " ++ toString gene ++ " outside valid node range [0, " ++
      toString top ++ "]"
  | valueOutside gene top =>
    "Gene value " ++ toString gene ++ " outside valid node range [0, " ++ toString top ++ "]"
  | lengthMismatch genes jobs =>
    "Chromosome length " ++ toString genes ++ " does not match job count " ++ toString jobs
  | unknownNode position gene =>
    "Gene " ++ toString position ++ " names unknown node " ++ toString gene
  | emptyMaximum => "max() arg is an empty sequence"
  | emptyMinimum => "min() arg is an empty sequence"
  | divisionByZero => "float division by zero"
  | moduloByZero => "integer modulo by zero"
  | positionOutside => "list index out of range"
  | slotOutside => "list assignment index out of range"
  | emptyPopulation => "Cannot select from an empty population"
  | boundsMissing => "Lower bounds not computed; call calc_min_time_cost first"
  | emptyRange low => if low = 0 then "high <= 0" else "low >= high"
  | rangeTooHigh => "high is out of bounds for int64"
  | rangeTooLow => "low is out of bounds for int64"
  | negativeCount => "negative dimensions are not allowed"
  | negativeSeed => "expected non-negative integer"
  | seedKind seed =>
    "SeedSequence expects int or sequence of ints for entropy not " ++ seed.shown
  | seedText => "unrecognized seed string"
  | seedReal => "seed must be integer"
  | seedLength kind => "object of type '" ++ kind ++ "' has no len()"
  | configMissing path => "Configuration file not found: " ++ path
  | tableMissing path => "CSV file not found: " ++ path
  | outputExists path => "Output file already exists: " ++ path
  | rootExists path =>
    "Output directory already exists: " ++ path ++
      "\nSet 'output.overwrite: true' in config to overwrite"
  | fileMissing path => "[Errno 2] No such file or directory: " ++ Text.quoted path
  | fileInTheWay path => "[Errno 17] File exists: " ++ Text.quoted path
  | directoryInTheWay path => "[Errno 21] Is a directory: " ++ Text.quoted path
  | parentNotDirectory path => "[Errno 20] Not a directory: " ++ Text.quoted path
  | nameTooLong path => "[Errno 36] File name too long: " ++ Text.quoted path
  | pathCut => "embedded null byte"
  | undecodable => "'utf-8' codec can't decode byte 0x89 in position 0: invalid start byte"
  | fieldTooLong limit => "field larger than field limit (" ++ toString limit ++ ")"
  | pathKind kind => "expected str, bytes or os.PathLike object, not " ++ kind
  | keyMissing name => Text.quoted name
  | incomparable operator first second =>
    "'" ++ operator ++ "' not supported between instances of '" ++ first ++ "' and '" ++ second ++
      "'"
  | noKeys kind => "'" ++ kind ++ "' object has no attribute 'get'"

/-- A rejection that shows values in its message. Where one of them cannot be written, neither can
the message, and that is the fault. -/
def Fault.rejecting (shown : List Document) (why : Invalid) : Fault :=
  if Document.areWritable shown then invalid why else wholeTooLong

/-- A result as a computation that keeps its state. -/
def ofResult {σ β : Type} (result : Except Fault β) : EStateM Fault σ β := fun s =>
  match result with
  | .ok x => .ok x s
  | .error fault => .error fault s

end EvoSched
