import ClassChart.Journal
import ClassChart.Text.Split

/-!
The arguments of the command.  Options may stand before and after the source
directory; long ones may be cut short as long as they stay distinct, and their
value may follow an equals sign.  After `--` nothing is an option.
-/
namespace ClassChart.CommandLine

def commandName : String := "umlloom"

/-- The options of the command. -/
inductive Flag where
  | help
  | outputDirectory
  | settingsFile
  | logLevel
deriving Repr, DecidableEq, Inhabited

namespace Flag

/-- All options, in the order in which they are described. -/
def all : List Flag := [.help, .outputDirectory, .settingsFile, .logLevel]

def spellings : Flag → List String
  | .help => ["-h", "--help"]
  | .outputDirectory => ["-o", "--output-dir"]
  | .settingsFile => ["--config"]
  | .logLevel => ["--log-level"]

/-- The option as messages name it. -/
def title (flag : Flag) : String :=
  "/".intercalate flag.spellings

/-- All spellings with their options. -/
def table : List (String × Flag) :=
  all.flatMap fun flag => flag.spellings.map (·, flag)

end Flag

/-- What is wrong with the arguments. -/
inductive UsageError where
  | sourceMissing
  | unrecognized (arguments : List String)
  | valueMissing (flag : Flag)
  | valueIgnored (flag : Flag) (value : String)
  | badLevel (value : String)
  | ambiguous (written : String) (spellings : List String)
deriving Repr, DecidableEq, Inhabited

def UsageError.message : UsageError → String
  | .sourceMissing => "the following arguments are required: source_dir"
  | .unrecognized arguments => "unrecognized arguments: " ++ " ".intercalate arguments
  | .valueMissing flag => s!"argument {flag.title}: expected one argument"
  | .valueIgnored flag value =>
      s!"argument {flag.title}: ignored explicit argument {Text.quoted value}"
  | .badLevel value =>
      let levels := ", ".intercalate (Severity.all.map fun level => Text.quoted level.word)
      s!"argument {Flag.logLevel.title}: invalid choice: {Text.quoted value} (choose from {levels})"
  | .ambiguous written spellings =>
      let matching := ", ".intercalate spellings
      s!"ambiguous option: {written} could match {matching}"

/-- An argument by its form. -/
inductive Argument where
  | plain (text : String)
  /-- The mark after which nothing is an option. -/
  | endMark
  | option (flag : Flag) (spelling : String) (value : Option String)
  | unknown (text : String)
deriving Repr, DecidableEq, Inhabited

/-- The argument as it was written, for those that may be left over. -/
def Argument.text : Argument → String
  | .plain text => text
  | .endMark => "--"
  | .option _ spelling _ => spelling
  | .unknown text => text

def isNegativeNumber (s : String) : Bool :=
  match s.toList with
  | '-' :: rest =>
      let whole := rest.takeWhile Char.isDigit
      match rest.dropWhile Char.isDigit with
      | [] => !whole.isEmpty
      | '.' :: places => !places.isEmpty && places.all Char.isDigit
      | _ => false
  | _ => false

/-- The part of a text before its first equals sign, and the part after it. -/
def splitValue (s : String) : String × Option String :=
  (Text.upTo '=' s, if s.toList.contains '=' then some (Text.beyond '=' s) else none)

/-- The options that a shortened spelling may mean. -/
def candidates (s : String) : List (Flag × String × Option String) :=
  if Text.beginsWith "--" s then
    let (spelling, value) := splitValue s
    (Flag.table.filter fun entry => Text.beginsWith spelling entry.1).map fun entry =>
      (entry.2, entry.1, value)
  else
    let short := String.ofList (s.toList.take 2)
    (Flag.table.filter fun entry => entry.1 = short).map fun entry =>
      (entry.2, entry.1, some (Text.dropFirst 2 s))

/-- The form of an argument that stands before any `--`. -/
def Argument.classify (s : String) : Except UsageError Argument :=
  let (spelling, value) := splitValue s
  if !Text.beginsWith "-" s || s = "-" then .ok (.plain s)
  else if let some flag := Flag.table.lookup s then .ok (.option flag s none)
  else if let (some flag, some value) := (Flag.table.lookup spelling, value) then
    .ok (.option flag spelling (some value))
  else
    match candidates s with
    | [(flag, spelling, value)] => .ok (.option flag spelling value)
    | [] =>
        if isNegativeNumber s || s.toList.contains ' ' then .ok (.plain s) else .ok (.unknown s)
    | several => .error (.ambiguous s (several.map (·.2.1)))

def Argument.classifyAll : List String → Except UsageError (List Argument)
  | [] => .ok []
  | "--" :: rest => .ok (.endMark :: rest.map .plain)
  | s :: rest => do
      let argument ← classify s
      return argument :: (← classifyAll rest)

/-- What the command is asked to do. -/
structure Options where
  sourceDirectory : String
  outputDirectory : String := "diagrams"
  settingsFile : Option String := none
  leastSeverity : Severity := .info
deriving Repr, DecidableEq, Inhabited

/-- What the arguments ask for. -/
inductive Request where
  | help
  | draw (options : Options)
deriving Repr, DecidableEq, Inhabited

/-- What has been read of the arguments. -/
structure Reading where
  source : Option String := none
  options : Options := { sourceDirectory := "" }
  leftOver : List String := []
deriving Repr, DecidableEq, Inhabited

/-- Take the value of an option. -/
def Reading.take (r : Reading) (flag : Flag) (value : String) : Except UsageError Reading :=
  match flag with
  | .help => .ok r
  | .outputDirectory => .ok { r with options := { r.options with outputDirectory := value } }
  | .settingsFile => .ok { r with options := { r.options with settingsFile := some value } }
  | .logLevel =>
      match Severity.ofWord? value with
      | some leastSeverity => .ok { r with options := { r.options with leastSeverity } }
      | none => .error (.badLevel value)

/-- The short options that follow `-h` in one argument: all must be options, and a
last one that needs a value must have one. -/
def checkCluster (rest : List Argument) : List Char → Except UsageError Unit
  | [] => .ok ()
  | 'h' :: more => checkCluster rest more
  | ['o'] =>
      match rest with
      | .plain _ :: _ => .ok ()
      | _ => .error (.valueMissing .outputDirectory)
  | 'o' :: _ => .ok ()
  | other => .error (.valueIgnored .help (String.ofList other))

/-- The request for help, if nothing is wrong with its option. -/
def askedForHelp (spelling : String) (value : Option String) (rest : List Argument) :
    Except UsageError Request :=
  match value with
  | none => .ok .help
  | some value =>
      if Text.beginsWith "--" spelling then .error (.valueIgnored .help value)
      else do
        checkCluster rest value.toList
        return .help

/-- What is asked for when all arguments have been read. -/
def Reading.finish (r : Reading) : Except UsageError Request :=
  match r.source with
  | none => .error .sourceMissing
  | some sourceDirectory =>
      if r.leftOver.isEmpty then .ok (.draw { r.options with sourceDirectory })
      else .error (.unrecognized r.leftOver)

/-- Read the arguments in order.  The first plain one is the source directory, with
a `--` before or after it. -/
def readArguments (r : Reading) : List Argument → Except UsageError Request
  | [] => r.finish
  | .option .help spelling value :: rest => askedForHelp spelling value rest
  | .option flag _ (some value) :: rest => do readArguments (← r.take flag value) rest
  | .option flag _ none :: .plain value :: rest => do readArguments (← r.take flag value) rest
  | .option flag _ none :: _ => .error (.valueMissing flag)
  | .unknown text :: rest => readArguments { r with leftOver := r.leftOver ++ [text] } rest
  | argument :: rest =>
      match r.source, argument, rest with
      | none, .plain source, .endMark :: rest => readArguments { r with source := some source } rest
      | none, .plain source, rest => readArguments { r with source := some source } rest
      | none, .endMark, .plain source :: rest => readArguments { r with source := some source } rest
      | _, other, rest => readArguments { r with leftOver := r.leftOver ++ [other.text] } rest

/-- What the arguments ask for. -/
def Request.ofArguments (arguments : List String) : Except UsageError Request := do
  readArguments {} (← Argument.classifyAll arguments)

end ClassChart.CommandLine
