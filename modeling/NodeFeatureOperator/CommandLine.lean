import NodeFeatureOperator.Duration
import NodeFeatureOperator.Json.Yaml
import NodeFeatureOperator.Power
import NodeFeatureOperator.Resource.Definition
import NodeFeatureOperator.Text.Displayed

/-!
# The command line

Arguments are read from left to right. The value of an option may follow it as the next argument or
after an equals sign; a value that follows as an argument is looked at only when the next option
turns up or the arguments end. Some options take their value from the environment when they are not
given.

## Main definitions

* `CommandLine.parse`: what arguments and environment ask for.
* `CommandLine.respond`: what the program then writes, and its exit code.
-/

namespace NodeFeatureOperator

namespace CommandLine

/-- An option with a value. -/
inductive Setting where
  | logFormat
  | watchNamespace
  | resync
  | progressRequeue
deriving DecidableEq, Repr, Inhabited

/-- The format of log lines. -/
inductive LogFormat where
  | text
  | json
deriving DecidableEq, Repr, Inhabited

namespace Setting

/-- The name of an option. -/
def name : Setting → String
  | .logFormat => "log-format"
  | .watchNamespace => "watch-namespace"
  | .resync => "resync-secs"
  | .progressRequeue => "progress-requeue-secs"

/-- The name of an option's value. -/
def valueName : Setting → String
  | .logFormat => "LOG_FORMAT"
  | .watchNamespace => "WATCH_NAMESPACE"
  | .resync => "RESYNC_SECS"
  | .progressRequeue => "PROGRESS_REQUEUE_SECS"

/-- How messages show an option. -/
def text (s : Setting) : String := "--" ++ s.name ++ " <" ++ s.valueName ++ ">"

/-- The variable of the environment that stands in for an option. -/
def variableName? : Setting → Option String
  | .logFormat => some "NFD_LOG_FORMAT"
  | .watchNamespace => some "WATCH_NAMESPACE"
  | .resync => none
  | .progressRequeue => none

/-- The options. -/
def all : List Setting := [.logFormat, .watchNamespace, .resync, .progressRequeue]

/-- The option with a name. -/
def ofName? (name : String) : Option Setting := all.find? fun s => s.name == name

end Setting

/-- Why a text is no number of seconds. -/
inductive NumberError where
  | empty
  | invalidDigit
  | tooLarge
deriving DecidableEq, Repr, Inhabited

/-- The text of an error. -/
def NumberError.text : NumberError → String
  | .empty => "cannot parse integer from empty string"
  | .invalidDigit => "invalid digit found in string"
  | .tooLarge => "number too large to fit in target type"

/-- Why the arguments cannot be followed. -/
inductive UsageError where
  | unexpectedArgument (argument : String)
  | unrecognizedSubcommand (argument : String)
  | invalidValue (value : String) (setting : Setting) (cause : Option NumberError)
  | missingValue (setting : Setting)
  | repeated (option : String)
  | unexpectedValue (value option : String)
deriving DecidableEq, Repr, Inhabited

/-- The text of an error. What was given on the command line is quoted as far as it can be
displayed. -/
def UsageError.text : UsageError → String
  | .unexpectedArgument a => "unexpected argument '" ++ Text.displayed a ++ "' found"
  | .unrecognizedSubcommand a => "unrecognized subcommand '" ++ Text.displayed a ++ "'"
  | .invalidValue value setting cause =>
    "invalid value '" ++ Text.displayed value ++ "' for '" ++ setting.text ++ "'" ++
      (match cause with
      | some e => ": " ++ e.text
      | none => "")
  | .missingValue setting =>
    "a value is required for '" ++ setting.text ++ "' but none was supplied"
  | .repeated option => "the argument '" ++ option ++ "' cannot be used multiple times"
  | .unexpectedValue value option =>
    "unexpected value '" ++ Text.displayed value ++ "' for '" ++ option ++
      "' found; no more were expected"

/-- How the controller is to run. -/
structure Options where
  logFormat : LogFormat := .text
  watchNamespace : Option String := none
  resync : Duration := Duration.ofSeconds 60
  progressRequeue : Duration := Duration.ofSeconds 10
deriving DecidableEq, Repr, Inhabited

/-- What the arguments ask for. -/
inductive Request where
  /-- The definition of the resource. -/
  | definition
  /-- The version of the program. -/
  | version
  /-- A summary of the options. -/
  | help
  /-- A run of the controller. -/
  | serve (options : Options)
deriving DecidableEq, Repr, Inhabited

/-- Reads digits after a number read so far, which has to stay below `2 ^ 64`. -/
def digitsFrom (n : Nat) : List Char → Except NumberError Nat
  | [] => .ok n
  | c :: rest =>
    if c.isDigit then
      let next := n * 10 + (c.toNat - '0'.toNat)
      if next < twoTo 64 then digitsFrom next rest else .error .tooLarge
    else .error .invalidDigit

/-- Reads a number of seconds; a plus sign may stand before it. -/
def seconds (text : String) : Except NumberError Nat :=
  match text.toList with
  | [] => .error .empty
  | ['+'] => .error .invalidDigit
  | '+' :: digits => digitsFrom 0 digits
  | digits => digitsFrom 0 digits

/-- The arguments as far as they have been read: whether the definition is asked for, the options
that have a value, and an option that still waits for its value or for this value to be looked
at. -/
structure Reading where
  definition : Bool := false
  options : Options := {}
  given : List Setting := []
  pending : Option (Setting × Option String) := none
deriving Repr, Inhabited

/-- Options with one of them set. -/
def Options.set (s : Setting) (value : String) (o : Options) : Except UsageError Options :=
  match s with
  | .logFormat =>
    match value with
    | "text" => .ok { o with logFormat := .text }
    | "json" => .ok { o with logFormat := .json }
    | "" => .error (.missingValue s)
    | _ => .error (.invalidValue value s none)
  | .watchNamespace => .ok { o with watchNamespace := some value }
  | .resync =>
    match seconds value with
    | .ok n => .ok { o with resync := Duration.ofSeconds n }
    | .error e => .error (.invalidValue value s (some e))
  | .progressRequeue =>
    match seconds value with
    | .ok n => .ok { o with progressRequeue := Duration.ofSeconds n }
    | .error e => .error (.invalidValue value s (some e))

namespace Reading

/-- Takes in the value of an option, which may be given once. -/
def give (s : Setting) (value : String) (r : Reading) : Except UsageError Reading :=
  if s ∈ r.given then .error (.repeated s.text)
  else (r.options.set s value).map fun o => { r with options := o, given := s :: r.given }

/-- Looks at the value that was left for later. -/
def settle (r : Reading) : Except UsageError Reading :=
  match r.pending with
  | none => .ok r
  | some (s, none) => .error (.missingValue s)
  | some (s, some value) => give s value { r with pending := none }

/-- Whether an option waits for the next argument. -/
def awaitsValue (r : Reading) : Bool :=
  match r.pending with
  | some (_, none) => true
  | _ => false

end Reading

/-- Why reading ends before the last argument. -/
inductive Stop where
  | usage (e : UsageError)
  | version
  | help
deriving DecidableEq, Repr, Inhabited

/-- The same outcome, with an error as a reason to stop. -/
def orStop {α : Type} : Except UsageError α → Except Stop α
  | .ok a => .ok a
  | .error e => .error (.usage e)

/-- The name and the value of an argument that starts with two dashes. -/
def long? (argument : String) : Option (String × Option String) :=
  match argument.toList with
  | '-' :: '-' :: rest =>
    let name := String.ofList (rest.takeWhile (· != '='))
    match rest.dropWhile (· != '=') with
    | _ :: value => some (name, some (String.ofList value))
    | [] => some (name, none)
  | _ => none

/-- The first letter of an argument that starts with one dash. -/
def short? (argument : String) : Option Char :=
  match argument.toList with
  | '-' :: c :: _ => some c
  | _ => none

/-- The error for an option that does not exist. -/
def unknownOption (name : String) : Stop := .usage (.unexpectedArgument ("--" ++ name))

/-- The error for a letter that is no option. -/
def unknownLetter (c : Char) : Stop := .usage (.unexpectedArgument (String.ofList ['-', c]))

/-- Reads the arguments after the subcommand, which knows no options but a call for help. After a
pair of dashes it knows none at all. -/
def readSubcommand (plain : Bool) : List String → Except Stop Unit
  | [] => .ok ()
  | a :: rest =>
    if plain then .error (.usage (.unexpectedArgument a))
    else if a = "--" then readSubcommand true rest
    else
      match long? a, short? a with
      | some ("help", none), _ => .error .help
      | some ("help", some value), _ => .error (.usage (.unexpectedValue value "--help"))
      | some (name, _), _ => .error (unknownOption name)
      | none, some 'h' => .error .help
      | none, some c => .error (unknownLetter c)
      | none, none => .error (.usage (.unexpectedArgument a))

/-- The subcommands. -/
def subcommands : List String := ["controller", "help"]

/-- Reads what follows a call for help: the path to a subcommand. No subcommand has subcommands of
its own. -/
def readHelp : List String → Stop
  | [] => .help
  | a :: rest =>
    if subcommands.contains a then
      match rest with
      | [] => .help
      | b :: _ => .usage (.unrecognizedSubcommand b)
    else .usage (.unrecognizedSubcommand a)

/-- Reads what follows a pair of dashes, where nothing is expected. -/
def readPlain (r : Reading) : List String → Except Stop Reading
  | [] => orStop r.settle
  | a :: _ =>
    if subcommands.contains a then .error (.usage (.unexpectedArgument a))
    else .error (.usage (.unrecognizedSubcommand a))

/-- What an option without a value does: it changes the reading or ends it. -/
def flag (name : String) (r : Reading) : Except Stop Reading := do
  let r ← orStop r.settle
  match name with
  | "crd" =>
    if r.definition then .error (.usage (.repeated "--crd")) else .ok { r with definition := true }
  | "version" => .error .version
  | _ => .error .help

/-- Reads an option. -/
def readLong (name : String) (value : Option String) (r : Reading) : Except Stop Reading :=
  if ["crd", "version", "help"].contains name then
    match value with
    | some v => .error (.usage (.unexpectedValue v ("--" ++ name)))
    | none => flag name r
  else
    match Setting.ofName? name with
    | none => .error (unknownOption name)
    | some s => do
      let r ← orStop r.settle
      match value with
      | some v => orStop (r.give s v)
      | none => .ok { r with pending := some (s, none) }

/-- Reads arguments. -/
def read (r : Reading) : List String → Except Stop Reading
  | [] => orStop r.settle
  | a :: rest =>
    if !r.awaitsValue && a = "controller" then do
      readSubcommand false rest
      orStop r.settle
    else if !r.awaitsValue && a = "help" then .error (readHelp rest)
    else if a = "--" then readPlain r rest
    else
      match long? a, short? a, r.pending with
      | some (name, value), _, _ => do
        let r ← readLong name value r
        read r rest
      | none, some 'V', _ => flag "version" r
      | none, some 'h', _ => flag "help" r
      | none, some c, _ => .error (unknownLetter c)
      | none, none, some (s, none) => read { r with pending := some (s, some a) } rest
      | none, none, _ => .error (.usage (.unrecognizedSubcommand a))

/-- Takes options that were not given from the environment. -/
def fromEnvironment (environment : List (String × String)) (r : Reading) :
    Except UsageError Reading :=
  Setting.all.foldlM (fun r s =>
    match s.variableName?.bind fun v => environment.lookup v with
    | some value => if s ∈ r.given then .ok r else r.give s value
    | none => .ok r) r

/-- What arguments and environment ask for. -/
def parse (arguments : List String) (environment : List (String × String)) :
    Except UsageError Request :=
  match read {} arguments with
  | .error (.usage e) => .error e
  | .error .version => .ok .version
  | .error .help => .ok .help
  | .ok r =>
    (fromEnvironment environment r).map fun r =>
      if r.definition then .definition else .serve r.options

/-- The name of the program. -/
def programName : String := "nfd-operator"

/-- The version of the program. -/
def programVersion : String := "0.1.0"

/-- A summary of the options. -/
def summary : String :=
  "Usage: " ++ programName ++ " [OPTIONS] [COMMAND]\n\nCommands:\n  controller\n  help\n\n" ++
    "Options:\n  --crd\n" ++ String.join (Setting.all.map fun s => "  " ++ s.text ++ "\n") ++
    "  --help\n  --version\n"

/-- What a run of the program writes, and how it ends. -/
structure Response where
  exitCode : UInt32
  output : String := ""
  errors : String := ""
deriving DecidableEq, Repr, Inhabited

/-- What the program does when it is asked for something that does not take a cluster. -/
def respond (arguments : List String) (environment : List (String × String)) :
    Response ⊕ Options :=
  match parse arguments environment with
  | .error e =>
    .inl { exitCode := 2,
           errors := "error: " ++ e.text ++ "\n\nFor more information, try '--help'.\n" }
  | .ok .version =>
    .inl { exitCode := 0, output := programName ++ " " ++ programVersion ++ "\n" }
  | .ok .help => .inl { exitCode := 0, output := summary }
  | .ok .definition => .inl { exitCode := 0, output := Definition.document.yaml ++ "\n" }
  | .ok (.serve options) => .inr options

end CommandLine

end NodeFeatureOperator
