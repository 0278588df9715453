import ShellTree.Sink.Basic
import ShellTree.Text.Look

/-!
# Arguments

What the arguments of the program ask for. There are three subcommands, each of which takes a file;
`render` takes flags as well, and the option `--config` may stand before or after any of them.

The arguments are taken in order. The value of an option that stands in an argument of its own, and
a file, are only examined when the next option or file that is known is taken, or at the end, so
an unknown argument behind them is noticed before them. What a subcommand gets wrong is noticed
before what is still pending in front of it; contradicting flags come before a missing file.
-/

namespace ShellTree.CommandLine

inductive Subcommand where
  | render
  | check
  | modes
deriving DecidableEq

inductive Flag where
  | multiLine
  | singleLine
  | noValidate
deriving DecidableEq

inductive Parameter where
  | config
  | file
  | flag (flag : Flag)
  | version
  | help
deriving DecidableEq

def Parameter.text : Parameter → String
  | .config => "--config <CONFIG>"
  | .file => "<FILE>"
  | .flag .multiLine => "--multi-line"
  | .flag .singleLine => "--single-line"
  | .flag .noValidate => "--no-validate"
  | .version => "--version"
  | .help => "--help"

/-- Where an argument stands: in front of the subcommand, or behind it. -/
inductive Scope where
  | program
  | inside (subcommand : Subcommand)
deriving DecidableEq

/-- The subcommand of a name or a shorter one. -/
def Subcommand.ofName? : String → Option Subcommand
  | "render" => some .render
  | "r" => some .render
  | "check" => some .check
  | "c" => some .check
  | "modes" => some .modes
  | _ => none

def isSubcommandName (name : String) : Bool := name = "help" || (Subcommand.ofName? name).isSome

def Scope.long? (scope : Scope) : String → Option Parameter
  | "config" => some .config
  | "help" => some .help
  | "version" => if scope = .program then some .version else none
  | "multi-line" => if scope = .inside .render then some (.flag .multiLine) else none
  | "single-line" => if scope = .inside .render then some (.flag .singleLine) else none
  | "no-validate" => if scope = .inside .render then some (.flag .noValidate) else none
  | _ => none

def Scope.short? (scope : Scope) : Char → Option Parameter
  | 'h' => some .help
  | 'V' => if scope = .program then some .version else none
  | 'm' => if scope = .inside .render then some (.flag .multiLine) else none
  | 's' => if scope = .inside .render then some (.flag .singleLine) else none
  | _ => none

inductive UsageFault where
  | unexpected (argument : String)
  | unknownSubcommand (name : String)
  | missingArguments
  | conflict (first second : Flag)
  | repeated (parameter : Parameter)
  | missingValue (parameter : Parameter)
  | unexpectedValue (value : String) (parameter : Parameter)
  | missingSubcommand

/-- A word that a message takes from the arguments, in quotation marks and with its look. -/
def quotedWord (word : String) (look : Text.Look := .yellow) : String :=
  "'" ++ look.apply word ++ "'"

def UsageFault.message : UsageFault → String
  | .unexpected argument => "unexpected argument " ++ quotedWord argument ++ " found"
  | .unknownSubcommand name => "unrecognized subcommand " ++ quotedWord name
  | .missingArguments => "the following required arguments were not provided:"
  | .conflict first second =>
    "the argument " ++ quotedWord (Parameter.flag first).text ++ " cannot be used with " ++
      quotedWord (Parameter.flag second).text
  | .repeated parameter =>
    "the argument " ++ quotedWord parameter.text ++ " cannot be used multiple times"
  | .missingValue parameter =>
    "a value is required for " ++ quotedWord parameter.text ++ " but none was supplied"
  | .unexpectedValue value parameter =>
    "unexpected value " ++ quotedWord value ++ " for " ++ quotedWord parameter.text .bold ++
      " found; no more were expected"
  | .missingSubcommand => quotedWord "shprint" ++ " requires a subcommand but one was not provided"

/-- Why there is nothing to do but to write a text about the program itself. -/
inductive Stop where
  | version
  | help (scope : Scope)
  /-- Help is wanted on how to get help. -/
  | helpOnHelp
  /-- There are no arguments at all. -/
  | noArguments
  | usage (fault : UsageFault)

/-- What has been asked for so far in a scope. -/
structure Progress where
  config : Option String := none
  file : Option String := none
  /-- The flags in the order in which they were given. -/
  flags : List Flag := []
  /-- What was taken but not examined yet: an option without or with its value, or a file. -/
  pending : Option (Parameter × Option String) := none
  /-- Whether all that follows is a file. -/
  filesOnly : Bool := false

namespace Progress

/-- Whether the next argument that does not look like an option is the value of one. -/
def awaitsValue (progress : Progress) : Bool := progress.pending = some (.config, none)

/-- Accepts the value of the option or of the file. No value may be empty, and the option is given
once. -/
def accept (progress : Progress) (parameter : Parameter) (value : String) :
    Except Stop Progress :=
  if parameter = .config ∧ progress.config.isSome then .error (.usage (.repeated .config))
  else if value.isEmpty then .error (.usage (.missingValue parameter))
  else if parameter = .config then .ok { progress with config := some value }
  else .ok { progress with file := some value }

def settle (progress : Progress) : Except Stop Progress :=
  match progress.pending with
  | none => .ok progress
  | some (parameter, none) => .error (.usage (.missingValue parameter))
  | some (parameter, some value) => { progress with pending := none }.accept parameter value

def takePlain (progress : Progress) (scope : Scope) (parameter : Parameter) :
    Except Stop Progress := do
  let settled ← progress.settle
  match parameter with
  | .version => .error .version
  | .help => .error (.help scope)
  | .flag flag =>
    if flag ∈ settled.flags then .error (.usage (.repeated parameter))
    else return { settled with flags := settled.flags ++ [flag] }
  | _ => return settled

/-- Takes a long option, given without its two dashes, with the value behind its equals sign. -/
def takeLong (progress : Progress) (scope : Scope) (name : String) (value : Option String) :
    Except Stop Progress :=
  match scope.long? name, value with
  | some .config, some value => do (← progress.settle).accept .config value
  | some .config, none => do return { ← progress.settle with pending := some (.config, none) }
  | some parameter, none => progress.takePlain scope parameter
  | some parameter, some value => .error (.usage (.unexpectedValue value parameter))
  | none, _ => .error (.usage (.unexpected ("--" ++ name)))

/-- Takes letters that stand together behind one dash. -/
def takeShort (progress : Progress) (scope : Scope) : List Char → Except Stop Progress
  | [] => .ok progress
  | letter :: rest =>
    match scope.short? letter with
    | some parameter => do takeShort (← progress.takePlain scope parameter) scope rest
    | none => .error (.usage (.unexpected ("-" ++ String.singleton letter)))

/-- Takes an argument that is no option: a file, of which a subcommand has one. The name of a
subcommand that is not taken for one is unexpected. -/
def takeFile (progress : Progress) (scope : Scope) (argument : String) : Except Stop Progress :=
  match scope with
  | .program =>
    if isSubcommandName argument then .error (.usage (.unexpected argument))
    else .error (.usage (.unknownSubcommand argument))
  | .inside _ =>
    let hasFile := progress.file.isSome || (progress.pending.map (·.1)) = some .file
    if hasFile then .error (.usage (.unexpected argument))
    else do return { ← progress.settle with pending := some (.file, some argument) }

def take (progress : Progress) (scope : Scope) (argument : String) : Except Stop Progress :=
  if progress.filesOnly then progress.takeFile scope argument
  else
    match argument.toList with
    | ['-', '-'] => .ok { progress with filesOnly := true }
    | '-' :: '-' :: option =>
      let (name, value) := option.span (· ≠ '=')
      progress.takeLong scope (String.ofList name)
        (if value.isEmpty then none else some (String.ofList (value.drop 1)))
    | '-' :: letter :: letters => progress.takeShort scope (letter :: letters)
    | _ =>
      if progress.awaitsValue then .ok { progress with pending := some (.config, some argument) }
      else progress.takeFile scope argument

end Progress

structure Invocation where
  subcommand : Subcommand
  file : String
  config : Option String := none
  flags : List Flag := []
deriving DecidableEq

namespace Invocation

def lineMode? (invocation : Invocation) : Option LineMode :=
  if .multiLine ∈ invocation.flags then some .multi
  else if .singleLine ∈ invocation.flags then some .single
  else none

end Invocation

/-- The two flags that ask for different line modes, in the order in which they were given. -/
def conflict? (flags : List Flag) : Option (Flag × Flag) :=
  match flags.filter (· ≠ .noValidate) with
  | first :: second :: _ => some (first, second)
  | _ => none

def readInside (subcommand : Subcommand) (arguments : List String) : Except Stop Invocation := do
  let progress ← arguments.foldlM (fun progress => progress.take (.inside subcommand)) {}
  let progress ← Progress.settle progress
  match conflict? progress.flags, progress.file with
  | some (first, second), _ => .error (.usage (.conflict first second))
  | none, none => .error (.usage .missingArguments)
  | none, some file =>
    return { subcommand, file, config := progress.config, flags := progress.flags }

/-- Takes the arguments of `help`, which name a subcommand, `help` itself or nothing. -/
def readHelp : List String → Stop
  | [] => .help .program
  | [name] =>
    if name = "help" then .helpOnHelp
    else
      match Subcommand.ofName? name with
      | some subcommand => .help (.inside subcommand)
      | none => .usage (.unknownSubcommand name)
  | name :: next :: _ =>
    if isSubcommandName name then .usage (.unknownSubcommand next)
    else .usage (.unknownSubcommand name)

/-- Takes the arguments in front of the subcommand, and then those behind it. A configuration that
is given behind the subcommand wins over one in front of it. -/
def readProgram (progress : Progress) : List String → Except Stop Invocation
  | [] => do
    let progress ← progress.settle
    .error (if progress.config.isSome then .usage .missingSubcommand else .noArguments)
  | argument :: rest => do
    if progress.filesOnly || progress.awaitsValue then
      readProgram (← progress.take .program argument) rest
    else if argument = "help" then .error (readHelp rest)
    else
      match Subcommand.ofName? argument with
      | some subcommand =>
        let invocation ← readInside subcommand rest
        let outer ← progress.settle
        return { invocation with config := invocation.config.or outer.config }
      | none => readProgram (← progress.take .program argument) rest

def readArguments (arguments : List String) : Except Stop Invocation := readProgram {} arguments

end ShellTree.CommandLine
