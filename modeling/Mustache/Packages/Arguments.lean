import Mustache.CommandLine.Invocation
import Mustache.Number.Literal
import Mustache.Text.Lowercase

/-! The arguments of the command line, as the package reads them that the program is run
with. A command is followed by words and options in any
order; the value of an option follows it as the next argument, behind an equals sign or,
if the option is a single letter, directly behind it. Negative numbers are words, and so
are all arguments behind two dashes. -/

namespace Mustache.CommandLine

open Files

/-- The options. -/
inductive Switch
  | config | searchPath | extension | data | template
deriving DecidableEq, Repr

/-- The options of all commands by their names. -/
def commonSwitches : List (String × Switch) :=
  [("--config", .config), ("--search-path", .searchPath), ("-I", .searchPath),
    ("--extension", .extension)]

/-- The options of the command that renders, whose word can be given as an option. -/
def renderSwitches : List (String × Switch) :=
  commonSwitches ++ [("--data", .data), ("-d", .data), ("--template", .template)]

/-- The name of an option as it is listed, with a dash for every underscore. -/
def listedName (name : String) : String := name.map fun c => if c == '_' then '-' else c

/-- An option without any influence: only the directories that are given or configured
are searched anyway. -/
def idleOption : String := "--empty-search-path"

/-- The truth values that may be given to it. -/
def truthWords : List String :=
  ["yes", "y", "1", "true", "t", "no", "n", "0", "false", "f"]

/-- Whether an option without influence is written as it should be. -/
def isIdle (name : String) (value : Option String) : Bool :=
  listedName name == idleOption && value.all fun s => truthWords.contains (Text.lowercase s)

def helpFlags : List String := ["--help", "-h"]

def versionFlag : String := "--version"

structure Given where
  words : List String
  options : List (Switch × String)
deriving DecidableEq, Repr

def Given.addWord (word : String) (given : Given) : Given :=
  { given with words := word :: given.words }

def Given.addOption (switch : Switch) (value : String) (given : Given) : Given :=
  { given with options := (switch, value) :: given.options }

/-- Whether an argument is an option: it starts with a dash and is no number. -/
def isOption (argument : String) : Bool :=
  argument.startsWith "-" && !Number.isNumber argument.toList

def splitOption (argument : String) : String × Option String :=
  let name := argument.toList.takeWhile (· != '=')
  match argument.toList.drop name.length with
  | _ :: value => (String.ofList name, some (String.ofList value))
  | [] => (String.ofList name, none)

def attached? (switches : List (String × Switch)) (argument : String) :
    Option (Switch × String) :=
  match argument.toList with
  | '-' :: letter :: first :: value =>
    (switches.lookup (String.ofList ['-', letter])).map fun switch =>
      (switch, String.ofList (first :: value))
  | _ => none

/-- Sorts arguments into words and options. An option that is unknown or lacks its value
makes the command line unusable. -/
def gather (switches : List (String × Switch)) : List String → Option Given
  | [] => some ⟨[], []⟩
  | argument :: rest =>
    if argument == "--" then some ⟨rest, []⟩
    else if !isOption argument then (gather switches rest).map (·.addWord argument)
    else
      let (name, value) := splitOption argument
      match switches.lookup (listedName name), value, rest with
      | some switch, some value, rest => (gather switches rest).map (·.addOption switch value)
      | some switch, none, value :: rest =>
        if isOption value then none else (gather switches rest).map (·.addOption switch value)
      | some _, none, [] => none
      | none, value, rest =>
        if isIdle name value then gather switches rest
        else match attached? switches argument with
          | some (switch, value) => (gather switches rest).map (·.addOption switch value)
          | none => none

def Given.values (given : Given) (switch : Switch) : List String :=
  given.options.filterMap fun option => if option.1 = switch then some option.2 else none

def Given.value? (given : Given) (switch : Switch) : Option (Option String) :=
  match given.values switch with
  | [] => some none
  | [value] => some (some value)
  | _ => none

def invoke (given : Given) (command : Command) : Option Request := do
  let config ← given.value? .config
  let extension ← given.value? .extension
  return .run ⟨command, config.map Path.ofText, (given.values .searchPath).map Path.ofText,
    extension⟩

def asksForHelp (arguments : List String) : Bool :=
  (arguments.takeWhile (· != "--")).any helpFlags.contains

/-- The request for help or the version on a command line without a command. Nothing but
the flag of the version in front may stand beside those of help. -/
def parseFlags (arguments : List String) : Option Request :=
  let beside := if arguments.head? = some versionFlag then arguments.tail else arguments
  if asksForHelp arguments then
    if beside.all helpFlags.contains then some .help else none
  else if arguments.isEmpty || arguments.contains versionFlag then some .help
  else none

/-- What a command with arguments behind it asks for, unless it asks for help. -/
def orHelp (arguments : List String) (request : Option Request) : Option Request :=
  if asksForHelp arguments || arguments.contains versionFlag then some .help else request

/-- What a command line asks for, unless it is unusable. -/
def parse (arguments : List String) : Option Request :=
  match arguments with
  | "check" :: rest => orHelp rest do
    let given ← gather commonSwitches rest
    invoke given (.check given.words)
  | "render" :: rest => orHelp rest do
    let given ← gather renderSwitches rest
    let data ← given.value? .data
    match given.values .template ++ given.words with
    | [template] => invoke given (.render template (data.map Path.ofText))
    | _ => none
  | arguments => parseFlags arguments

end Mustache.CommandLine
