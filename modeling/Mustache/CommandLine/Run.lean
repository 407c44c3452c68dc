import Mustache.CommandLine.Invocation
import Mustache.Config.File
import Mustache.Data.File
import Mustache.Engine
import Mustache.Log.File

/-! What the commands do. A command reads files, writes to standard output, may end with
a complaint on standard error, and has an exit code that says how it went. -/

namespace Mustache.CommandLine

open Files

/-- How a command ended. -/
inductive ExitCode
  | success | loadError | syntaxError | notFound | ioError | renderError
deriving DecidableEq, Repr

def ExitCode.number : ExitCode → Nat
  | .success => 0
  | .loadError => 1
  | .syntaxError => 2
  | .notFound => 3
  | .ioError => 4
  | .renderError => 5

def exitCode : Trouble → ExitCode
  | .notFound => .notFound
  | .unreadable _ | .oversized _ | .sink _ => .ioError
  | .defect _ => .syntaxError
  | .outOfMemory | .shape => .renderError

def misuseCode : Nat := 2

/-- A line on standard error: what failed, and what more there is to say about it. -/
structure Complaint where
  headline : String
  detail : Option String := none
deriving DecidableEq, Repr

def Complaint.text (c : Complaint) : String := c.headline ++ c.detail.getD "" ++ "\n"

structure Output where
  exit : Nat
  stdout : String
  complaint : Option Complaint := none
  events : List Event := []
deriving DecidableEq, Repr

/-- The output of a command after the events that came before it. -/
def Output.after (events : List Event) (out : Output) : Output :=
  { out with events := events ++ out.events }

/-- What the program takes from packages: the check of settings, the readers of data files,
the reader of command lines, of which those that are unusable ask for nothing, and what is
written of log entries. -/
structure Packages where
  validate : Config.Validator
  read : Data.Reader Datum
  arguments : List String → Option Request
  writer : Log.Writer

/-- What ends a command without an exit code of its own. -/
inductive Abort
  | settings (failure : Config.LoadFailure)
  | data (failure : Data.FileFailure)
  | path (fault : PathFault)
  | run (failure : Failure)
deriving DecidableEq, Repr

def complain (code : ExitCode) (headline : String) (detail : Option String) : Output :=
  { exit := code.number, stdout := "", complaint := some ⟨"Error: " ++ headline, detail⟩ }

def dataFailure (p : Path) (failure : Data.FileFailure) : Except Abort Output :=
  let failed := "Failed to load data file " ++ p.text ++ ": "
  match failure with
  | .unsupported suffix =>
    .ok (complain .loadError (failed ++ Data.unsupportedMessage suffix) none)
  | failure =>
    if failure.isExpected then .ok (complain .loadError failed (some failure.detail))
    else .error (.data failure)

def readData (packages : Packages) (tree : FileTree) :
    Option Path → Except (Except Abort Output) Datum
  | none => .ok (.ofFields [])
  | some p => (Data.load packages.read tree p).mapError (dataFailure p)

/-- The complaint about settings that were not loaded, unless nobody expects it. -/
def settingsFailure (failure : Config.LoadFailure) : Except Abort Output :=
  match failure with
  | .unreadable _ | .malformed | .invalid _ =>
    .ok (complain .loadError failure.headline failure.detail)
  | _ => .error (.settings failure)

def Invocation.override (i : Invocation) (settings : Settings) : Settings :=
  { settings with
    searchPath := if i.searchPath.isEmpty then settings.searchPath else i.searchPath
    extension := i.extension.getD settings.extension }

/-- The engine of settings, over the files as they are once its log file is open, and the log
file. -/
def openEngine (host : Host) (writer : Log.Writer) (tree : FileTree)
    (environment : Config.Environment) (settings : Settings) :
    Except PathFault (Engine × Option Log.Journal) :=
  (Log.openJournal writer tree environment settings.logging).map fun (tree, journal) =>
    (Engine.fresh (Setup.ofSettings settings (settings.loader host tree)), journal)

/-- An engine after its log file has taken down events. -/
def noting (journal : Option Log.Journal) (events : List Event) (engine : Engine) : Engine :=
  match journal with
  | none => engine
  | some journal =>
    let loader := engine.setup.loader.changeFiles (journal.note events)
    { engine with setup := { engine.setup with loader } }

/-- Compiles templates and reports on each. The exit code is that of the first one that
fails. What is logged about a template is in the log file when the next one is compiled. -/
def check (journal : Option Log.Journal) (engine : Engine) (code : ExitCode) (report : String) :
    List String → Except Abort Output
  | [] => .ok { exit := code.number, stdout := report }
  | identifier :: rest =>
    let (outcome, next) := engine.step (.compile [identifier])
    let events := outcome.session.events.toList
    match outcome.result with
    | .ok _ =>
      (check journal (noting journal events next) code (report ++ identifier ++ ": ok\n") rest).map
        (·.after events)
    | .error (.template e) =>
      (check journal (noting journal events next)
        (if code = .success then exitCode e.trouble else code)
        (report ++ identifier ++ ": " ++ e.report) rest).map (·.after events)
    | .error failure => .error (.run failure)

/-- Renders a template. What was written before a failure stays. -/
def render (engine : Engine) (template : String) (context : Datum) : Except Abort Output :=
  let (outcome, _) := engine.step (.render template context .unlimited)
  let written := outcome.session.sink.output
  let events := outcome.session.events.toList
  match outcome.result with
  | .ok _ => .ok ⟨ExitCode.success.number, written, none, events⟩
  | .error (.template e) =>
    let start := if e.trouble = .shape then "Error: " ++ e.message
      else template ++ ": " ++ e.located
    .ok ⟨(exitCode e.trouble).number, written, some ⟨start, none⟩, events⟩
  | .error failure => .error (.run failure)

def Invocation.settings (i : Invocation) (host : Host) (validate : Config.Validator)
    (tree : FileTree) (environment : Config.Environment) :
    Except Config.LoadFailure Settings :=
  (Config.load host validate tree i.config (some environment)).map i.override

/-- Carries out an invocation on an engine made from its settings, with its log file. -/
def Invocation.withEngine (i : Invocation) (host : Host) (packages : Packages) (tree : FileTree)
    (environment : Config.Environment)
    (action : Engine → Option Log.Journal → Except Abort Output) : Except Abort Output :=
  match i.settings host packages.validate tree environment with
  | .error failure => settingsFailure failure
  | .ok settings =>
    match openEngine host packages.writer tree environment settings with
    | .error fault => .error (.path fault)
    | .ok (engine, journal) => action engine journal

/-- Carries out an invocation. Data are read before settings are. -/
def Invocation.run (i : Invocation) (host : Host) (packages : Packages) (tree : FileTree)
    (environment : Config.Environment) : Except Abort Output :=
  match i.command with
  | .check templates =>
    i.withEngine host packages tree environment fun engine journal =>
      check journal engine .success "" templates
  | .render template data =>
    match readData packages tree data with
    | .error ending => ending
    | .ok context =>
      i.withEngine host packages tree environment fun engine _ => render engine template context

def run (host : Host) (packages : Packages) (tree : FileTree)
    (environment : Config.Environment) (arguments : List String) : Except Abort Output :=
  match packages.arguments arguments with
  | none => .ok { exit := misuseCode, stdout := "" }
  | some .help => .ok { exit := ExitCode.success.number, stdout := "" }
  | some (.run i) => i.run host packages tree environment

end Mustache.CommandLine
