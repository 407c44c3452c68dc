import Mustache.Config.Environment
import Mustache.Config.Settings
import Mustache.Data.Toml.Reader
import Mustache.Files.Tree
import Mustache.Text.Utf8

/-! Loading settings. They come from a settings file, if one is given, over which those
in environment variables take precedence. A project file holds the settings of several
tools and ours among them; the directories of a search path in a file are seen from the
place of the file. -/

namespace Mustache.Config

open Data Files

/-- Why no settings were loaded. -/
inductive LoadFailure
  | unreadable (path : Path)
  | malformed
  | invalid (rejection : Rejection)
  | unusable
  | tooDeep
  | notATable
  | notAPath
deriving DecidableEq, Repr

def LoadFailure.headline : LoadFailure → String
  | .unreadable path => "Config file could not be read: " ++ path.text
  | .malformed => "Failed to parse TOML file: "
  | .invalid _ => "Invalid configuration: "
  | .unusable => "Unusable text in the configuration"
  | .tooDeep => "The configuration is nested too deeply"
  | .notATable => "The configuration is not a table"
  | .notAPath => "A directory of the search path is not a text"

/-- What more there is to say about a failure. -/
def LoadFailure.detail : LoadFailure → Option String
  | .malformed => some "malformed text"
  | .invalid rejection => some rejection.text
  | _ => none

def projectFileName : String := "pyproject.toml"

def projectKeys : List String := ["tool", "stache"]

/-- Parses a settings file. -/
def parseFile (host : Host) (tree : FileTree) (p : Path) : Except LoadFailure Table :=
  match tree.read p with
  | .error .nulCharacter => .error .unusable
  | .error _ => .error (.unreadable p)
  | .ok bytes =>
    match Text.Utf8.decode? bytes with
    | none => .error .unusable
    | some text =>
      match Toml.parse host.textLevels text with
      | .ok table => .ok table
      | .error .malformed => .error .malformed
      | .error .tooDeep => .error .tooDeep
      | .error _ => .error .unusable

/-- The table at a path of keys, which is empty if a key is missing. -/
def descend : List String → Table → Except LoadFailure Table
  | [], table => .ok table
  | key :: keys, table =>
    match Fields.find? key table with
    | none => .ok []
    | some (.table inner) => descend keys inner
    | some _ => .error .notATable

/-- Directories as seen from the place of the file that names them. -/
def anchor (directory : Path) (entries : List Document) : Except LoadFailure (List Document) :=
  entries.mapM fun entry =>
    match entry with
    | .text s => .ok (.text (directory.join (.ofText s)).text)
    | _ => .error .notAPath

/-- Anchors the search path of a table, if it is a text or a list. -/
def anchorSearchPath (directory : Path) (table : Table) : Except LoadFailure Table :=
  let entries := match Fields.find? "search_path" table with
    | some (.text s) => some [.text s]
    | some (.list items) => some items
    | _ => none
  match entries with
  | none => .ok table
  | some entries =>
    (anchor directory entries).map fun anchored =>
      Fields.put "search_path" (.list anchored) table

def readFile (host : Host) (tree : FileTree) (p : Path) : Except LoadFailure Table := do
  let whole ← parseFile host tree p
  let table ← if p.name = projectFileName then descend projectKeys whole else .ok whole
  anchorSearchPath p.parent table

/-- A table with the entries of another put into it, as far as the host can go down into
tables that both of them have. -/
def mergeOn (host : Host) (base override : Table) : Except LoadFailure Table :=
  if host.tableLevels < overlap base override then .error .tooDeep else .ok (merge base override)

/-- Loads settings from a file and from environment variables, where they are given,
and checks them. -/
def load (host : Host) (validate : Validator) (tree : FileTree) (path : Option Path)
    (environment : Option Environment) : Except LoadFailure Settings := do
  let base ← match path with
    | none => .ok []
    | some p => readFile host tree p
  let override ← match environment with
    | none => .ok []
    | some entries =>
      (readEnvironment host.listLevels variablePrefix (Fields.ofList entries)).mapError
        fun failure => if failure = .tooDeep then .tooDeep else .unusable
  let table ← mergeOn host base override
  (validate table).mapError .invalid

end Mustache.Config
