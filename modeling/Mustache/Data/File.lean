import Mustache.Data.Document
import Mustache.Files.Tree
import Mustache.Text.Lowercase
import Mustache.Text.Utf8

/-! Data files, which hold the contexts of templates. The suffix of its name decides on
the format of a file; the readers of the formats are given from outside. -/

namespace Mustache.Data

open Files

inductive Format
  | json | toml | yaml
deriving DecidableEq, Repr

def suffixes : List (String × Format) :=
  [(".json", .json), (".toml", .toml), (".yaml", .yaml), (".yml", .yaml)]

inductive FileFailure
  | unsupported (suffix : String)
  | path (fault : PathFault)
  | notText
  | text (format : Format) (failure : ReadFailure)
deriving DecidableEq, Repr

def unsupportedMessage (suffix : String) : String :=
  "Unsupported data format '" ++ suffix ++ "', expected one of: "
    ++ ", ".intercalate (suffixes.map Prod.fst)

def Format.name : Format → String
  | .json => "JSON"
  | .toml => "TOML"
  | .yaml => "YAML"

/-- What more there is to say about a failure. An unsupported suffix is said in full. -/
def FileFailure.detail : FileFailure → String
  | .unsupported suffix => unsupportedMessage suffix
  | .path _ => "the file could not be read"
  | .notText => "the file is not UTF-8 text"
  | .text format .tooDeep => "too many levels of nesting in " ++ format.name
  | .text format .outOfRange => "a value is out of range in " ++ format.name
  | .text format .characterTooLarge => "a character is out of range in " ++ format.name
  | .text format _ => "malformed " ++ format.name

/-- Whether a failure says what is wrong with a file. With the others its reader gives up
halfway. -/
def FileFailure.isExpected : FileFailure → Bool
  | .text .json _ => true
  | .text _ failure => failure == .malformed || failure == .outOfRange
  | _ => true

abbrev Reader (α : Type) := Format → List Char → Except ReadFailure α

/-- Reads a data file. Its suffix is looked at before the file is. -/
def load {α : Type} (read : Reader α) (tree : FileTree) (p : Path) : Except FileFailure α :=
  let suffix := Text.lowercase p.suffix
  match suffixes.lookup suffix with
  | none => .error (.unsupported suffix)
  | some format =>
    match tree.read p with
    | .error fault => .error (.path fault)
    | .ok bytes =>
      match Text.Utf8.decode? bytes with
      | none => .error .notText
      | some text => (read format text).mapError (.text format)

end Mustache.Data
