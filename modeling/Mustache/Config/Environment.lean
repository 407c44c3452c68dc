import Mustache.Config.Table
import Mustache.Data.Json
import Mustache.Number.Integer
import Mustache.Text.Lowercase

/-! Settings in environment variables. The name of a variable gives a path of keys, and
its text is a truth value, an integer, a list or, if it is none of these, itself. -/

namespace Mustache.Config

open Data

/-- Environment variables in the order in which they were set. -/
abbrev Environment := List (String × String)

/-- The names of the variables that hold settings start with this. -/
def variablePrefix : String := "STACHE_"

/-- The list that a text in brackets denotes, if it is one. A list with an integer that
is too long is an error, and so is one that nests more than `levels` deep. -/
def inferList? (levels : Nat) (text : String) : Except ReadFailure (Option Document) :=
  if text.startsWith "[" && text.endsWith "]" then
    match Json.parse (Json.lenient levels) text.toList with
    | .ok d => .ok (some d)
    | .error .malformed => .ok none
    | .error failure => .error failure
  else .ok none

def inferValue (levels : Nat) (text : String) : Except ReadFailure Document :=
  let lower := Text.lowercase text
  if lower = "true" then .ok (.bool true)
  else if lower = "false" then .ok (.bool false)
  else match Number.parseInteger? text.toList with
    | some i => .ok (.int i)
    | none => (inferList? levels text).map fun found => found.getD (.text text)

/-- A name with a point in place of every two underscores, from left to right. -/
def pointed : List Char → List Char
  | '_' :: '_' :: rest => '.' :: pointed rest
  | c :: rest => c :: pointed rest
  | [] => []

/-- The path of keys that a variable sets: two underscores part one key from the next. -/
def pathOfVariable (name : String) : List String :=
  pathOfText (Text.lowercase (String.ofList (pointed name.toList)))

/-- The settings of the variables whose names start with `start` and go on behind it. -/
def readEnvironment (levels : Nat) (start : String) (environment : Environment) :
    Except ReadFailure Table :=
  environment.foldlM (fun table (name, text) =>
    if name.startsWith start && name != start then
      (inferValue levels text).map fun value =>
        setPath (pathOfVariable (name.drop start.length).toString) value table
    else .ok table) []

end Mustache.Config
