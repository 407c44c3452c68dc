import Mustache.Error
import Mustache.Fields

/-! Render values: the closed set of shapes on which rendering depends. A lambda is a
function of the caller; each call of one is recorded, and it may fail. A scalar is an
object of the caller, which may fail to give its text. -/

namespace Mustache

/-- A callable section value. It receives the unrendered body of its section and
returns template text. The label describes it and has no influence on rendering. -/
structure Lambda where
  label : String
  call : String → Except Failure String

/-- A single value other than text, by its text or by what asking for its text raises. The
label describes it and has no influence on rendering. -/
structure Scalar where
  label : String
  text : Except Failure String

inductive Value
  | record (fields : List (String × Value))
  | bool (b : Bool)
  | seq (items : List Value)
  | text (s : String)
  | scalar (s : Scalar)
  | lambda (f : Lambda)
  | absent
deriving Inhabited

/-- Computations that call lambdas: the bodies passed to them so far, in order. -/
abbrev Calling := ExceptT Failure (StateM (Array String))

/-- Calls a lambda. The call is recorded before anything else, also if it fails. -/
def Lambda.apply (f : Lambda) (body : String) : Calling String :=
  fun calls => (f.call body, calls.push body)

def Scalar.ask (s : Scalar) : Calling String := fun calls => (s.text, calls)

namespace Value

/-- The value of a field, if the value is a record that has it. -/
def field? (name : String) : Value → Option Value
  | .record fields => Fields.find? name fields
  | _ => none

def isRecord : Value → Bool
  | .record _ => true
  | _ => false

mutual

/-- The text of a value. A lambda is called with an empty body. -/
def render : Value → Calling String
  | .record fields => do
    let inner ← renderFields fields
    return "\x7b" ++ ", ".intercalate inner ++ "\x7d"
  | .bool b => return if b then "true" else "false"
  | .seq items => do
    let inner ← renderItems items
    return ",".intercalate inner
  | .text s => return s
  | .scalar s => s.ask
  | .lambda f => f.apply ""
  | .absent => return ""

def renderFields : List (String × Value) → Calling (List String)
  | [] => return []
  | (name, v) :: rest => do
    let head ← render v
    let tail ← renderFields rest
    return (name ++ ": " ++ head) :: tail

def renderItems : List Value → Calling (List String)
  | [] => return []
  | v :: rest => do
    let head ← render v
    let tail ← renderItems rest
    return head :: tail

end

def shape : Value → String
  | .record _ => "Record"
  | .bool _ => "Bool"
  | .seq _ => "Seq"
  | .text _ => "String"
  | .scalar _ => "Scalar"
  | .lambda _ => "Lambda"
  | .absent => "Absent"

end Value

end Mustache
