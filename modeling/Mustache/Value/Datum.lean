import Mustache.Value.Basic

/-! Data as callers supply it, before it is bound. An object of the caller can be several
things at once, such as a mapping that can be called, or a text that is a model; what it
is for binding depends on the order in which it is asked. -/

namespace Mustache

mutual

/-- An object of the caller: the name of its type, all that it is, and the scalar that it
is if it is nothing else. -/
inductive Datum
  | object (typeName : String) (natures : List Nature) (scalar : Scalar)

/-- What an object can be. An attribute that is not there, or an item that its sequence
fails to bring up, is an unreadable one. The keys of a mapping are told by their texts, or
by what asking for the text raises. -/
inductive Nature
  | unreadable (failure : Failure)
  | bound (v : Value)
  | none
  | bool (b : Bool)
  | text (s : String)
  | bytes (content : List UInt8)
  | mapping (entries : List (Except Failure String × Datum))
  | model (fields : List (String × Datum))
  | dataclass (fields : List (String × Datum))
  | lambda (f : Lambda)
  | sequence (items : List Datum)

end

/-- The place of a nature in the order in which objects are asked for them. -/
def Nature.rank : Nature → Nat
  | .unreadable _ => 0
  | .bound _ => 1
  | .none => 2
  | .bool _ => 3
  | .text _ => 4
  | .bytes _ => 5
  | .mapping _ => 6
  | .model _ => 7
  | .dataclass _ => 8
  | .lambda _ => 9
  | .sequence _ => 10

namespace Datum

def typeName : Datum → String
  | .object typeName _ _ => typeName

/-- A scalar that is never asked for its text. -/
def noScalar : Scalar := ⟨"", .ok ""⟩

def ofNature (typeName : String) (nature : Nature) : Datum :=
  .object typeName [nature] noScalar

def ofText (s : String) : Datum := ofNature "str" (.text s)

/-- A mapping whose keys are texts. -/
def ofFields (fields : List (String × Datum)) : Datum :=
  ofNature "dict" (.mapping (fields.map fun field => (.ok field.1, field.2)))

end Datum

end Mustache
