import Mustache.Text.Utf8
import Mustache.Value.Datum

/-! Binding: the value that rendering sees of an object. Mappings, models and dataclasses
become records, whose field names are the texts of the keys; sequences are bound item by
item, while texts and byte strings are single values. -/

namespace Mustache

/-- Of several things the one that comes first in an order; of those in one place, the
first. -/
def foremost {α : Type} (rank : α → Nat) : List α → Option α
  | [] => none
  | a :: rest =>
    match foremost rank rest with
    | none => some a
    | some b => if rank a ≤ rank b then some a else some b

/-- The record that setting the fields of a list in turn leaves. -/
def Value.ofFields (fields : List (String × Value)) : Value := .record (Fields.ofList fields)

mutual

/-- Binds an object as the first of the things that it is found to be, or else as a
scalar. -/
def Datum.bind : Datum → Except Failure Value
  | .object _ natures scalar =>
    match foremost Prod.fst (bindNatures natures) with
    | none => .ok (.scalar scalar)
    | some (_, result) => result

/-- What an object is bound to as one of the things that it is. -/
def Nature.bind : Nature → Except Failure Value
  | .unreadable failure => .error failure
  | .bound v => .ok v
  | .none => .ok .absent
  | .bool b => .ok (.bool b)
  | .text s => .ok (.text s)
  | .bytes content => .ok (.text (String.ofList (Text.Utf8.decodeLossy content)))
  | .mapping entries => (bindEntries entries).map Value.ofFields
  | .model fields | .dataclass fields => (bindFields fields).map Value.ofFields
  | .lambda f => .ok (.lambda f)
  | .sequence items => (bindItems items).map Value.seq

def bindNatures : List Nature → List (Nat × Except Failure Value)
  | [] => []
  | nature :: rest => (nature.rank, nature.bind) :: bindNatures rest

/-- Each key is asked for its text before its value is bound. -/
def bindEntries :
    List (Except Failure String × Datum) → Except Failure (List (String × Value))
  | [] => .ok []
  | (key, d) :: rest => do
    let name ← key
    let v ← d.bind
    return (name, v) :: (← bindEntries rest)

def bindFields : List (String × Datum) → Except Failure (List (String × Value))
  | [] => .ok []
  | (name, d) :: rest => do
    let v ← d.bind
    return (name, v) :: (← bindFields rest)

def bindItems : List Datum → Except Failure (List Value)
  | [] => .ok []
  | d :: rest => do
    let v ← d.bind
    return v :: (← bindItems rest)

end

end Mustache
