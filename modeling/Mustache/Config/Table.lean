import Mustache.Data.Document

/-! Settings tables. Two tables are merged key by key and level by level; a value can be
set at a path of keys, for which tables are made as needed. `lookup?` reads the value
at a path. -/

namespace Mustache.Config

open Data

abbrev Table := List (String × Document)

/-- The table under a key; anything else under the key counts as an empty table. -/
def tableAt (key : String) (table : Table) : Table :=
  match Fields.find? key table with
  | some (.table inner) => inner
  | _ => []

def lookup? : List String → Document → Option Document
  | [], d => some d
  | key :: path, .table entries =>
    match Fields.find? key entries with
    | some d => lookup? path d
    | none => none
  | _ :: _, _ => none

mutual

/-- A value that overrides another: tables are merged, all else is replaced. -/
def mergeValue (base : Option Document) : Document → Document
  | .table override =>
    match base with
    | some (.table entries) => .table (merge entries override)
    | _ => .table override
  | d => d

def merge (base : Table) : Table → Table
  | [] => base
  | (key, value) :: rest =>
    merge (Fields.put key (mergeValue (Fields.find? key base) value) base) rest

end

mutual

/-- The number of tables within each other that two values have in common. -/
def overlapValue (base : Option Document) : Document → Nat
  | .table override =>
    match base with
    | some (.table entries) => overlap entries override + 1
    | _ => 0
  | _ => 0

/-- The number of tables within each other that two tables have in common below the top. -/
def overlap (base : Table) : Table → Nat
  | [] => 0
  | (key, value) :: rest => max (overlapValue (Fields.find? key base) value) (overlap base rest)

end

/-- Sets the value at a path. What stands in the way and is no table is replaced. -/
def setPath : List String → Document → Table → Table
  | [], _, table => table
  | [key], value, table => Fields.put key value table
  | key :: path, value, table =>
    Fields.put key (.table (setPath path value (tableAt key table))) table

/-- The keys of a path that is written with points between them. -/
def pathOfText (dotted : String) : List String :=
  (dotted.toList.splitOnP (· == '.')).map String.ofList

end Mustache.Config
