import Mustache.Data.Document
import Mustache.Fields

/-! The tables of a TOML file while it is read. Marks record which tables have been
opened and which values are closed: a table is opened once, and nothing is added to an
inline table or an array behind its end. -/

namespace Mustache.Data.Toml

abbrev Entries := List (String × Document)

/-- Applies a change to the table at a path, which is made if it is not there. In an
array of tables the last one is meant. -/
def nest (intoLists : Bool) (change : Entries → Option Entries) :
    List String → Entries → Option Entries
  | [], entries => change entries
  | key :: path, entries =>
    let put (d : Document) : Entries := Fields.put key d entries
    match Fields.find? key entries with
    | none => (nest intoLists change path []).map fun inner => put (.table inner)
    | some (.table inner) =>
      (nest intoLists change path inner).map fun inner => put (.table inner)
    | some (.list items) =>
      if intoLists then
        match items.getLast? with
        | some (.table inner) =>
          (nest intoLists change path inner).map fun inner =>
            put (.list (items.dropLast ++ [.table inner]))
        | _ => none
      else none
    | some _ => none

def addKey (key : String) (value : Document) (entries : Entries) : Option Entries :=
  if (Fields.find? key entries).isSome then none else some (Fields.put key value entries)

def addTable (key : String) (entries : Entries) : Option Entries :=
  match Fields.find? key entries with
  | none => some (Fields.put key (.list [.table []]) entries)
  | some (.list items) => some (Fields.put key (.list (items ++ [.table []])) entries)
  | some _ => none

/-- What is known of a path: its table has been opened, or its value is closed. -/
inductive Mark
  | opened | closed
deriving DecidableEq, Repr

abbrev Marks := List (List String × Mark)

/-- The table at the path has been opened. -/
def isOpened (marks : Marks) (path : List String) : Bool := marks.contains (path, .opened)

/-- The path leads to a closed value or into one. -/
def isClosed (marks : Marks) (path : List String) : Bool :=
  marks.any fun (marked, mark) => mark == .closed && marked.isPrefixOf path

/-- Forgets what is known of a path and of all paths that go on from it. -/
def forget (path : List String) (marks : Marks) : Marks :=
  marks.filter fun (marked, _) => !path.isPrefixOf marked

/-- Tables and arrays are closed behind their end. -/
def closeIfNested (path : List String) (value : Document) (marks : Marks) : Marks :=
  match value with
  | .table _ | .list _ => (path, .closed) :: marks
  | _ => marks

def beginnings (path : List String) : List (List String) :=
  (List.range' 1 (path.length - 1)).map path.take

/-- A file that has been read in part: its tables, the table that is open, what is
known of paths, and which tables count as opened from the next header on. -/
structure Scope where
  entries : Entries
  header : List String
  marks : Marks
  pending : Marks

namespace Scope

def empty : Scope := ⟨[], [], [], []⟩

def assign (scope : Scope) (path : List String) (value : Document) : Option Scope :=
  let around := (beginnings path).map (scope.header ++ ·)
  let parent := scope.header ++ path.dropLast
  if around.any (isOpened scope.marks) || isClosed scope.marks parent then none
  else
    (nest true (addKey (path.getLast?.getD "") value) parent scope.entries).map fun entries =>
      { scope with
        entries
        marks := closeIfNested (scope.header ++ path) value scope.marks
        pending := around.map (·, Mark.opened) ++ scope.pending }

/-- The marks that wait for a header are taken over. -/
def settle (scope : Scope) : Scope :=
  { scope with marks := scope.pending ++ scope.marks, pending := [] }

/-- Opens a table, which must not have been opened before. -/
def openTable (scope : Scope) (path : List String) : Option Scope :=
  let scope := scope.settle
  if isOpened scope.marks path || isClosed scope.marks path then none
  else (nest true some path scope.entries).map fun entries =>
    { scope with entries, header := path, marks := (path, .opened) :: scope.marks }

def openItem (scope : Scope) (path : List String) : Option Scope :=
  let scope := scope.settle
  if isClosed scope.marks path then none
  else (nest true (addTable (path.getLast?.getD "")) path.dropLast scope.entries).map fun entries =>
    { scope with entries, header := path, marks := (path, .opened) :: forget path scope.marks }

end Scope

end Mustache.Data.Toml
