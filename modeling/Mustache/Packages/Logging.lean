import Mustache.Data.Json
import Mustache.Log.File
import Mustache.Value.Object

/-! The logging package that the program is run with: which entries its loggers make and take
down, and their two written forms, an object or a line of text. What time it is when an entry
is written is for the caller to say. -/

namespace Mustache.Log

open Data

namespace Entry

/-- The field that says that an entry has a cause. It is never written. -/
def causeField : String := "exc_info"

def ownFields : List String := ["event", "level", "timestamp", causeField]

def sourceFields : List String := ["logger", "logger_name"]

/-- The fields that hold traces, which stand on lines of their own. -/
def stackField : String := "stack"

def traceField : String := "exception"

/-- The fields with a place of their own in a line of text. -/
def placedFields : List String := ownFields ++ sourceFields ++ [stackField, traceField]

def field? (name : String) (e : Entry) : Option Document :=
  Fields.find? name (Fields.ofList e.fields)

/-- The entry as an object. Time, level and event take precedence over fields of their
names. -/
def document (time : Document) (e : Entry) : Document :=
  let fields := e.fields.filter fun field => field.1 != causeField
  .table (Fields.ofList
    (fields ++ [("event", .text e.event), ("level", .text e.level), ("timestamp", time)]))

/-- Texts with these characters are quoted in a line of text. -/
def needsQuotes (s : String) : Bool := s.toList.any fun c => " \t=\r\n\"'".toList.contains c

def fieldText : Document → String
  | .text s => if needsQuotes s then Text.quoted s else s
  | d => (d.toObject.quoted).toOption.getD ""

def pad (width : Nat) (s : String) : String := s.pushn ' ' (width - s.length)

def levelWidth : Nat := 9

def eventWidth : Nat := 30

def sources (e : Entry) : List String :=
  sourceFields.filterMap fun name => (e.field? name).map fun d =>
    "[" ++ d.toObject.display.toOption.getD "" ++ "]"

def plainFields (e : Entry) : List (String × Document) :=
  ((Fields.ofList e.fields).filter fun field => !placedFields.contains field.1).mergeSort
    fun a b => a.1 ≤ b.1

/-- The first line of text behind its time: the level, the event, the sources and the
fields. No spaces end the line. -/
def firstLine (e : Entry) : String :=
  let fields := e.plainFields.map fun (name, d) => name ++ "=" ++ fieldText d
  let columns := ["[" ++ pad levelWidth e.level ++ "]", pad eventWidth e.event]
  ((" ".intercalate (columns ++ e.sources ++ fields)).dropEndWhile ' ').toString

/-- A trace of an entry, if it has one; nothing counts as none. -/
def trace? (name : String) (e : Entry) : Option Document :=
  match e.field? name with
  | some .null => none
  | found => found

/-- Whether an entry has a cause: any value but one that stands for nothing. -/
def hasCause (e : Entry) : Bool :=
  match e.field? causeField with
  | none | some .null | some (.bool false) | some (.int 0) => false
  | some (.text s) => !s.isEmpty
  | some (.list items) => !items.isEmpty
  | some (.table entries) => !entries.isEmpty
  | some (.float x) => x != 0
  | some _ => true

/-- The line between a stack and what follows it. -/
def divider : String := String.ofList (List.replicate 79 '=')

/-- Only texts can be written as traces. -/
def hasTextTraces (e : Entry) : Bool :=
  [stackField, traceField].all fun name =>
    match e.trace? name with
    | none | some (.text _) => true
    | _ => false

/-- The text of an entry behind its time. Its traces follow on further lines. -/
def line (e : Entry) : String :=
  let stack := match e.trace? stackField with
    | some (.text s) =>
      let more := e.hasCause || (e.trace? traceField).isSome
      "\n" ++ s ++ (if more then "\n\n" ++ divider ++ "\n" else "")
    | _ => ""
  let trace := match e.trace? traceField with
    | some (.text s) => "\n" ++ s
    | _ => ""
  e.firstLine ++ stack ++ trace

def reaches (threshold : Nat) (e : Entry) : Bool := threshold ≤ rank e.level

def written (format : LogFormat) (time : Document) (e : Entry) : String :=
  match format with
  | .json => Json.write (e.document time)
  | .text => e.line

end Entry

/-- The ways to make an entry, each with the level of the entry. -/
def methods : List (String × String) :=
  [("debug", "debug"), ("info", "info"), ("msg", "info"), ("warning", "warning"),
    ("warn", "warning"), ("error", "error"), ("exception", "error"), ("critical", "critical"),
    ("fatal", "critical")]

/-- Why an entry cannot be made: there is no such way, or a field has the name of what is
given beside the fields. -/
inductive EntryFault
  | unknownMethod
  | reservedField
deriving DecidableEq, Repr

def reservedNames : List String := ["self", "event"]

/-- The entry that a method makes. It has the fields shared by all entries and its own,
which take precedence. One made for an exception has a cause. -/
def Entry.make (shared : List (String × Document)) (method event : String)
    (own : List (String × Document)) : Except EntryFault Entry :=
  match methods.lookup method with
  | none => .error .unknownMethod
  | some level =>
    if own.any fun field => reservedNames.contains field.1 then .error .reservedField
    else
      let cause := if method == "exception" then [(Entry.causeField, .bool true)] else []
      .ok ⟨level, event, Fields.ofList (shared ++ cause ++ own)⟩

def taken (environment : Config.Environment) (level : String) (entries : List Entry) :
    List Entry :=
  entries.filter (·.reaches (threshold environment level))

/-- The time of an entry as it stands in a file. Of its digits only their number is known. -/
def someTime : String := "0000-00-00T00:00:00.000000Z"

/-- An entry as it stands in a file. In front of a line of text there is its time. -/
def Entry.record (format : LogFormat) (e : Entry) : String :=
  (if format = .text then someTime ++ " " else "") ++ e.written format (.text someTime) ++ "\n"

/-- What is written of an entry: nothing if it does not reach the threshold. -/
def writer : Writer := fun format threshold e =>
  if e.reaches threshold then e.record format else ""

end Mustache.Log
