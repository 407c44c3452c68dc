import Mustache.Error
import Mustache.Fields
import Mustache.Files.Canonical
import Mustache.Text.Quoted
import Mustache.Text.Utf8

/-! Loaders fetch the bytes of a template by its identifier and refuse sources that are
too large. One holds its sources in memory; the other reads files below a list of
directories, of which an earlier one takes precedence, and never a file outside them. -/

namespace Mustache

open Files

/-- A code point: a character, or half of a surrogate pair, which no encoding can write. -/
inductive CodePoint
  | char (c : Char)
  | half (index : Fin 2048)
deriving DecidableEq, Repr

def CodePoint.char? : CodePoint → Option Char
  | .char c => some c
  | .half _ => none

/-- A source that is held in memory: bytes, or a text, which is encoded as UTF-8. -/
inductive Source
  | bytes (content : List UInt8)
  | text (points : List CodePoint)
deriving DecidableEq, Repr

/-- The source that is a text without halves of surrogate pairs. -/
def Source.ofText (s : String) : Source := .text (s.toList.map .char)

/-- The bytes of a source. -/
def Source.encode : Source → Except BytesFault (List UInt8)
  | .bytes content => .ok content
  | .text points =>
    match points.mapM CodePoint.char? with
    | some characters => .ok (Text.Utf8.encode (String.ofList characters))
    | none => .error .unencodable

/-- The largest source, in bytes, unless told otherwise. -/
def defaultMaxSourceBytes : Nat := 1024 * 1024

/-- Where sources come from. -/
inductive Loader
  | memory (sources : List (String × Source)) (maxSize : Nat)
  | files (host : Host) (tree : FileTree) (searchPath : List Path) (extension : String)
    (maxSize : Nat)

namespace Loader

def notFound (identifier : String) : Failure :=
  .template { trouble := .notFound, identifier := some identifier }

def oversized (limit : Nat) (identifier : String) : Failure :=
  .template {
    trouble := .oversized limit
    detail := some s!"template source exceeds maximum size of {limit} bytes"
    identifier := some identifier }

/-- A file that was found and cannot be opened. -/
def unopened (place : Place) (fault : PathFault) (identifier : String) : Failure :=
  .template {
    trouble := .unreadable (some (.unopened fault))
    detail := some ("could not read template source: " ++ fault.message ++ ": " ++
      Text.quoted (Files.Path.mk .slash place).text)
    identifier := some identifier }

/-- Bytes that are not too many. -/
def checkSize (identifier : String) (maxSize : Nat) (bytes : List UInt8) :
    Except Failure (List UInt8) :=
  if maxSize < bytes.length then .error (oversized maxSize identifier) else .ok bytes

/-- The first file for a name below one of the directories. Both the directory and the
file are compared by their canonical places. -/
def findFile (host : Host) (tree : FileTree) (name : Path) :
    List Path → Except PathFault (Option Place)
  | [] => .ok none
  | directory :: rest => do
    let base ← tree.canonical host tree.workingDirectory directory
    let candidate ← tree.canonical host base name
    if base.isPrefixOf candidate then
      if ← tree.isFile host candidate then return some candidate
    findFile host tree name rest

def openFile (host : Host) (tree : FileTree) (place : Place) : Except PathFault (List UInt8) :=
  match host.opened place with
  | some fault => .error (.access fault)
  | none => tree.read ⟨.slash, place⟩

/-- The first `count` bytes of a file. Memory is taken for all of them, however short the
file is. -/
def takeBytes (host : Host) (count : Nat) (content : List UInt8) :
    Except BytesFault (List UInt8) :=
  if Host.largestBytes < count then .error .tooMany
  else if host.memory < count then .error .outOfMemory
  else .ok (content.take count)

/-- The bytes of a template. Of a file no more than one byte beyond the limit is read. -/
def load (loader : Loader) (identifier : String) : Except Failure (List UInt8) :=
  match loader with
  | .memory sources maxSize =>
    match Fields.find? identifier sources with
    | none => .error (notFound identifier)
    | some source =>
      match source.encode with
      | .error fault => .error (.bytes fault)
      | .ok bytes => checkSize identifier maxSize bytes
  | .files host tree searchPath extension maxSize =>
    match findFile host tree (Path.ofText (identifier ++ extension)) searchPath with
    | .error fault => .error (.path fault)
    | .ok none => .error (notFound identifier)
    | .ok (some place) =>
      match openFile host tree place with
      | .error .nulCharacter => .error (.path .nulCharacter)
      | .error fault => .error (unopened place fault identifier)
      | .ok content =>
        match takeBytes host (maxSize + 1) content with
        | .error fault => .error (.bytes fault)
        | .ok bytes => checkSize identifier maxSize bytes

/-- Sets a source that is held in memory; files are left alone. -/
def setSource (identifier : String) (source : Source) : Loader → Loader
  | .memory sources maxSize => .memory (Fields.put identifier source sources) maxSize
  | loader => loader

def removeSource (identifier : String) : Loader → Loader
  | .memory sources maxSize => .memory (sources.filter fun s => s.1 != identifier) maxSize
  | loader => loader

/-- Changes the files behind a loader; sources in memory are left alone. -/
def changeFiles (change : FileTree → FileTree) : Loader → Loader
  | .files host tree searchPath extension maxSize =>
    .files host (change tree) searchPath extension maxSize
  | loader => loader

/-- Writes a file; sources in memory are left alone. -/
def writeFile (p : Path) (bytes : List UInt8) : Loader → Loader
  | .files host tree searchPath extension maxSize =>
    .files host (tree.write p bytes) searchPath extension maxSize
  | loader => loader

end Loader

end Mustache
