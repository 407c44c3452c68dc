import Mustache.Files.Path

/-! A file tree with symbolic links, and how a path leads through it. `FileTree.locate`
follows links as opening a file does; it goes to the real parent at a double dot. Files
are written where their paths lead, and directories are made as needed. -/

namespace Mustache.Files

inductive Entry
  | file (content : List UInt8)
  | directory
  | link (target : String)
deriving DecidableEq, Repr

/-- A file with further bytes behind its own; other entries stay. -/
def Entry.append (bytes : List UInt8) : Entry → Entry
  | .file content => .file (content ++ bytes)
  | entry => entry

/-- The place of an entry: the names that lead to it from the root. -/
abbrev Place := List String

/-- The entries of a tree by their places, and the working directory. The root is a
directory. -/
structure FileTree where
  entries : List (Place × Entry)
  workingDirectory : Place
deriving DecidableEq, Repr

/-- Why the system does not let a place be looked at or a file be read: the rights for it
are missing, or the device fails. -/
inductive AccessFault
  | denied | damaged
deriving DecidableEq, Repr

/-- Why a path leads nowhere. The last three keep it from being looked up at all: a name has
a NUL character or characters that names of files cannot have, or too many links are being
followed within each other. -/
inductive PathFault
  | missing | notADirectory | isADirectory | linkLoop | nameTooLong
  | access (fault : AccessFault)
  | nulCharacter | unspellable | linksTooDeep
deriving DecidableEq, Repr

/-- What is reported of a path that leads nowhere. -/
def PathFault.message : PathFault → String
  | .missing => "[Errno 2] No such file or directory"
  | .notADirectory => "[Errno 20] Not a directory"
  | .isADirectory => "[Errno 21] Is a directory"
  | .linkLoop => "[Errno 40] Too many levels of symbolic links"
  | .nameTooLong => "[Errno 36] File name too long"
  | .access .denied => "[Errno 13] Permission denied"
  | .access .damaged => "[Errno 5] Input/output error"
  | .nulCharacter => "embedded null byte"
  | .unspellable => "characters that names of files cannot have"
  | .linksTooDeep => "maximum recursion depth exceeded"

def maxNameBytes : Nat := 255

def maxPathBytes : Nat := 4095

/-- The number of links that are followed on one way. -/
def maxLinks : Nat := 40

def nameIsTooLong (name : String) : Bool := maxNameBytes < name.utf8ByteSize

def hasNul (name : String) : Bool := name.contains '\x00'

def isRooted (target : String) : Bool := "/".isPrefixOf target

namespace FileTree

def entry? (tree : FileTree) (place : Place) : Option Entry :=
  if place = [] then some .directory
  else (tree.entries.find? fun entry => entry.1 = place).map Prod.snd

/-- The place to which names lead from a directory. At most `links` links are followed.
For a file that is `new` the last name may be missing. -/
def locateFrom (tree : FileTree) (new : Bool) (links : Nat) (directory : Place) :
    List String → Except PathFault Place
  | [] => .ok directory
  | name :: rest =>
    if isIdle name then locateFrom tree new links directory rest
    else if name = ".." then locateFrom tree new links directory.dropLast rest
    else if nameIsTooLong name then .error .nameTooLong
    else
      let place := directory ++ [name]
      match tree.entry? place with
      | none => if new && rest.isEmpty then .ok place else .error .missing
      | some .directory => locateFrom tree new links place rest
      | some (.file _) => if rest = [] then .ok place else .error .notADirectory
      | some (.link target) =>
        match links with
        | 0 => .error .linkLoop
        | links + 1 =>
          locateFrom tree new links (if isRooted target then [] else directory)
            (splitSlashes target ++ rest)
termination_by names => (links, names.length)

def start (tree : FileTree) (p : Path) : Place :=
  if p.isAbsolute then [] else tree.workingDirectory

/-- The place of a path, at which a `new` file may be missing. -/
def locateAs (tree : FileTree) (new : Bool) (p : Path) : Except PathFault Place :=
  if p.parts.any hasNul then .error .nulCharacter
  else if maxPathBytes < p.text.utf8ByteSize then .error .nameTooLong
  else tree.locateFrom new maxLinks (tree.start p) p.parts

/-- The place of a path. -/
def locate (tree : FileTree) (p : Path) : Except PathFault Place := tree.locateAs false p

def read (tree : FileTree) (p : Path) : Except PathFault (List UInt8) :=
  match tree.locate p with
  | .error fault => .error fault
  | .ok place =>
    match tree.entry? place with
    | some (.file content) => .ok content
    | some _ => .error .isADirectory
    | none => .error .missing

def put (tree : FileTree) (place : Place) (entry : Entry) : FileTree :=
  { tree with entries := (place, entry) :: tree.entries.filter fun old => old.1 != place }

/-- Makes the directories on the way to `place` that are not there yet. -/
def makeDirectories (tree : FileTree) (place : Place) : FileTree :=
  (List.range (place.length + 1)).foldl (fun tree n =>
    match tree.entry? (place.take n) with
    | none => tree.put (place.take n) .directory
    | some _ => tree) tree

/-- Makes a directory in the one to which the names `above` lead from a place, unless it
is there. What else stands in its place is in the way. -/
def makeDirectory (tree : FileTree) (start : Place) (above : List String) (name : String) :
    Except PathFault FileTree :=
  match tree.locateFrom false maxLinks start above with
  | .error fault => .error fault
  | .ok parent =>
    let place := parent ++ [name]
    if tree.entry? parent ≠ some .directory then .error .notADirectory
    else if name = ".." then .ok tree
    else if nameIsTooLong name then .error .nameTooLong
    else match tree.entry? place with
      | none => .ok (tree.put place .directory)
      | some .directory => .ok tree
      | some _ =>
        match tree.locateFrom false maxLinks parent [name] with
        | .ok found =>
          if tree.entry? found = some .directory then .ok tree else .error .notADirectory
        | .error _ => .error .notADirectory

/-- Makes the directory to which names lead from a place; the names are given from the
last to the first. Those above it are made if one of them is missing. -/
def makeWay (tree : FileTree) (start : Place) : List String → Except PathFault FileTree
  | [] => .ok tree
  | name :: above =>
    match tree.locateFrom false maxLinks start above.reverse with
    | .error .missing =>
      match tree.makeWay start above with
      | .error fault => .error fault
      | .ok tree => tree.makeDirectory start above.reverse name
    | _ => tree.makeDirectory start above.reverse name

/-- Makes the directories in which a path lies. -/
def makeParents (tree : FileTree) (p : Path) : Except PathFault FileTree :=
  if p.parts.any hasNul then .error .nulCharacter
  else if maxPathBytes < p.parent.text.utf8ByteSize then .error .nameTooLong
  else tree.makeWay (tree.start p) p.parent.parts.reverse

/-- The place of a file that is opened to be written, after the directories in which it
lies have been made. -/
def openForWriting (tree : FileTree) (p : Path) : Except PathFault (FileTree × Place) :=
  match tree.makeParents p with
  | .error fault => .error fault
  | .ok tree =>
    match tree.locateAs true p with
    | .error fault => .error fault
    | .ok place =>
      if tree.entry? place = some .directory then .error .isADirectory else .ok (tree, place)

/-- Writes a file: the one to which the path leads, or a new one. What cannot be written
is left alone. -/
def write (tree : FileTree) (p : Path) (content : List UInt8) : FileTree :=
  match tree.openForWriting p with
  | .ok (tree, place) => tree.put place (.file content)
  | .error _ => tree

/-- The place of a file that is opened to be added to. One that is not there yet is empty. -/
def openToAppend (tree : FileTree) (p : Path) : Except PathFault (FileTree × Place) :=
  match tree.openForWriting p with
  | .error fault => .error fault
  | .ok (tree, place) =>
    match tree.entry? place with
    | none => .ok (tree.put place (.file []), place)
    | some _ => .ok (tree, place)

def append (tree : FileTree) (place : Place) (bytes : List UInt8) : FileTree :=
  { tree with entries := tree.entries.map fun entry =>
      if entry.1 = place then (place, entry.2.append bytes) else entry }

end FileTree

end Mustache.Files
