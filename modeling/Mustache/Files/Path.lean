/-! Paths as they are written: a root, if any, and the names below it. Empty names and
single dots mean nothing and are left out; double dots stay, since what they lead to
depends on the files. -/

namespace Mustache.Files

/-- Where a path starts: at the working directory, or at one of the two roots. A path
that begins with exactly two slashes keeps both. -/
inductive Root
  | relative | slash | doubleSlash
deriving DecidableEq, Repr

def Root.text : Root → String
  | .relative => ""
  | .slash => "/"
  | .doubleSlash => "//"

structure Path where
  root : Root
  parts : List String
deriving DecidableEq, Repr

/-- The names between the slashes of a text, empty ones included. -/
def splitSlashes (text : String) : List String :=
  (text.toList.splitOnP (· == '/')).map String.ofList

/-- Names that do not move: the empty one and the single dot. -/
def isIdle (name : String) : Bool := name == "" || name == "."

namespace Path

/-- The working directory. -/
def here : Path := ⟨.relative, []⟩

def ofText (text : String) : Path :=
  let root := match text.toList with
    | '/' :: '/' :: '/' :: _ => Root.slash
    | '/' :: '/' :: _ => Root.doubleSlash
    | '/' :: _ => Root.slash
    | _ => Root.relative
  ⟨root, (splitSlashes text).filter fun name => !isIdle name⟩

def isAbsolute (p : Path) : Bool := p.root != .relative

/-- The written form; the working directory is a dot. -/
def text (p : Path) : String :=
  let written := p.root.text ++ "/".intercalate p.parts
  if written.isEmpty then "." else written

/-- The path `q` as seen from `p`; an absolute path is seen alike from everywhere. -/
def join (p q : Path) : Path := if q.isAbsolute then q else ⟨p.root, p.parts ++ q.parts⟩

def name (p : Path) : String := p.parts.getLast?.getD ""

def parent (p : Path) : Path := ⟨p.root, p.parts.dropLast⟩

/-- The end of the last name from its last dot on, unless that dot is the first or the
last character of the name. -/
def suffix (p : Path) : String :=
  let backwards := p.name.toList.reverse
  let tail := backwards.takeWhile (· != '.')
  match backwards.drop tail.length with
  | _ :: _ :: _ => if tail.isEmpty then "" else String.ofList ('.' :: tail.reverse)
  | _ => ""

end Path

end Mustache.Files
