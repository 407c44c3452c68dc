import Mustache.Data.Document

/-! Places in a YAML text. The column at which a token stands decides to which
collection it belongs, and a key has to stand on one line with its colon and near it,
so a cursor counts characters, lines and columns. -/

namespace Mustache.Data.Yaml

def isBreak (c : Char) : Bool := c == '\n' || c == '\u0085' || c == '\u2028' || c == '\u2029'

def isSpace (c : Char) : Bool := c == ' ' || c == '\t'

def isBlank (c : Char) : Bool := isSpace c || isBreak c

/-- Nothing or a blank comes next. -/
def blankFirst : List Char → Bool
  | [] => true
  | c :: _ => isBlank c

/-- Nothing, a space or a line break comes next. -/
def gapFirst : List Char → Bool
  | [] => true
  | c :: _ => c == ' ' || isBreak c

/-- The characters of which a text may consist. -/
def isAllowed (c : Char) : Bool :=
  let n := c.toNat
  n == 0x09 || n == 0x0A || n == 0x0D || (0x20 ≤ n && n ≤ 0x7E) || n == 0x85
    || (0xA0 ≤ n && n ≤ 0xFFFD) || 0x10000 ≤ n

/-- A point of a text: the number of characters, of lines, and of columns in front of
it. -/
structure Point where
  index : Nat
  line : Nat
  column : Nat
deriving DecidableEq, Repr

namespace Point

/-- The point behind a character. A byte order mark has no width. -/
def pass (p : Point) (c : Char) : Point :=
  if isBreak c then ⟨p.index + 1, p.line + 1, 0⟩
  else ⟨p.index + 1, p.line, if c == '\ufeff' then p.column else p.column + 1⟩

def passAll (p : Point) (text : List Char) : Point := text.foldl pass p

end Point

structure Cursor where
  point : Point
  rest : List Char

namespace Cursor

def ofText (text : List Char) : Cursor := ⟨⟨0, 0, 0⟩, text⟩

def line (c : Cursor) : Nat := c.point.line

def column (c : Cursor) : Nat := c.point.column

/-- The place `n` characters further on. -/
def advance (c : Cursor) (n : Nat) : Cursor := ⟨c.point.passAll (c.rest.take n), c.rest.drop n⟩

/-- The place of the first character for which a test fails. -/
def skipWhile (c : Cursor) (test : Char → Bool) : Cursor :=
  c.advance (c.rest.takeWhile test).length

/-- Behind spaces, line breaks and comments. A tab is no space here. -/
def skipFrom (inComment : Bool) (p : Point) : List Char → Cursor
  | [] => ⟨p, []⟩
  | c :: rest =>
    if isBreak c then skipFrom false (p.pass c) rest
    else if inComment || c == ' ' then skipFrom inComment (p.pass c) rest
    else if c == '#' then skipFrom true (p.pass c) rest
    else ⟨p, c :: rest⟩

/-- The next token. -/
def skip (c : Cursor) : Cursor := skipFrom false c.point c.rest

/-- Three dashes or points that stand alone at the start of a line. -/
def marks (mark : String) (c : Cursor) : Bool :=
  c.column == 0 && mark.toList.isPrefixOf c.rest && blankFirst (c.rest.drop 3)

def atMark (c : Cursor) : Bool := c.marks "---" || c.marks "..."

end Cursor

/-- A reader: what it made of a text, and the place behind it. -/
abbrev Reading (α : Type) := Except ReadFailure (α × Cursor)

def plainBreak (c : Char) : Char := if c == '\u0085' then '\n' else c

/-- The line breaks from a place on and the spaces between them, with the place behind
them. It is a failure if a mark stands on the way. -/
def breaksFrom (isGap : Char → Bool) (p : Point) : List Char → Option (List Char × Cursor)
  | [] => some ([], ⟨p, []⟩)
  | c :: rest =>
    if isBreak c then
      if (Cursor.mk (p.pass c) rest).atMark then none
      else (breaksFrom isGap (p.pass c) rest).map fun (breaks, last) =>
        (plainBreak c :: breaks, last)
    else if isGap c then breaksFrom isGap (p.pass c) rest
    else some ([], ⟨p, c :: rest⟩)

/-- What stands for several line breaks within a text: a single one becomes a space, and
of more than one the first is left out. -/
def foldBreaks : List Char → List Char
  | ['\n'] => [' ']
  | '\n' :: breaks => breaks
  | breaks => breaks

end Mustache.Data.Yaml
