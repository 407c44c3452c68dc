import Mustache.Data.Json
import Mustache.Packages.Yaml.Cursor

/-! The ways to write a text in YAML: plain, in quotes of either kind, or as a block of
lines. The recursion of each reader is bounded by a number above the length of the
text. -/

namespace Mustache.Data.Yaml

/-- Characters that mean something within flow collections. -/
def isFlowSign (c : Char) : Bool := ",[]\x7b\x7d".contains c

/-- Whether a plain text goes on with a character, in view of what follows it. -/
def goesOn (inFlow : Bool) (c : Char) (rest : List Char) : Bool :=
  !(isBlank c
    || (c == ':' && (blankFirst rest || (inFlow && (rest.head?.map isFlowSign).getD false)))
    || (inFlow && (isFlowSign c || c == '?')))

/-- The part of a plain text up to the next blank, and what follows. -/
def plainWord (inFlow : Bool) : List Char → List Char × List Char
  | [] => ([], [])
  | c :: rest =>
    if goesOn inFlow c rest then
      let (word, behind) := plainWord inFlow rest
      (c :: word, behind)
    else ([], c :: rest)

/-- The blanks behind a word of a plain text: spaces, or line breaks with spaces. -/
def plainGap (c : Cursor) : List Char × Cursor :=
  let spaces := c.rest.takeWhile (· == ' ')
  let behind := c.advance spaces.length
  match behind.rest with
  | b :: _ =>
    if isBreak b then
      match breaksFrom (· == ' ') behind.point behind.rest with
      | some (breaks, next) => (foldBreaks breaks, next)
      | none => ([], behind)
    else (spaces, behind)
  | [] => (spaces, behind)

/-- A plain text. On further lines of a block it has to stand at column `floor` or
behind it. The text may leave line breaks behind it, and the result says so. -/
def plain (inFlow : Bool) (floor : Nat) : Nat → Cursor → List Char × Bool × Cursor
  | 0, c => ([], false, c)
  | fuel + 1, c =>
    match plainWord inFlow c.rest with
    | ([], _) => ([], false, c)
    | (word, _) =>
      let behind := c.advance word.length
      let (gap, next) := plainGap behind
      let broken := behind.line < next.line
      if gap.isEmpty || next.rest.head? == some '#' || (!inFlow && next.column < floor) then
        (word, broken, next)
      else match plain inFlow floor fuel next with
        | ([], _) => (word, broken, next)
        | (more, last) => (word ++ gap ++ more, last)

def signs : String := "-?:,[]\x7b\x7d#&*!|>'\"%@`"

def startsPlain (inFlow : Bool) : List Char → Bool
  | [] => false
  | c :: rest =>
    !(isBlank c || signs.contains c)
      || (!blankFirst rest && (c == '-' || (!inFlow && (c == '?' || c == ':'))))

/-- The characters that a backslash and a single character stand for. -/
def shortEscapes : List (Char × Char) :=
  [('0', '\x00'), ('a', '\x07'), ('b', '\x08'), ('t', '\t'), ('\t', '\t'), ('n', '\n'),
    ('v', '\x0b'), ('f', '\x0c'), ('r', '\r'), ('e', '\x1b'), (' ', ' '), ('"', '"'),
    ('\\', '\\'), ('/', '/'), ('N', '\u0085'), ('_', '\u00a0'), ('L', '\u2028'), ('P', '\u2029')]

/-- The number of hexadecimal digits behind an escape by number. -/
def escapeWidth? : Char → Option Nat
  | 'x' => some 2
  | 'u' => some 4
  | 'U' => some 8
  | _ => none

/-- The first number that is too large for a character to be looked for. -/
def characterLimit : Nat := 0x80000000

/-- The character of a number. The halves of a surrogate pair stand for one character
together; a half by itself is replaced. -/
def numbered (n : Nat) (c : Cursor) : Reading (List Char) :=
  if characterLimit ≤ n then .error .characterTooLarge
  else if 0x10FFFF < n then .error .outOfRange
  else if n.isValidChar then .ok ([Char.ofNat n], c)
  else match Json.isHighSurrogate n, Json.lowHalf? c.rest with
    | true, some (low, _) =>
      .ok ([Char.ofNat (0x10000 + (n - 0xD800) * 1024 + (low - 0xDC00))], c.advance 6)
    | _, _ => .ok (['\ufffd'], c)

def escape (c : Cursor) : Reading (List Char) :=
  match c.rest with
  | [] => .error .malformed
  | e :: rest =>
    if isBreak e then
      match breaksFrom isSpace c.point c.rest with
      | some (breaks, next) => .ok (breaks.drop 1, next)
      | none => .error .malformed
    else match escapeWidth? e, shortEscapes.lookup e with
      | some width, _ =>
        let digits := rest.take width
        if digits.length < width then .error .malformed
        else match Json.hexNumber? digits with
          | none => .error .malformed
          | some n => numbered n (c.advance (width + 1))
      | none, some found => .ok ([found], c.advance 1)
      | none, none => .error .malformed

/-- The rest of a quoted text behind its opening quote; `done` holds its characters in
reverse. -/
def quoted (quote : Char) : Nat → List Char → Cursor → Reading String
  | 0, _, _ => .error .malformed
  | fuel + 1, done, c =>
    match c.rest with
    | [] => .error .malformed
    | a :: rest =>
      if a == quote then
        if quote == '\'' && rest.head? == some '\'' then
          quoted quote fuel ('\'' :: done) (c.advance 2)
        else .ok (String.ofList done.reverse, c.advance 1)
      else if quote == '"' && a == '\\' then
        match escape (c.advance 1) with
        | .error e => .error e
        | .ok (found, behind) => quoted quote fuel (found.reverse ++ done) behind
      else if isBlank a then
        let spaces := c.rest.takeWhile isSpace
        let behind := c.advance spaces.length
        match behind.rest with
        | [] => .error .malformed
        | b :: _ =>
          if isBreak b then
            match breaksFrom isSpace behind.point behind.rest with
            | some (breaks, next) => quoted quote fuel ((foldBreaks breaks).reverse ++ done) next
            | none => .error .malformed
          else quoted quote fuel (spaces.reverse ++ done) behind
      else quoted quote fuel (a :: done) (c.advance 1)

/-- What becomes of the line breaks at the end of a block of lines. -/
inductive Ending
  | one | none | all
deriving DecidableEq, Repr

/-- How a block of lines is read: whether its lines are folded, the breaks at its end,
and the number of its blanks if that is given. -/
structure BlockStyle where
  folded : Bool
  ending : Ending
  indent : Option Nat
deriving DecidableEq, Repr

def ending? : Char → Option Ending
  | '+' => some .all
  | '-' => some .none
  | _ => Option.none

def indentDigit? (c : Char) : Option Nat :=
  if '1' ≤ c && c ≤ '9' then some (c.toNat - 48) else none

/-- The signs behind the one that announces a block of lines, in either order, and
their number. -/
def blockSigns (folded : Bool) (text : List Char) : BlockStyle × Nat :=
  let first := text.head?
  let second := text.tail.head?
  match first.bind ending?, first.bind indentDigit? with
  | some e, _ =>
    let indent := second.bind indentDigit?
    (⟨folded, e, indent⟩, if indent.isSome then 2 else 1)
  | none, some n =>
    let ending := second.bind ending?
    (⟨folded, ending.getD .one, some n⟩, if ending.isSome then 2 else 1)
  | none, none => (⟨folded, .one, none⟩, 0)

/-- The start of the line behind the signs of a block; only a comment may follow them. -/
def behindSigns (c : Cursor) : Option Cursor :=
  if !gapFirst c.rest then none
  else
    let behind := c.skipWhile (· == ' ')
    let behind := match behind.rest with
      | '#' :: _ => behind.skipWhile fun a => !isBreak a
      | _ => behind
    match behind.rest with
    | [] => some behind
    | b :: _ => if isBreak b then some (behind.advance 1) else none

/-- The empty lines in front of a block, the widest run of blanks up to its first
visible character, and the place of that character. -/
def blockStart (p : Point) (widest : Nat) : List Char → List Char × Nat × Cursor
  | [] => ([], max widest p.column, ⟨p, []⟩)
  | c :: rest =>
    if isBreak c then
      let (breaks, found) := blockStart (p.pass c) (max widest p.column) rest
      (plainBreak c :: breaks, found)
    else if c == ' ' then blockStart (p.pass c) widest rest
    else ([], max widest p.column, ⟨p, c :: rest⟩)

/-- Empty lines, and up to `indent` blanks of the next one. -/
def blockBreaks (indent : Nat) (p : Point) : List Char → List Char × Cursor
  | [] => ([], ⟨p, []⟩)
  | c :: rest =>
    if isBreak c then
      let (breaks, last) := blockBreaks indent (p.pass c) rest
      (plainBreak c :: breaks, last)
    else if c == ' ' && p.column < indent then blockBreaks indent (p.pass c) rest
    else ([], ⟨p, c :: rest⟩)

/-- What joins two lines of a block with empty lines between them. -/
def joint (folded : Bool) (line next lineBreak breaks : List Char) : List Char :=
  let indented (text : List Char) : Bool := (text.head?.map isSpace).getD false
  if folded && lineBreak == ['\n'] && !indented line && !indented next then
    if breaks.isEmpty then [' '] else breaks
  else lineBreak ++ breaks

/-- The lines of a block from one of them on, the break behind the last one, and the
empty lines behind that. -/
def blockLines (folded : Bool) (indent : Nat) : Nat → Cursor →
    List Char × List Char × List Char × Cursor
  | 0, c => ([], [], [], c)
  | fuel + 1, c =>
    let line := c.rest.takeWhile fun a => !isBreak a
    let behind := c.advance line.length
    match behind.rest with
    | [] => (line, [], [], behind)
    | b :: rest =>
      let lineBreak := [plainBreak b]
      let (breaks, next) := blockBreaks indent (behind.point.pass b) rest
      if next.column == indent && !next.rest.isEmpty then
        let (more, tail) := blockLines folded indent fuel next
        (line ++ joint folded line next.rest lineBreak breaks ++ more, tail)
      else (line, lineBreak, breaks, next)

/-- A block of lines behind the sign that announces it. Its lines stand at column
`floor` or behind it. -/
def block (size : Nat) (folded : Bool) (floor : Nat) (c : Cursor) : Reading String :=
  let (style, width) := blockSigns folded c.rest
  match behindSigns (c.advance width) with
  | none => .error .malformed
  | some first =>
    let floor := max floor 1
    let (breaks, indent, start) := match style.indent with
      | none =>
        let (breaks, widest, start) := blockStart first.point 0 first.rest
        (breaks, max floor widest, start)
      | some n =>
        let (breaks, start) := blockBreaks (floor + n - 1) first.point first.rest
        (breaks, floor + n - 1, start)
    let (text, lineBreak, empty, last) :=
      if start.column == indent && !start.rest.isEmpty then
        let (lines, tail) := blockLines folded indent size start
        (breaks ++ lines, tail)
      else ([], [], breaks, start)
    let tail := match style.ending with
      | .none => []
      | .one => lineBreak
      | .all => lineBreak ++ empty
    .ok (String.ofList (text ++ tail), last)

end Mustache.Data.Yaml
