import Mustache.Packages.Yaml.Token

/-! The tokens of a text. A key is recognised by the colon behind it: until the colon
comes, the token with which the key may have begun is a candidate, and the tokens that
announce the key are put in front of it afterwards. In block style the columns of the
collections that are open tell where they end. -/

namespace Mustache.Data.Yaml

def maxKeyLength : Nat := 1024

/-- How many collections may stand within each other. -/
def maxNesting : Nat := 485

/-- A token with which a key may begin: its number and its place. In a mapping that is
open at its column it has to be a key. -/
structure Candidate where
  number : Nat
  point : Point
  required : Bool
deriving DecidableEq, Repr

/-- A token and the tokens that announce the key that begins with it. -/
structure Slot where
  lead : List Token
  token : Token
deriving Repr

/-- A text that has been read in part: the place of what follows, the tokens so far from
the last to the first and their number, the columns of the open collections in block
style from the innermost one on, the candidates of the innermost level and of those
around it, and whether a key may begin. A level is a collection in flow style or all
that is outside of them. -/
structure Scan where
  cursor : Cursor
  slots : List Slot
  count : Nat
  columns : List Nat
  candidate : Option Candidate
  outer : List (Option Candidate)
  allowsKey : Bool

namespace Scan

def start (text : List Char) : Scan := ⟨.ofText text, [], 0, [], none, [], true⟩

def inFlow (s : Scan) : Bool := !s.outer.isEmpty

/-- The column from which on texts on several lines stand. -/
def floor (s : Scan) : Nat := (s.columns.head?.map (· + 1)).getD 0

def push (token : Token) (s : Scan) : Scan :=
  { s with slots := ⟨[], token⟩ :: s.slots, count := s.count + 1 }

def pushSign (token : Token) (width : Nat) (s : Scan) : Scan :=
  { s.push token with cursor := s.cursor.advance width }

def announce (number : Nat) (lead : List Token) (s : Scan) : Scan :=
  let slots := s.slots.modify (s.count - 1 - number) fun slot => ⟨lead ++ slot.lead, slot.token⟩
  { s with slots }

/-- Goes on to the next token. A new line in block style may begin with a key. -/
def skip (s : Scan) : Scan :=
  let next := s.cursor.skip
  { s with cursor := next, allowsKey := s.allowsKey || (!s.inFlow && s.cursor.line < next.line) }

/-- Whether the text has gone on too far for a candidate to be a key. -/
def isStale (s : Scan) (k : Candidate) : Bool :=
  k.point.line != s.cursor.line || maxKeyLength < s.cursor.point.index - k.point.index

/-- Gives up the candidates that are none any more. -/
def expire (s : Scan) : Except ReadFailure Scan :=
  let isLost (k : Option Candidate) : Bool := k.any fun k => k.required && s.isStale k
  let keep (k : Option Candidate) : Option Candidate := k.filter fun k => !s.isStale k
  if (s.candidate :: s.outer).any isLost then .error .malformed
  else .ok { s with candidate := keep s.candidate, outer := s.outer.map keep }

/-- Gives up the candidate of the innermost level. -/
def forget (s : Scan) : Except ReadFailure Scan :=
  if s.candidate.any (·.required) then .error .malformed else .ok { s with candidate := none }

def note (s : Scan) : Except ReadFailure Scan :=
  if s.allowsKey then
    s.forget.map fun s =>
      let required := !s.inFlow && s.columns.head? == some s.cursor.column
      { s with candidate := some ⟨s.count, s.cursor.point, required⟩ }
  else .ok s

def closeWhile (test : Nat → Bool) (s : Scan) : Scan :=
  let closed := s.columns.takeWhile test
  let s := closed.foldl (fun s _ => s.push .blockEnd) s
  { s with columns := s.columns.drop closed.length }

/-- Closes the collections in block style that end in front of a column. -/
def unwind (s : Scan) : Scan :=
  if s.inFlow then s else s.closeWhile (s.cursor.column < ·)

/-- Closes all collections in block style. -/
def unwindAll (s : Scan) : Scan := if s.inFlow then s else s.closeWhile fun _ => true

/-- Whether a collection in block style begins at a column, and the scan with it open. -/
def openBlock (column : Nat) (s : Scan) : Bool × Scan :=
  if s.columns.head?.all (· < column) then (true, { s with columns := column :: s.columns })
  else (false, s)

/-- In block style a sign stands where a key may begin, and may open a collection. -/
def openAtSign (opening : Token) (s : Scan) : Except ReadFailure Scan :=
  if s.inFlow then .ok s
  else if !s.allowsKey then .error .malformed
  else match s.openBlock s.cursor.column with
    | (true, s) => .ok (s.push opening)
    | (false, s) => .ok s

/-- The sign of an entry, or of a key or a value without a candidate. -/
def blockSign (opening token : Token) (s : Scan) : Except ReadFailure Scan :=
  ((s.openAtSign opening).bind forget).map fun s =>
    let allowsKey := token == .entry || !s.inFlow
    { s.pushSign token 1 with allowsKey }

/-- The colon of a value. If there is a candidate it turns out to be the key. -/
def valueSign (s : Scan) : Except ReadFailure Scan :=
  match s.candidate with
  | some k =>
    let (opened, t) := if s.inFlow then (false, s) else s.openBlock k.point.column
    let lead := if opened then [Token.blockMapping, .key] else [.key]
    .ok { (t.announce k.number lead).pushSign .value 1 with candidate := none, allowsKey := false }
  | none => s.blockSign .blockMapping .value

def openFlow (token : Token) (s : Scan) : Except ReadFailure Scan :=
  if maxNesting < s.outer.length then .error .tooDeep
  else s.note.map fun s =>
    { s.pushSign token 1 with
      candidate := none, outer := s.candidate :: s.outer, allowsKey := true }

/-- The closing bracket of a collection in flow style. -/
def closeFlow (token : Token) (s : Scan) : Except ReadFailure Scan :=
  s.forget.bind fun s =>
    match s.outer with
    | [] => .error .malformed
    | candidate :: outer => .ok { s.pushSign token 1 with candidate, outer, allowsKey := false }

/-- A token in front of which nothing is open in block style: a mark or a directive. -/
def topLevel (s : Scan) (read : Cursor → Reading Token) : Except ReadFailure Scan :=
  s.unwindAll.forget.bind fun s =>
    (read s.cursor).map fun (token, cursor) => { s.push token with cursor, allowsKey := false }

/-- A token that may begin a key. -/
def content (s : Scan) (read : Cursor → Reading Token) : Except ReadFailure Scan :=
  s.note.bind fun s =>
    (read s.cursor).map fun (token, cursor) => { s.push token with cursor, allowsKey := false }

/-- A plain text. What follows it on a new line may be a key. -/
def plainText (size : Nat) (s : Scan) : Except ReadFailure Scan :=
  s.note.map fun s =>
    let (text, broken, cursor) := plain s.inFlow s.floor size s.cursor
    { s.push (.scalar true (String.ofList text)) with cursor, allowsKey := broken }

/-- A block of lines behind its sign. What follows it may be a key. -/
def blockText (size : Nat) (folded : Bool) (s : Scan) : Except ReadFailure Scan :=
  s.forget.bind fun s =>
    (block size folded s.floor (s.cursor.advance 1)).map fun (text, cursor) =>
      { s.push (.scalar false text) with cursor, allowsKey := true }

def quotedText (size : Nat) (quote : Char) (s : Scan) : Except ReadFailure Scan :=
  s.content fun c =>
    (quoted quote size [] (c.advance 1)).map fun (text, last) => (.scalar false text, last)

/-- The next token, which starts with a character in front of the rest of the text. -/
def token (size : Nat) (s : Scan) (c : Char) (rest : List Char) : Except ReadFailure Scan :=
  let sign := s.inFlow || blankFirst rest
  if c == '%' && s.cursor.column == 0 then s.topLevel fun c => directiveAt (c.advance 1)
  else if s.cursor.marks "---" then s.topLevel fun c => .ok (.documentStart, c.advance 3)
  else if s.cursor.marks "..." then s.topLevel fun c => .ok (.documentEnd, c.advance 3)
  else if c == '[' then s.openFlow .flowSequence
  else if c == '\x7b' then s.openFlow .flowMapping
  else if c == ']' then s.closeFlow .flowSequenceEnd
  else if c == '\x7d' then s.closeFlow .flowMappingEnd
  else if c == ',' then s.forget.map fun s => { s.pushSign .comma 1 with allowsKey := true }
  else if c == '-' && blankFirst rest then s.blockSign .blockSequence .entry
  else if c == '?' && sign then s.blockSign .blockMapping .key
  else if c == ':' && sign then s.valueSign
  else if c == '*' || c == '&' then
    s.content fun cursor => (anchorName (cursor.advance 1)).map fun (name, last) =>
      (if c == '*' then .alias name else .anchor name, last)
  else if c == '!' then s.content tagAt
  else if c == '|' && !s.inFlow then s.blockText size false
  else if c == '>' && !s.inFlow then s.blockText size true
  else if c == '\'' || c == '"' then s.quotedText size c
  else if startsPlain s.inFlow (c :: rest) then s.plainText size
  else .error .malformed

/-- The scan behind the next token, or the one at the end of the text. -/
def next (size : Nat) (s : Scan) : Except ReadFailure (Scan × Bool) :=
  s.skip.expire.bind fun s =>
    let s := s.unwind
    match s.cursor.rest with
    | [] => s.unwindAll.forget.map fun s => (s, true)
    | c :: rest => (s.token size c rest).map fun s => (s, false)

/-- The first tokens of a scan, up to a number of them, with those that announce keys. -/
def tokens (n : Nat) (s : Scan) : List Token :=
  (s.slots.drop (s.count - n)).reverse.flatMap fun slot => slot.lead ++ [slot.token]

/-- The number of tokens that are certain before the next one is read: no candidate among
them waits for its colon. -/
def settled (s : Scan) : Nat :=
  match s.expire with
  | .error _ => s.count
  | .ok s =>
    (s.candidate :: s.outer).foldl (fun n k => (k.map fun k => min n k.number).getD n) s.count

/-- Reads on to the end of a text. Each token takes a character, so `fuel` does not run
out if it exceeds the length of the text. -/
def run (size : Nat) : Nat → Scan → List Token
  | 0, s => s.tokens s.count ++ [.failure .malformed]
  | fuel + 1, s =>
    match s.next size with
    | .error cause => s.tokens s.settled ++ [.failure cause]
    | .ok (last, true) => last.tokens last.count
    | .ok (s, false) => run size fuel s

end Scan

def tokens (text : List Char) : List Token :=
  Scan.run (text.length + 1) (text.length + 1) (.start text)

end Mustache.Data.Yaml
