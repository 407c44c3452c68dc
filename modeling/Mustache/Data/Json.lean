import Mustache.Data.Document
import Mustache.Number.Literal

/-! JSON texts. Readers of several kinds share one grammar: data files may be read strictly,
lists in environment variables are read leniently. The recursion of the reader is bounded by the
length of the text, since every step takes at least one character. -/

namespace Mustache.Data.Json

/-- What the two readers accept beyond the grammar. -/
structure Dialect where
  /-- Integers beyond 64 bits stay exact; otherwise they become floats. -/
  exactIntegers : Bool
  /-- `NaN`, `Infinity`, `-Infinity` and floats beyond the largest finite one. -/
  nonFinite : Bool
  /-- An escape that names half of a surrogate pair stands for U+FFFD. -/
  loneSurrogates : Bool
  /-- The number of lists and tables that may stand within each other. -/
  maxDepth : Nat
deriving DecidableEq, Repr

/-- The reader of variables, whose lists may stand within each other as far as it can call
itself. -/
def lenient (levels : Nat) : Dialect := ⟨true, true, true, levels⟩

/-- A reader: what it made of a text, and the rest of the text. -/
abbrev Reading (α : Type) := Except ReadFailure (α × List Char)

def isBlank (c : Char) : Bool := c == ' ' || c == '\t' || c == '\n' || c == '\r'

def skipBlanks (text : List Char) : List Char := text.dropWhile isBlank

def hexNumber? (digits : List Char) : Option Nat :=
  digits.foldlM (fun n c => (Number.digit? c).map (16 * n + ·)) 0

def shortEscape? : Char → Option Char
  | '"' => some '"'
  | '\\' => some '\\'
  | '/' => some '/'
  | 'b' => some '\x08'
  | 'f' => some '\x0c'
  | 'n' => some '\n'
  | 'r' => some '\r'
  | 't' => some '\t'
  | _ => none

def isHighSurrogate (n : Nat) : Bool := 0xD800 ≤ n && n < 0xDC00

def isLowSurrogate (n : Nat) : Bool := 0xDC00 ≤ n && n < 0xE000

def lowHalf? : List Char → Option (Nat × List Char)
  | '\\' :: 'u' :: a :: b :: c :: d :: rest =>
    match hexNumber? [a, b, c, d] with
    | some n => if isLowSurrogate n then some (n, rest) else none
    | none => none
  | _ => none

/-- The rest of a string behind its opening quote; `done` holds its characters in
reverse. -/
def string (dialect : Dialect) : Nat → List Char → List Char → Reading String
  | 0, _, _ => .error .malformed
  | _ + 1, done, '"' :: rest => .ok (String.ofList done.reverse, rest)
  | fuel + 1, done, '\\' :: 'u' :: a :: b :: c :: d :: rest =>
    match hexNumber? [a, b, c, d] with
    | none => .error .malformed
    | some n =>
      if isHighSurrogate n || isLowSurrogate n then
        match lowHalf? rest with
        | some (low, behind) =>
          if isHighSurrogate n then
            string dialect fuel
              (Char.ofNat (0x10000 + (n - 0xD800) * 1024 + (low - 0xDC00)) :: done) behind
          else if dialect.loneSurrogates then string dialect fuel ('\ufffd' :: done) rest
          else .error .malformed
        | none =>
          if dialect.loneSurrogates then string dialect fuel ('\ufffd' :: done) rest
          else .error .malformed
      else string dialect fuel (Char.ofNat n :: done) rest
  | fuel + 1, done, '\\' :: c :: rest =>
    match shortEscape? c with
    | some e => string dialect fuel (e :: done) rest
    | none => .error .malformed
  | fuel + 1, done, c :: rest =>
    if c.toNat < 32 || c == '\\' then .error .malformed
    else string dialect fuel (c :: done) rest
  | _ + 1, _, [] => .error .malformed

def fraction : List Char → List Char × List Char
  | '.' :: c :: rest => if c.isDigit then (c :: rest).span Char.isDigit else ([], '.' :: c :: rest)
  | text => ([], text)

/-- The number whose integral digits are given; a sign stood in front if `negative`. -/
def number (dialect : Dialect) (negative : Bool) (whole rest : List Char) : Reading Document :=
  let (places, behindPoint) := fraction rest
  let (power, behind) := Number.exponent behindPoint
  if places.isEmpty && power.isNone then
    if Number.maxIntegerDigits < whole.length && dialect.exactIntegers then .error .outOfRange
    else
      let n : Int := Number.decimalNumber whole
      let i := if negative then -n else n
      let fits := -9223372036854775808 ≤ i && i ≤ 18446744073709551615
      if dialect.exactIntegers || fits then .ok (.int i, behind)
      else finite (Number.floatOfDecimal negative (Number.decimalNumber whole) 0) behind
  else
    finite (Number.floatOfDecimal negative (Number.decimalNumber (whole ++ places))
      (power.getD 0 - places.length)) behind
where
  finite (x : Float) (behind : List Char) : Reading Document :=
    if x.isFinite || dialect.nonFinite then .ok (.float x, behind) else .error .malformed

def digits (dialect : Dialect) (negative : Bool) : List Char → Reading Document
  | '0' :: rest => number dialect negative ['0'] rest
  | text =>
    match text.span Char.isDigit with
    | ([], _) => .error .malformed
    | (whole, rest) => number dialect negative whole rest

def word? (w : String) (text : List Char) : Option (List Char) :=
  if w.toList.isPrefixOf text then some (text.drop w.length) else none

/-- The words that stand for a value by themselves. -/
def words (dialect : Dialect) : List (String × Document) :=
  [("null", .null), ("true", .bool true), ("false", .bool false)]
    ++ if dialect.nonFinite then
      [("NaN", .float (0.0 / 0.0)), ("Infinity", .float (1.0 / 0.0)),
        ("-Infinity", .float (-1.0 / 0.0))]
    else []

def word (dialect : Dialect) (text : List Char) : Option (Document × List Char) :=
  (words dialect).findSome? fun entry => (word? entry.1 text).map fun rest => (entry.2, rest)

mutual

/-- A value at the start of a text, within which `levels` lists and tables may stand
within each other. Every recursive step takes a character, so `fuel` stays above the
number of those that are left, and a string can be read with it too. -/
def value (dialect : Dialect) (levels : Nat) : Nat → List Char → Reading Document
  | 0, _ => .error .malformed
  | fuel + 1, text =>
    match word dialect text with
    | some found => .ok found
    | none =>
      match text with
      | '"' :: rest =>
        (string dialect fuel [] rest).map fun (s, behind) => (.text s, behind)
      | '-' :: rest => digits dialect true rest
      | '[' :: rest =>
        match levels, skipBlanks rest with
        | 0, _ => .error .tooDeep
        | _, ']' :: behind => .ok (.list [], behind)
        | levels + 1, inner => items dialect levels fuel [] inner
      | '\x7b' :: rest =>
        match levels, skipBlanks rest with
        | 0, _ => .error .tooDeep
        | _, '\x7d' :: behind => .ok (.table [], behind)
        | levels + 1, inner => members dialect levels fuel [] inner
      | _ => digits dialect false text

def items (dialect : Dialect) (levels : Nat) :
    Nat → List Document → List Char → Reading Document
  | 0, _, _ => .error .malformed
  | fuel + 1, done, text =>
    match value dialect levels fuel text with
    | .error e => .error e
    | .ok (item, behind) =>
      match skipBlanks behind with
      | ',' :: rest => items dialect levels fuel (item :: done) (skipBlanks rest)
      | ']' :: rest => .ok (.list (item :: done).reverse, rest)
      | _ => .error .malformed

/-- The members of a table from one of them to the closing brace. -/
def members (dialect : Dialect) (levels : Nat) :
    Nat → List (String × Document) → List Char → Reading Document
  | 0, _, _ => .error .malformed
  | fuel + 1, done, text =>
    match text with
    | '"' :: rest =>
      match string dialect fuel [] rest with
      | .error e => .error e
      | .ok (key, behind) =>
        match skipBlanks behind with
        | ':' :: behind =>
          match value dialect levels fuel (skipBlanks behind) with
          | .error e => .error e
          | .ok (item, behind) =>
            match skipBlanks behind with
            | ',' :: rest => members dialect levels fuel ((key, item) :: done) (skipBlanks rest)
            | '\x7d' :: rest => .ok (.table (Fields.ofList ((key, item) :: done).reverse), rest)
            | _ => .error .malformed
        | _ => .error .malformed
    | _ => .error .malformed

end

def parse (dialect : Dialect) (text : List Char) : Except ReadFailure Document :=
  match value dialect dialect.maxDepth (2 * text.length + 2) (skipBlanks text) with
  | .error e => .error e
  | .ok (d, rest) => if (skipBlanks rest).isEmpty then .ok d else .error .malformed

def fourHex (n : Nat) : String :=
  Number.padZeros 4 (String.ofList (Nat.toDigits 16 n))

/-- A character inside a quoted string; all but printable ASCII is escaped. -/
def escape (c : Char) : String :=
  match c with
  | '"' => "\\\""
  | '\\' => "\\\\"
  | '\n' => "\\n"
  | '\r' => "\\r"
  | '\t' => "\\t"
  | '\x08' => "\\b"
  | '\x0c' => "\\f"
  | c =>
    let n := c.toNat
    if 32 ≤ n && n < 127 then c.toString
    else if n < 0x10000 then "\\u" ++ fourHex n
    else "\\u" ++ fourHex (0xD800 + (n - 0x10000) / 1024) ++ "\\u"
      ++ fourHex (0xDC00 + (n - 0x10000) % 1024)

def quoteOnto (done : String) (s : String) : String :=
  s.foldl (fun done c => done ++ escape c) (done.push '"') |>.push '"'

def floatLayout : Number.Layout := ⟨-4, 16, 2, "Infinity", "NaN"⟩

mutual

def writeOnto (done : String) : Document → String
  | .null => done ++ "null"
  | .bool b => done ++ if b then "true" else "false"
  | .int i => done ++ toString i
  | .float x => done ++ floatLayout.float x
  | .text s | .date _ s => quoteOnto done s
  | .list items => (writeItems (done.push '[') items).push ']'
  | .table entries => (writeEntries (done.push '\x7b') entries).push '\x7d'

def writeItems (done : String) : List Document → String
  | [] => done
  | [d] => writeOnto done d
  | d :: rest => writeItems (writeOnto done d ++ ", ") rest

def writeEntries (done : String) : List (String × Document) → String
  | [] => done
  | [(k, d)] => writeOnto (quoteOnto done k ++ ": ") d
  | (k, d) :: rest => writeEntries (writeOnto (quoteOnto done k ++ ": ") d ++ ", ") rest

end

/-- The text of a document on one line, with a space behind commas and colons. -/
def write (d : Document) : String := writeOnto "" d

end Mustache.Data.Json
