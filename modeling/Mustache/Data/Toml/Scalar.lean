import Mustache.Data.Json
import Mustache.Number.Integer

/-! Single values of TOML: the four kinds of strings, numbers, and the parts of keys.
Each reader takes the text behind what announces the value and gives back the rest. -/

namespace Mustache.Data.Toml

/-- A reader: what it made of a text, and the rest of the text. -/
abbrev Reading (α : Type) := Except ReadFailure (α × List Char)

/-- Control characters, which no comment and no string holds as they are. -/
def isControl (c : Char) : Bool := c.toNat < 32 || c.toNat == 127

def isSpace (c : Char) : Bool := c == ' ' || c == '\t'

def skipSpaces (text : List Char) : List Char := text.dropWhile isSpace

/-- Up to two further quotes belong to a string on several lines that ends with them. -/
def closingQuotes (quote : Char) (s : List Char) : List Char → String × List Char
  | a :: b :: rest =>
    if a == quote && b == quote then (String.ofList (s ++ [quote, quote]), rest)
    else if a == quote then (String.ofList (s ++ [quote]), b :: rest)
    else (String.ofList s, a :: b :: rest)
  | [a] => if a == quote then (String.ofList (s ++ [quote]), []) else (String.ofList s, [a])
  | [] => (String.ofList s, [])

/-- The rest of a literal string; `done` holds its characters in reverse. -/
def literal (done : List Char) : List Char → Reading String
  | [] => .error .malformed
  | '\'' :: rest => .ok (String.ofList done.reverse, rest)
  | c :: rest => if isControl c && c != '\t' then .error .malformed else literal (c :: done) rest

def literalLines (done : List Char) : List Char → Reading String
  | [] => .error .malformed
  | '\'' :: '\'' :: '\'' :: rest => .ok (closingQuotes '\'' done.reverse rest)
  | c :: rest =>
    if isControl c && c != '\t' && c != '\n' then .error .malformed
    else literalLines (c :: done) rest

def shortEscape? : Char → Option Char
  | 'b' => some '\x08'
  | 't' => some '\t'
  | 'n' => some '\n'
  | 'f' => some '\x0c'
  | 'r' => some '\r'
  | '"' => some '"'
  | '\\' => some '\\'
  | _ => none

/-- The character whose number is written in the next `width` hexadecimal digits. -/
def hexEscape (width : Nat) (text : List Char) : Option (Char × List Char) :=
  if text.length < width then none
  else (Json.hexNumber? (text.take width)).bind fun n =>
    if n.isValidChar then some (Char.ofNat n, text.drop width) else none

/-- The text behind a backslash at the end of a line: the line end and all blanks up to
the next visible character are skipped. -/
def continuation (text : List Char) : Option (List Char) :=
  match skipSpaces text with
  | [] => some []
  | '\n' :: rest => some (rest.dropWhile fun c => isSpace c || c == '\n')
  | _ => none

def basic (lines : Bool) : Nat → List Char → List Char → Reading String
  | 0, _, _ => .error .malformed
  | _ + 1, _, [] => .error .malformed
  | fuel + 1, done, '"' :: rest =>
    if lines then
      match rest with
      | '"' :: '"' :: rest => .ok (closingQuotes '"' done.reverse rest)
      | rest => basic lines fuel ('"' :: done) rest
    else .ok (String.ofList done.reverse, rest)
  | fuel + 1, done, '\\' :: e :: rest =>
    if lines && (isSpace e || e == '\n') then
      match continuation (e :: rest) with
      | some behind => basic lines fuel done behind
      | none => .error .malformed
    else
      let found := match e with
        | 'u' => hexEscape 4 rest
        | 'U' => hexEscape 8 rest
        | e => (shortEscape? e).map fun c => (c, rest)
      match found with
      | some (c, behind) => basic lines fuel (c :: done) behind
      | none => .error .malformed
  | fuel + 1, done, c :: rest =>
    if c == '\\' || (isControl c && c != '\t' && !(lines && c == '\n')) then .error .malformed
    else basic lines fuel (c :: done) rest

/-- A string; a line end directly behind the opening quotes of several lines is left out. -/
def string? (text : List Char) : Option (Reading String) :=
  let fuel := text.length + 1
  match text with
  | '"' :: '"' :: '"' :: '\n' :: rest => some (basic true fuel [] rest)
  | '"' :: '"' :: '"' :: rest => some (basic true fuel [] rest)
  | '"' :: rest => some (basic false fuel [] rest)
  | '\'' :: '\'' :: '\'' :: '\n' :: rest => some (literalLines [] rest)
  | '\'' :: '\'' :: '\'' :: rest => some (literalLines [] rest)
  | '\'' :: rest => some (literal [] rest)
  | _ => none

/-- A run of digits, between which single underscores may stand; they are left out. -/
def digitRun (isDigit : Char → Bool) (inside : Bool) : List Char → List Char × List Char
  | '_' :: c :: rest =>
    if inside && isDigit c then
      let (digits, behind) := digitRun isDigit true rest
      (c :: digits, behind)
    else ([], '_' :: c :: rest)
  | c :: rest =>
    if isDigit c then
      let (digits, behind) := digitRun isDigit true rest
      (c :: digits, behind)
    else ([], c :: rest)
  | [] => ([], [])

/-- The bases that a letter behind a zero announces. -/
def base? : Char → Option Nat
  | 'x' => some 16
  | 'o' => some 8
  | 'b' => some 2
  | _ => none

def digitIn? (base : Nat) (c : Char) : Option Nat :=
  (Number.digit? c).bind fun n => if n < base then some n else none

/-- An integer in base two, eight or sixteen. -/
def based? : List Char → Option (Document × List Char)
  | '0' :: letter :: rest =>
    match base? letter with
    | some base =>
      match digitRun (fun c => (digitIn? base c).isSome) false rest with
      | ([], _) => none
      | (digits, behind) =>
        some (.int (Number.ofDigits base (digits.filterMap (digitIn? base))), behind)
    | none => none
  | _ => none

def exponent? : List Char → Option (Int × List Char)
  | e :: rest =>
    if e == 'e' || e == 'E' then
      let (negative, digits) := Number.splitSign rest
      match digitRun Char.isDigit false digits with
      | ([], _) => none
      | (ds, behind) => some (Number.signed negative (Number.decimalNumber ds), behind)
    else none
  | [] => none

def decimal? (text : List Char) : Option (Reading Document) :=
  let (negative, rest) := Number.splitSign text
  let (whole, rest) := match rest with
    | '0' :: rest => (['0'], rest)
    | rest => digitRun Char.isDigit false rest
  if whole.isEmpty then none
  else
    let (places, rest) := match rest with
      | '.' :: more => match digitRun Char.isDigit false more with
        | ([], _) => ([], rest)
        | found => found
      | _ => ([], rest)
    match places.isEmpty, exponent? rest with
    | true, none =>
      if Number.maxIntegerDigits < whole.length then some (.error .outOfRange)
      else some (.ok (.int (Number.signed negative (Number.decimalNumber whole)), rest))
    | _, found =>
      let (power, behind) := found.getD (0, rest)
      some (.ok (.float (Number.floatOfDecimal negative (Number.decimalNumber (whole ++ places))
        (power - places.length)), behind))

def specialFloats : List (String × Float) :=
  [("inf", 1.0 / 0.0), ("+inf", 1.0 / 0.0), ("-inf", -1.0 / 0.0),
    ("nan", 0.0 / 0.0), ("+nan", 0.0 / 0.0), ("-nan", 0.0 / 0.0)]

def number (text : List Char) : Reading Document :=
  match based? text with
  | some found => .ok found
  | none =>
    match decimal? text with
    | some found => found
    | none =>
      match specialFloats.findSome? fun (name, x) => (Json.word? name text).map fun r => (x, r) with
      | some (x, rest) => .ok (.float x, rest)
      | none => .error .malformed

/-- The characters of keys that are written without quotes. -/
def isBare (c : Char) : Bool := c.isAlphanum || c == '-' || c == '_'

def keyPart (text : List Char) : Reading String :=
  match text with
  | '"' :: rest => basic false (rest.length + 1) [] rest
  | '\'' :: rest => literal [] rest
  | _ =>
    match text.span isBare with
    | ([], _) => .error .malformed
    | (name, rest) => .ok (String.ofList name, rest)

/-- A key of parts with points between them, and the text behind it and its blanks;
`done` holds the parts read so far in reverse. -/
def key : Nat → List String → List Char → Reading (List String)
  | 0, _, _ => .error .malformed
  | fuel + 1, done, text =>
    match keyPart text with
    | .error e => .error e
    | .ok (part, behind) =>
      match skipSpaces behind with
      | '.' :: rest => key fuel (part :: done) (skipSpaces rest)
      | rest => .ok ((part :: done).reverse, rest)

end Mustache.Data.Toml
