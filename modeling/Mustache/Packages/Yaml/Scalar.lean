import Mustache.Data.Calendar
import Mustache.Packages.Yaml.Cursor
import Mustache.Text.Lowercase
import Mustache.Value.Object

/-! What scalars stand for. A plain text that looks like a truth value, a number, a date
or nothing is of that kind; a tag can declare any scalar to be of a kind. The value then
follows from the kind and the text. -/

namespace Mustache.Data.Yaml

/-- The kinds of nodes. Two kinds of keys have a part of their own in mappings: `<<`
takes in the entries of other mappings, and `=` is a text only there. -/
inductive Kind
  | text | integer | float | bool | null | date | merge | value | sequence | mapping | other
deriving DecidableEq, Repr

def standardTag : String := "tag:yaml.org,2002:"

def tagNames : List (String × Kind) :=
  [("str", .text), ("int", .integer), ("float", .float), ("bool", .bool), ("null", .null),
    ("timestamp", .date), ("merge", .merge), ("value", .value), ("seq", .sequence),
    ("map", .mapping)]

def Kind.ofTag (tag : String) : Kind :=
  ((tagNames.find? fun (name, _) => standardTag ++ name == tag).map Prod.snd).getD .other

/-! ### Plain texts -/

def nullWords : List String := ["", "~", "null", "Null", "NULL"]

def boolWords : List String :=
  ["yes", "Yes", "YES", "true", "True", "TRUE", "on", "On", "ON",
    "no", "No", "NO", "false", "False", "FALSE", "off", "Off", "OFF"]

def infiniteWords : List String := [".inf", ".Inf", ".INF"]

def nanWords : List String := [".nan", ".NaN", ".NAN"]

/-- Digits and the underscores that group them, at least one of either. -/
def isGrouped (isDigit : Char → Bool) (text : List Char) : Bool :=
  !text.isEmpty && text.all fun c => isDigit c || c == '_'

def isCounted (isFirst : Char → Bool) : List Char → Bool
  | c :: rest => isFirst c && (rest.isEmpty || isGrouped Char.isDigit rest)
  | [] => false

/-- A part of a number in base sixty behind the first: one digit, or two below sixty. -/
def isSixtieth : List Char → Bool
  | [c] => c.isDigit
  | [c, d] => '0' ≤ c && c ≤ '5' && d.isDigit
  | _ => false

def colonParts (text : List Char) : List (List Char) := text.splitOnP (· == ':')

def isIntegerSize (text : List Char) : Bool :=
  match text with
  | ['0'] => true
  | '0' :: 'b' :: digits => isGrouped (fun d => d == '0' || d == '1') digits
  | '0' :: 'x' :: digits => isGrouped (fun d => (Number.digit? d).isSome) digits
  | '0' :: digits => isGrouped (fun d => '0' ≤ d && d ≤ '7') digits
  | _ =>
    match colonParts text with
    | whole :: rest => isCounted (fun c => c.isDigit && c != '0') whole && rest.all isSixtieth
    | [] => false

def isInteger (s : String) : Bool := isIntegerSize (Number.splitSign s.toList).2

/-- The exponent of a float has a sign and digits. It may be missing. -/
def isExponent : List Char → Bool
  | [] => true
  | e :: sign :: c :: rest =>
    (e == 'e' || e == 'E') && (sign == '+' || sign == '-') && (c :: rest).all Char.isDigit
  | _ => false

/-- Whether a text is a float without its sign. What lacks digits before its point
cannot have a sign, and what is in base sixty has no exponent. -/
def isFloatSize (signed : Bool) (text : List Char) : Bool :=
  let whole := text.takeWhile (· != '.')
  match text.drop whole.length with
  | '.' :: behind =>
    let places := behind.takeWhile fun c => c.isDigit || c == '_'
    let rest := behind.drop places.length
    match colonParts whole with
    | [[]] => !signed && isCounted Char.isDigit places && isExponent rest
    | [_] => isCounted Char.isDigit whole && isExponent rest
    | first :: more => isCounted Char.isDigit first && more.all isSixtieth && rest.isEmpty
    | [] => false
  | _ => false

def isFloat (s : String) : Bool :=
  let size := (Number.splitSign s.toList).2
  let signed := size.length < s.length
  infiniteWords.contains (String.ofList size) || nanWords.contains s || isFloatSize signed size

/-! ### Dates -/

/-- The digits at the start of a text: as many as there are, but at most two, and at
least one. -/
def oneOrTwo? : List Char → Option (List Char × List Char)
  | a :: b :: rest =>
    if a.isDigit then if b.isDigit then some ([a, b], rest) else some ([a], b :: rest) else none
  | [a] => if a.isDigit then some ([a], []) else none
  | [] => none

def two? (text : List Char) : Option (List Char × List Char) :=
  (oneOrTwo? text).filter fun found => found.1.length = 2

def behind? (sign : Char) : List Char → Option (List Char)
  | c :: rest => if c == sign then some rest else none
  | [] => none

/-- The distance from universal time at the end of a date; there need not be one. -/
def offset? (text : List Char) : Option (Option Offset) :=
  match text.dropWhile isSpace with
  | [] => if text.isEmpty then some none else none
  | ['Z'] => some (some ⟨false, 0⟩)
  | sign :: rest =>
    if sign == '+' || sign == '-' then do
      let (hours, rest) ← oneOrTwo? rest
      let minutes ← match rest with
        | [] => some 0
        | rest => do
          let (minutes, last) ← (behind? ':' rest).bind two?
          if last.isEmpty then some (Number.decimalNumber minutes) else none
      return some ⟨sign == '-', 60 * Number.decimalNumber hours + minutes⟩
    else none

/-- A time of day and its distance from universal time. -/
def hour? (text : List Char) : Option (Hour × Option Offset) := do
  let (hour, rest) ← oneOrTwo? text
  let (minute, rest) ← (behind? ':' rest).bind two?
  let (second, rest) ← (behind? ':' rest).bind two?
  let (fraction, rest) := match rest with
    | '.' :: more => more.span Char.isDigit
    | _ => ([], rest)
  let offset ← offset? rest
  return (⟨Number.decimalNumber hour, Number.decimalNumber minute, Number.decimalNumber second,
    Calendar.microsOf fraction⟩, offset)

/-- The text behind the letter or the blanks in front of a time of day. -/
def hourText? : List Char → Option (List Char)
  | c :: rest =>
    if c == 'T' || c == 't' then some rest
    else if isSpace c then some (rest.dropWhile isSpace)
    else none
  | [] => none

def date? (text : List Char) : Option (Day × Option (Hour × Option Offset)) := do
  let (century, rest) ← two? text
  let (year, rest) ← two? rest
  let (month, rest) ← (behind? '-' rest).bind oneOrTwo?
  let (day, rest) ← (behind? '-' rest).bind oneOrTwo?
  let found : Day := ⟨Number.decimalNumber (century ++ year), Number.decimalNumber month,
    Number.decimalNumber day⟩
  match rest with
  | [] => return (found, none)
  | rest =>
    let hour ← (hourText? rest).bind hour?
    return (found, some hour)

def dayWidth : Nat := 10

/-- Whether a plain text is a date. A day by itself is written in full. -/
def isDate (s : String) : Bool :=
  match date? s.toList with
  | some (_, hour) => hour.isSome || s.length = dayWidth
  | none => false

def Kind.ofPlain (s : String) : Kind :=
  if nullWords.contains s then .null
  else if boolWords.contains s then .bool
  else if isFloat s then .float
  else if isInteger s then .integer
  else if s == "<<" then .merge
  else if isDate s then .date
  else if s == "=" then .value
  else .text

/-! ### Values -/

def truthValues : List (String × Bool) :=
  [("yes", true), ("true", true), ("on", true), ("no", false), ("false", false), ("off", false)]

def orOutOfRange {α : Type} : Option α → Except ReadFailure α
  | some a => .ok a
  | none => .error .outOfRange

def integerSize (text : List Char) : Except ReadFailure Int :=
  match text with
  | [] => .error .noDigits
  | ['0'] => .ok 0
  | '0' :: 'b' :: digits => orOutOfRange (Number.parseBased? 2 digits)
  | '0' :: 'x' :: digits => orOutOfRange (Number.parseBased? 16 digits)
  | '0' :: digits => orOutOfRange (Number.parseBased? 8 ('0' :: digits))
  | _ =>
    (orOutOfRange ((colonParts text).mapM Number.parseInteger?)).map fun parts =>
      parts.foldl (fun n part => 60 * n + part) 0

def integerValue (text : List Char) : Except ReadFailure Int :=
  let plain := text.filter (· != '_')
  if plain.isEmpty then .error .noDigits
  else
    let (negative, size) := Number.splitSign plain
    (integerSize size).map fun n => if negative then -n else n

def sixtyFloat (parts : List Float) : Float :=
  let start : Float × Float := (0, 1)
  (parts.foldr (fun part (sum, scale) => (sum + part * scale, scale * 60)) start).1

def floatSize (text : List Char) : Except ReadFailure Float :=
  match colonParts text with
  | [whole] => orOutOfRange (Number.floatOfText? whole)
  | parts => (orOutOfRange (parts.mapM Number.floatOfText?)).map sixtyFloat

def floatValue (s : String) : Except ReadFailure Float :=
  let plain := (Text.lowercase s).toList.filter (· != '_')
  if plain.isEmpty then .error .noDigits
  else
    let (negative, size) := Number.splitSign plain
    if String.ofList size == ".nan" then .ok (0.0 / 0.0)
    else
      let found := if String.ofList size == ".inf" then .ok (1.0 / 0.0) else floatSize size
      found.map fun x => if negative then -x else x

def dateValue (text : List Char) : Except ReadFailure Object :=
  match date? text with
  | none => .error .notADate
  | some (day, none) => if day.isReal then .ok (.date .day day.text) else .error .outOfRange
  | some (day, some (hour, offset)) =>
    if day.isReal && hour.isReal && offset.all Offset.isReal then
      .ok (.date .moment (momentText day hour offset))
    else .error .outOfRange

/-- The value of a text of a kind. The kinds that have no values by themselves are a
fault. -/
def Kind.valueOf (kind : Kind) (s : String) : Except ReadFailure Object :=
  match kind with
  | .text => .ok (.text s)
  | .null => .ok .none
  | .bool =>
    match truthValues.lookup (Text.lowercase s) with
    | some b => .ok (.bool b)
    | none => .error .notATruthValue
  | .integer => (integerValue s.toList).map .int
  | .float => (floatValue s).map .float
  | .date => dateValue s.toList
  | _ => .error .malformed

end Mustache.Data.Yaml
