import Mustache.Data.Calendar
import Mustache.Data.Document
import Mustache.Keyed
import Mustache.Number.Exact
import Mustache.Text.Quoted
import Mustache.Value.Datum

/-! Objects of the usual types, with the texts that stand for them. Mappings may have keys of
any kind: keys that are equal are one key, and numbers are equal by value whatever their
kind. An integer with too many digits has no text, and neither has what holds one. -/

namespace Mustache

/-- Byte strings that can or cannot be changed in place. -/
inductive BytesKind
  | fixed | growable
deriving DecidableEq, Repr

/-- Sequences, by how they are held. -/
inductive SequenceKind
  | list | tuple | generator
deriving DecidableEq, Repr

/-- Mappings, by whether the order of their entries belongs to what they are. -/
inductive MappingKind
  | plain | ordered
deriving DecidableEq, Repr

/-- An object of one of the usual types. -/
inductive Object
  | none
  | bool (b : Bool)
  | int (i : Int)
  | float (x : Float)
  | decimal (text : String)
  | date (kind : Data.DateKind) (text : String)
  | text (s : String)
  | bytes (kind : BytesKind) (content : List UInt8)
  | sequence (kind : SequenceKind) (items : List Object)
  | mapping (kind : MappingKind) (entries : List (Object × Object))
  | dataclass (typeName : String) (fields : List (String × Object))
  | lambda (f : Lambda)
  | bound (v : Value)
deriving Inhabited

namespace Object

def typeName : Object → String
  | .none => "NoneType"
  | .bool _ => "bool"
  | .int _ => "int"
  | .float _ => "float"
  | .decimal _ => "Decimal"
  | .date .day _ => "date"
  | .date .moment _ => "datetime"
  | .date .hour _ => "time"
  | .text _ => "str"
  | .bytes .fixed _ => "bytes"
  | .bytes .growable _ => "bytearray"
  | .sequence .list _ => "list"
  | .sequence .tuple _ => "tuple"
  | .sequence .generator _ => "generator"
  | .mapping .plain _ => "dict"
  | .mapping .ordered _ => "OrderedDict"
  | .dataclass typeName _ => typeName
  | .lambda _ => "function"
  | .bound v => v.shape

/-! ### Texts -/

/-- What asking for the text of an integer raises if it has too many digits. -/
def tooManyDigits : Failure :=
  .raised ⟨.value, "ValueError",
    s!"Exceeds the limit ({Number.maxIntegerDigits} digits) for integer string conversion"⟩

def intText (i : Int) : Except Failure String :=
  if i.natAbs < Nat.pow 10 Number.maxIntegerDigits then .ok (toString i) else .error tooManyDigits

/-- The numbers in a text, each up to the next character that is no digit. -/
def numbersIn (text : List Char) : List Nat :=
  ((text.map fun c => if c.isDigit then c else ' ').splitOnP (· == ' ')).filterMap fun digits =>
    if digits.isEmpty then Option.none else some (Number.decimalNumber digits)

/-- Numbers without those at the end that are zero, of which `kept` stay in any case. -/
def withoutZeros (kept : Nat) (parts : List Nat) : List Nat :=
  parts.take kept ++ ((parts.drop kept).reverse.dropWhile (· == 0)).reverse

/-- The distance from universal time at the end of the text of a time, in seconds, and the
text in front of it. -/
def splitOffset (text : String) : List Char × Option Int :=
  let chars := text.toList
  let front := chars.takeWhile fun c => c != '+' && c != '-'
  match chars.drop front.length with
  | sign :: behind =>
    let parts := numbersIn behind
    let seconds : Int := 3600 * parts.getD 0 0 + 60 * parts.getD 1 0 + parts.getD 2 0
    (front, some (if sign == '-' then -seconds else seconds))
  | [] => (front, Option.none)

/-- A distance from universal time inside the text of another object. -/
def quotedOffset (seconds : Int) : String :=
  if seconds = 0 then "tzinfo=datetime.timezone.utc"
  else
    let days := if seconds < 0 then "days=-1, " else ""
    let rest := if seconds < 0 then seconds + 86400 else seconds
    s!"tzinfo=datetime.timezone(datetime.timedelta({days}seconds={rest}))"

/-- A date or a time inside the text of another object: its parts without leading zeros, and
without seconds and millionths that are zero. -/
def quotedDate (kind : Data.DateKind) (text : String) : String :=
  let parts (numbers : List Nat) := ", ".intercalate (numbers.map toString)
  let zone (offset : Option Int) := (offset.map fun o => ", " ++ quotedOffset o).getD ""
  match kind with
  | .day => "datetime.date(" ++ parts (numbersIn text.toList) ++ ")"
  | .hour =>
    let (front, offset) := splitOffset text
    "datetime.time(" ++ parts (withoutZeros 2 (numbersIn front)) ++ zone offset ++ ")"
  | .moment =>
    let (front, offset) := splitOffset (text.drop 10).toString
    let numbers := numbersIn (text.toList.take 10) ++ numbersIn front
    "datetime.datetime(" ++ parts (withoutZeros 5 numbers) ++ zone offset ++ ")"

def quotedDecimal (text : String) : String := "Decimal('" ++ text ++ "')"

/-- Quoted items in round brackets; a single one is told from a mere bracket by a comma. -/
def quotedTuple : List String → String
  | [item] => "(" ++ item ++ ",)"
  | items => "(" ++ ", ".intercalate items ++ ")"

def quotedScalar (s : Scalar) : Except Failure String :=
  s.text.map fun text =>
    if s.label == "str" then Text.quoted text
    else if s.label == "decimal" then quotedDecimal text
    else if s.label == "date" then quotedDate .day text
    else text

mutual

/-- A bound value inside the text of another object: its shape and what it holds. -/
def quotedValue : Value → Except Failure String
  | .record fields => do
    return "Record(fields=\x7b" ++ ", ".intercalate (← quotedRecord fields) ++ "\x7d)"
  | .bool b => .ok ("Bool(value=" ++ (if b then "True" else "False") ++ ")")
  | .seq items => do return "Seq(items=" ++ quotedTuple (← quotedSeq items) ++ ")"
  | .text s => .ok ("String(value=" ++ Text.quoted s ++ ")")
  | .scalar s => do return "Scalar(value=" ++ (← quotedScalar s) ++ ")"
  | .lambda f => .ok ("Lambda(function=" ++ f.label ++ ")")
  | .absent => .ok "Absent()"

def quotedRecord : List (String × Value) → Except Failure (List String)
  | [] => .ok []
  | (name, v) :: rest => do
    let text ← quotedValue v
    return (Text.quoted name ++ ": " ++ text) :: (← quotedRecord rest)

def quotedSeq : List Value → Except Failure (List String)
  | [] => .ok []
  | v :: rest => do
    let text ← quotedValue v
    return text :: (← quotedSeq rest)

end

mutual

def quoted : Object → Except Failure String
  | .none => .ok "None"
  | .bool b => .ok (if b then "True" else "False")
  | .int i => intText i
  | .float x => .ok (Number.floatText x)
  | .decimal t => .ok (quotedDecimal t)
  | .date kind t => .ok (quotedDate kind t)
  | .text s => .ok (Text.quoted s)
  | .bytes .fixed content => .ok (Text.quotedBytes content)
  | .bytes .growable content => .ok ("bytearray(" ++ Text.quotedBytes content ++ ")")
  | .sequence .list items => do return "[" ++ ", ".intercalate (← quotedItems items) ++ "]"
  | .sequence .tuple items => do return quotedTuple (← quotedItems items)
  | .sequence .generator _ => .ok "<generator>"
  | .mapping .plain entries => do
    return "\x7b" ++ ", ".intercalate (← quotedEntries entries) ++ "\x7d"
  | .mapping .ordered [] => .ok "OrderedDict()"
  | .mapping .ordered entries => do
    return "OrderedDict([" ++ ", ".intercalate (← quotedPairs entries) ++ "])"
  | .dataclass typeName fields => do
    return typeName ++ "(" ++ ", ".intercalate (← quotedFields fields) ++ ")"
  | .lambda f => .ok f.label
  | .bound v => quotedValue v

def quotedItems : List Object → Except Failure (List String)
  | [] => .ok []
  | d :: rest => do
    let text ← quoted d
    return text :: (← quotedItems rest)

def quotedEntries : List (Object × Object) → Except Failure (List String)
  | [] => .ok []
  | (k, v) :: rest => do
    let key ← quoted k
    let value ← quoted v
    return (key ++ ": " ++ value) :: (← quotedEntries rest)

def quotedPairs : List (Object × Object) → Except Failure (List String)
  | [] => .ok []
  | (k, v) :: rest => do
    let key ← quoted k
    let value ← quoted v
    return quotedTuple [key, value] :: (← quotedPairs rest)

def quotedFields : List (String × Object) → Except Failure (List String)
  | [] => .ok []
  | (name, v) :: rest => do
    let text ← quoted v
    return (name ++ "=" ++ text) :: (← quotedFields rest)

end

def display : Object → Except Failure String
  | .decimal t => .ok t
  | .date _ t => .ok t
  | .text s => .ok s
  | d => d.quoted

/-! ### Keys -/

/-- A decimal literal: an optional sign, digits around an optional point, and an
optional power of ten. -/
def decimalValue? (text : String) : Option Number.Exact :=
  let (negative, rest) := match text.toList with
    | '-' :: r => (true, r)
    | '+' :: r => (false, r)
    | r => (false, r)
  let (whole, rest) := rest.span Char.isDigit
  let (places, rest) := match rest with
    | '.' :: r => r.span Char.isDigit
    | r => ([], r)
  let power : Option Int := match rest with
    | [] => some 0
    | e :: r =>
      if e == 'e' || e == 'E' then (String.ofList (r.dropWhile (· == '+'))).toInt? else .none
  if whole.isEmpty && places.isEmpty then .none
  else power.bind fun p =>
    (String.ofList (whole ++ places)).toNat?.map fun n =>
      .ofDecimal (if negative then -n else n) (p - places.length)

def number? : Object → Option Number.Exact
  | .bool b => some (.ofInt (if b then 1 else 0))
  | .int i => some (.ofInt i)
  | .float x => Number.Exact.ofFloat? x
  | .decimal t => decimalValue? t
  | _ => .none

/-- The sign of an object that is an infinite number: whether it is negative. -/
def infinity? : Object → Option Bool
  | .float x => if x.isInf then some (x < 0) else .none
  | .decimal "Infinity" => some false
  | .decimal "-Infinity" => some true
  | _ => .none

/-- What two equal points in time have in common: the time that universal clocks show, or,
without a distance from it, the time itself. -/
def instant (kind : Data.DateKind) (text : String) : Option Int × List Nat :=
  let (front, offset) := match kind with
    | .day => (text.toList, Option.none)
    | .hour => splitOffset text
    | .moment =>
      let (front, offset) := splitOffset (text.drop 10).toString
      (text.toList.take 10 ++ front, offset)
  let numbers := numbersIn front
  match kind, offset with
  | .hour, some o =>
    (some (3600 * numbers.getD 0 0 + 60 * numbers.getD 1 0 + numbers.getD 2 0 - o), numbers.drop 3)
  | .moment, some o =>
    let day : Data.Day := ⟨numbers.getD 0 0, numbers.getD 1 0, numbers.getD 2 0⟩
    (some (86400 * day.number + 3600 * numbers.getD 3 0 + 60 * numbers.getD 4 0
      + numbers.getD 5 0 - o), numbers.drop 6)
  | _, _ => (Option.none, numbers)

/-- The object that a scalar was bound from, by its label. -/
def ofScalar (s : Scalar) : Object :=
  let text := s.text.toOption.getD ""
  match s.label with
  | "int" => .int (text.toInt?.getD 0)
  | "float" => .float ((Number.floatOfText? text.toList).getD 0)
  | "bool" => .bool (text == "True")
  | "none" => .none
  | "decimal" => .decimal text
  | "date" => .date .day text
  | _ => .text text

/-- Two objects that hold no others are equal: equal numbers, or the same object of the same
kind. -/
def sameScalar : Object → Object → Bool
  | .none, .none => true
  | .text s, .text t => s == t
  | .bytes .fixed a, .bytes .fixed b => a == b
  | .date j s, .date k t => j == k && instant j s == instant k t
  | a, b =>
    match a.number?, b.number? with
    | some x, some y => decide (x = y)
    | .none, .none =>
      match a.infinity?, b.infinity? with
      | some x, some y => x == y
      | _, _ => false
    | _, _ => false

mutual

/-- Two bound values are the same key: values of one shape that hold the same. -/
def sameValue : Value → Value → Bool
  | .absent, .absent => true
  | .bool a, .bool b => a == b
  | .text s, .text t => s == t
  | .scalar s, .scalar t => sameScalar (ofScalar s) (ofScalar t)
  | .seq a, .seq b => sameValues a b
  | _, _ => false

def sameValues : List Value → List Value → Bool
  | [], [] => true
  | a :: as, b :: bs => sameValue a b && sameValues as bs
  | _, _ => false

end

mutual

/-- Two keys are equal. What is equal to nothing else, such as a float that is no
number, is no key of another. -/
def sameKey : Object → Object → Bool
  | .sequence .tuple a, .sequence .tuple b => sameKeys a b
  | .dataclass s a, .dataclass t b => s == t && sameFields a b
  | .bound a, .bound b => sameValue a b
  | a, b => sameScalar a b

def sameKeys : List Object → List Object → Bool
  | [], [] => true
  | a :: as, b :: bs => sameKey a b && sameKeys as bs
  | _, _ => false

def sameFields : List (String × Object) → List (String × Object) → Bool
  | [], [] => true
  | (m, a) :: as, (n, b) :: bs => m == n && sameKey a b && sameFields as bs
  | _, _ => false

end

/-- The entries that setting each key in turn leaves. -/
def entriesOf (entries : List (Object × Object)) : List (Object × Object) :=
  Keyed.ofList sameKey entries

/-! ### Objects as they are bound -/

def scalarDatum (typeName label : String) (text : Except Failure String) : Datum :=
  .object typeName [] ⟨label, text⟩

mutual

/-- What binding finds an object to be. -/
def toDatum : Object → Datum
  | .none => .ofNature "NoneType" .none
  | .bool b => .ofNature "bool" (.bool b)
  | .int i => scalarDatum "int" "int" (intText i)
  | .float x => scalarDatum "float" "float" (.ok (Number.floatText x))
  | .decimal t => scalarDatum "Decimal" "decimal" (.ok t)
  | .date kind t => scalarDatum (typeName (.date kind t)) "date" (.ok t)
  | .text s => .ofNature "str" (.text s)
  | .bytes kind content => .ofNature (typeName (.bytes kind content)) (.bytes content)
  | .sequence .list items => .ofNature "list" (.sequence (itemsToData items))
  | .sequence .tuple items => .ofNature "tuple" (.sequence (itemsToData items))
  | .sequence .generator items => .ofNature "generator" (.sequence (itemsToData items))
  | .mapping .plain entries => .ofNature "dict" (.mapping (entriesToData entries))
  | .mapping .ordered entries => .ofNature "OrderedDict" (.mapping (entriesToData entries))
  | .dataclass typeName fields => .ofNature typeName (.dataclass (fieldsToData fields))
  | .lambda f => .ofNature "function" (.lambda f)
  | .bound v => .ofNature v.shape (.bound v)

def itemsToData : List Object → List Datum
  | [] => []
  | d :: rest => d.toDatum :: itemsToData rest

def entriesToData : List (Object × Object) → List (Except Failure String × Datum)
  | [] => []
  | (k, d) :: rest => (k.display, d.toDatum) :: entriesToData rest

def fieldsToData : List (String × Object) → List (String × Datum)
  | [] => []
  | (name, d) :: rest => (name, d.toDatum) :: fieldsToData rest

end

end Object

mutual

def Data.Document.toObject : Data.Document → Object
  | .null => .none
  | .bool b => .bool b
  | .int i => .int i
  | .float x => .float x
  | .text s => .text s
  | .date kind s => .date kind s
  | .list items => .sequence .list (itemsToObjects items)
  | .table entries => .mapping .plain (entriesToObjects entries)

def itemsToObjects : List Data.Document → List Object
  | [] => []
  | d :: rest => d.toObject :: itemsToObjects rest

def entriesToObjects : List (String × Data.Document) → List (Object × Object)
  | [] => []
  | (key, d) :: rest => (.text key, d.toObject) :: entriesToObjects rest

end

end Mustache
