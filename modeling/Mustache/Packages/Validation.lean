import Mustache.Config.Schema
import Mustache.Number.Literal

/-! The checks of single values by the package that the program is run with, and its report on
a table that does not pass. -/

namespace Mustache.Config

open Data Files

/-- What is wrong with a setting. -/
inductive Problem
  | notASequence | notAPath | notAText | notAnInteger | unreadableInteger | tooLongInteger
  | fractionalInteger | notFinite | tooSmall | tooLarge | notAChoice | notATable
deriving DecidableEq, Repr

def Problem.name : Problem → String
  | .notASequence => "tuple_type"
  | .notAPath => "path_type"
  | .notAText => "string_type"
  | .notAnInteger => "int_type"
  | .unreadableInteger => "int_parsing"
  | .tooLongInteger => "int_parsing_size"
  | .fractionalInteger => "int_from_float"
  | .notFinite => "finite_number"
  | .tooSmall => "greater_than"
  | .tooLarge => "less_than_equal"
  | .notAChoice => "enum"
  | .notATable => "model_type"

def Problem.alone (problem : Problem) : List Issue := [⟨[], problem.name⟩]

/-- The path of the setting and the name of what is wrong. -/
def Issue.text (issue : Issue) : String := ".".intercalate issue.place ++ ": " ++ issue.kind

def checkText : Document → Except Problem String
  | .text s => .ok s
  | _ => .error .notAText

/-- The text from the first digit other than zero on. Underscores may stand among the
zeros in front of it. If there is no such digit, the last zero stays, with the point
that may follow it. A text that starts with another digit or a minus stays as it is. -/
def dropZeros (text : List Char) : Option (List Char) :=
  let zeros := text.takeWhile fun c => c == '0' || c == '_'
  match text, text.drop zeros.length with
  | '0' :: _, [] => some (zeros.drop (zeros.length - 1))
  | '0' :: _, '.' :: places => some (zeros.drop (zeros.length - 1) ++ '.' :: places)
  | '0' :: _, c :: rest => if c.isDigit then some (c :: rest) else none
  | c :: _, _ => if c.isDigit || c == '-' then some text else none
  | [], _ => none

def dropZeroFraction (text : List Char) : List Char :=
  let whole := text.takeWhile (· != '.')
  match text.drop whole.length with
  | '.' :: '0' :: places => if places.all (· == '0') then whole else text
  | _ => text

/-- No underscore is followed by another one, and none is last. -/
def groupsDigits : List Char → Bool
  | [] => true
  | '_' :: c :: rest => c != '_' && groupsDigits (c :: rest)
  | c :: rest => c != '_' && groupsDigits rest

def dropUnderscores (text : List Char) : List Char :=
  if text.head? != some '_' && groupsDigits text then text.filter (· != '_') else text

/-- An integer without any ornament: digits, behind a minus if the integer is negative.
No zero stands in front of another digit. -/
def plainInteger (text : List Char) : Except Problem Int :=
  let (negative, digits) := match text with
    | '-' :: rest => (true, rest)
    | _ => (false, text)
  let run := digits.takeWhile Char.isDigit
  if run.head? = some '0' && 1 < run.length then .error .unreadableInteger
  else if Number.maxIntegerDigits < run.length then .error .tooLongInteger
  else if run.isEmpty || run.length < digits.length then .error .unreadableInteger
  else .ok (Number.signed negative (Number.decimalNumber run))

/-- An integer in a text: blanks around it, a sign, leading zeros behind a plus or no
sign, grouped digits and a fraction that is zero are allowed. -/
def integerOfText (s : String) : Except Problem Int :=
  let literal := match Text.trimBlanks s.toList with
    | '+' :: '-' :: _ => none
    | '+' :: rest => dropZeros rest
    | text => dropZeros text
  match literal with
  | none => .error .unreadableInteger
  | some literal => plainInteger (dropUnderscores (dropZeroFraction literal))

/-- The integer that a float is. Only those within 64 bits are taken. -/
def integerOfFloat (x : Float) : Except Problem Int :=
  if !x.isFinite then .error .notFinite
  else if x.floor != x then .error .fractionalInteger
  else if x.abs < 9223372036854775808.0 then
    .ok (Number.signed (x < 0) x.abs.toUInt64.toNat)
  else .error .tooLongInteger

/-- An integer; truth values count as one and zero. -/
def checkInteger : Document → Except Problem Int
  | .int i => .ok i
  | .bool b => .ok (if b then 1 else 0)
  | .float x => integerOfFloat x
  | .text s => integerOfText s
  | _ => .error .notAnInteger

def checkPositive (limit : Option Nat) (d : Document) : Except Problem Nat :=
  match checkInteger d with
  | .error problem => .error problem
  | .ok i =>
    if i ≤ 0 then .error .tooSmall
    else if limit.any fun n => (n : Int) < i then .error .tooLarge
    else .ok i.toNat

def checkChoice {α : Type} (choices : List α) (name : α → String) (d : Document) :
    Except Problem α :=
  match d with
  | .text s =>
    match choices.find? fun choice => name choice = s with
    | some choice => .ok choice
    | none => .error .notAChoice
  | _ => .error .notAChoice

/-- The directories of a list, or the issues with its elements from position `n` on. -/
def checkPaths (n : Nat) : List Document → Checked (List Path)
  | [] => .ok []
  | .text s :: rest => (checkPaths (n + 1) rest).map (Path.ofText s :: ·)
  | _ :: rest =>
    let issue : Issue := ⟨[toString n], Problem.notAPath.name⟩
    match checkPaths (n + 1) rest with
    | .ok _ => .error [issue]
    | .error issues => .error (issue :: issues)

def Checks.usual : Checks where
  paths
    | .list items => checkPaths 0 items
    | _ => .error Problem.notASequence.alone
  text d := (checkText d).mapError Problem.alone
  positive limit d := (checkPositive limit d).mapError Problem.alone
  level d :=
    (checkChoice [.debug, .info, .warning, .error] LogLevel.name d).mapError Problem.alone
  format d := (checkChoice [.json, .text] LogFormat.name d).mapError Problem.alone
  noTable _ := Problem.notATable.alone

/-- The check of a whole table. What is reported of an issue is its place and its kind. -/
def validate : Validator := fun table =>
  (Checks.usual.table table).mapError fun issues =>
    ⟨issues, "; ".intercalate (issues.map Issue.text)⟩

end Mustache.Config
