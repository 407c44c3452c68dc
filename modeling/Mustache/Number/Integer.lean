import Mustache.Text.Blank
import Mustache.Text.DecimalDigit

/-! Integer literals. Digits may be grouped by single underscores, which stand neither
first nor last; a sign may precede them and blanks may surround them. -/

namespace Mustache.Number

def maxIntegerDigits : Nat := 4300

/-- The values of the digits of a literal, given what counts as a digit. An underscore
has to stand between two digits; `afterDigit` says whether one has just been read. -/
def groupedDigits (value? : Char → Option Nat) (afterDigit : Bool) : List Char →
    Option (List Nat)
  | [] => if afterDigit then some [] else none
  | c :: rest =>
    if c == '_' then
      if afterDigit then groupedDigits value? false rest else none
    else match value? c with
      | some n => (groupedDigits value? true rest).map (n :: ·)
      | none => none

def ofDigits (base : Nat) (digits : List Nat) : Nat := digits.foldl (fun n d => base * n + d) 0

/-- A sign in front of a literal, and the rest; `true` stands for a minus. -/
def splitSign : List Char → Bool × List Char
  | '-' :: rest => (true, rest)
  | '+' :: rest => (false, rest)
  | text => (false, text)

def signed (negative : Bool) (n : Nat) : Int := if negative then -(n : Int) else n

/-- The integer that a text denotes, in decimal digits of any script. Literals that are
too long denote nothing. -/
def parseInteger? (text : List Char) : Option Int :=
  let (negative, rest) := splitSign (Text.trimBlanks text)
  (groupedDigits Text.digitValue? false rest).bind fun digits =>
    if maxIntegerDigits < digits.length then none else some (signed negative (ofDigits 10 digits))

def digit? (c : Char) : Option Nat :=
  if c.isDigit then some (c.toNat - 48)
  else if 'a' ≤ c && c ≤ 'f' then some (c.toNat - 87)
  else if 'A' ≤ c && c ≤ 'F' then some (c.toNat - 55)
  else none

def digitsIn? (base : Nat) (text : List Char) : Option (List Nat) :=
  if text.isEmpty then none
  else text.mapM fun c => (digit? c).bind fun n => if n < base then some n else none

def baseLetters : List (Nat × Char) := [(2, 'b'), (8, 'o'), (16, 'x')]

def behindBase (base : Nat) : List Char → List Char
  | '0' :: c :: digits =>
    if baseLetters.lookup base = some c.toLower then digits else '0' :: c :: digits
  | digits => digits

/-- The integer that a text denotes in a base that is a power of two. -/
def parseBased? (base : Nat) (text : List Char) : Option Int :=
  let (negative, rest) := splitSign (Text.trimBlanks text)
  (digitsIn? base (behindBase base rest)).map fun ds => signed negative (ofDigits base ds)

end Mustache.Number
