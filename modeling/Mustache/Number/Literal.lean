import Mustache.Number.Integer
import Mustache.Number.Shortest

/-! Decimal literals of floats. A sign may stand in front, and infinity and the value
that is no number have names. Before a literal is read its digits of other scripts and
the underscores between its digits are made plain. -/

namespace Mustache.Number

def decimalNumber (digits : List Char) : Nat :=
  digits.foldl (fun n c => 10 * n + (c.toNat - 48)) 0

/-- The power of ten behind a number, or none, and the rest of the text. -/
def exponent (text : List Char) : Option Int × List Char :=
  match text with
  | e :: rest =>
    if e == 'e' || e == 'E' then
      let (negative, digits) := splitSign rest
      match digits.span Char.isDigit with
      | ([], _) => (none, text)
      | (ds, behind) => (some (signed negative (decimalNumber ds)), behind)
    else (none, text)
  | [] => (none, [])

/-- The names of the sizes that are no decimals; a longer name comes before its
beginnings. -/
def namedSizes : List (String × Float) :=
  [("infinity", 1.0 / 0.0), ("inf", 1.0 / 0.0), ("nan", 0.0 / 0.0)]

/-- The named size at the start of a text, in letters of either case. -/
def namedSize? (text : List Char) : Option (Float × List Char) :=
  namedSizes.findSome? fun (name, x) =>
    if name.toList.isPrefixOf (text.map Char.toLower) then some (x, text.drop name.length)
    else none

/-- The decimal at the start of a text: digits around a point, and a power of ten. -/
def decimalSize? (negative : Bool) (text : List Char) : Option (Float × List Char) :=
  let (whole, rest) := text.span Char.isDigit
  let (places, rest) := match rest with
    | '.' :: more => more.span Char.isDigit
    | _ => ([], rest)
  if whole.isEmpty && places.isEmpty then none
  else
    let (power, behind) := exponent rest
    some (floatOfDecimal negative (decimalNumber (whole ++ places))
      (power.getD 0 - places.length), behind)

def floatAhead? (text : List Char) : Option (Float × List Char) :=
  let (negative, size) := splitSign text
  match namedSize? size with
  | some (x, rest) => some (if negative then -x else x, rest)
  | none => decimalSize? negative size

def plainDigit (c : Char) : Char :=
  match Text.digitValue? c with
  | some n => Nat.digitChar n
  | none => c

/-- A text without underscores, each of which has to stand between two digits;
`afterDigit` says whether the character before the text is one. -/
def ungroup (afterDigit : Bool) : List Char → Option (List Char)
  | [] => some []
  | '_' :: c :: rest =>
    if afterDigit && c.isDigit then (ungroup true rest).map (c :: ·) else none
  | '_' :: [] => none
  | c :: rest => (ungroup c.isDigit rest).map (c :: ·)

def plainLiteral? (text : List Char) : Option (List Char) :=
  ungroup false ((Text.trimBlanks text).map plainDigit)

def floatOfText? (text : List Char) : Option Float :=
  ((plainLiteral? text).bind floatAhead?).bind fun (x, rest) =>
    if rest.isEmpty then some x else none

/-- The rest of a text behind the `j` that marks a number as imaginary. -/
def behindUnit? : List Char → Option (List Char)
  | c :: rest => if c == 'j' || c == 'J' then some rest else none
  | [] => none

def behindImaginary? (text : List Char) : Option (List Char) :=
  match floatAhead? text with
  | some (_, rest) => behindUnit? rest
  | none => behindUnit? (splitSign text).2

/-- Whether a whole text denotes a number, real or complex. -/
def isNumber (text : List Char) : Bool :=
  match plainLiteral? text with
  | none => false
  | some literal =>
    let rest := match floatAhead? literal with
      | some (_, []) => some []
      | some (_, c :: rest) =>
        if c == '+' || c == '-' then behindImaginary? (c :: rest) else behindUnit? (c :: rest)
      | none => behindImaginary? literal
    rest == some []

end Mustache.Number
