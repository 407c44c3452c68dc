import Mustache.Data.Calendar
import Mustache.Data.Document

/-! Dates and times in TOML. A day may be followed by a time of day, and that by its
distance from universal time; a time of day may also stand alone. -/

namespace Mustache.Data.Toml

def twoDigits? (low high : Nat) : List Char → Option (Nat × List Char)
  | a :: b :: rest =>
    let n := Number.decimalNumber [a, b]
    if a.isDigit && b.isDigit && low ≤ n && n ≤ high then some (n, rest) else none
  | _ => none

def twoDigitsBehind? (sign : Char) (low high : Nat) : List Char → Option (Nat × List Char)
  | c :: rest => if c == sign then twoDigits? low high rest else none
  | [] => none

def fraction : List Char → List Char × List Char
  | '.' :: rest =>
    match rest.span Char.isDigit with
    | ([], _) => ([], '.' :: rest)
    | found => found
  | text => ([], text)

/-- A time of day. -/
def hour? (text : List Char) : Option (Hour × List Char) := do
  let (hour, rest) ← twoDigits? 0 23 text
  let (minute, rest) ← twoDigitsBehind? ':' 0 59 rest
  let (second, rest) ← twoDigitsBehind? ':' 0 59 rest
  let (digits, rest) := fraction rest
  return (⟨hour, minute, second, Calendar.microsOf digits⟩, rest)

/-- A day, which the calendar need not have. -/
def day? (text : List Char) : Option (Day × List Char) := do
  let (century, rest) ← twoDigits? 0 99 text
  let (year, rest) ← twoDigits? 0 99 rest
  let (month, rest) ← twoDigitsBehind? '-' 1 12 rest
  let (day, rest) ← twoDigitsBehind? '-' 1 31 rest
  return (⟨100 * century + year, month, day⟩, rest)

/-- A distance from universal time: hours and minutes behind a sign, or the letter for
none. -/
def offset? : List Char → Option (Offset × List Char)
  | c :: rest =>
    if c == 'Z' || c == 'z' then some (⟨false, 0⟩, rest)
    else if c == '+' || c == '-' then do
      let (hours, rest) ← twoDigits? 0 23 rest
      let (minutes, rest) ← twoDigitsBehind? ':' 0 59 rest
      return (⟨c == '-', 60 * hours + minutes⟩, rest)
    else none
  | [] => none

/-- The time of day behind a day, after a letter or a space. -/
def hourBehind? : List Char → Option (Hour × List Char)
  | c :: rest => if c == 'T' || c == 't' || c == ' ' then hour? rest else none
  | [] => none

/-- A date at the start of a text. A day that the calendar does not have is an error. -/
def date? (text : List Char) : Option (Except ReadFailure (Document × List Char)) :=
  match day? text with
  | some (day, rest) =>
    if !day.isReal then some (.error .malformed)
    else match hourBehind? rest with
      | none => some (.ok (.date .day day.text, rest))
      | some (hour, rest) =>
        match offset? rest with
        | none => some (.ok (.date .moment (momentText day hour none), rest))
        | some (offset, rest) =>
          some (.ok (.date .moment (momentText day hour (some offset)), rest))
  | none => (hour? text).map fun (hour, rest) => .ok (.date .hour hour.text, rest)

end Mustache.Data.Toml
