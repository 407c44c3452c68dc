import Mustache.Number.Literal

/-! Dates and times of day: which of them there are, and how they are written. -/

namespace Mustache.Data

structure Day where
  year : Nat
  month : Nat
  day : Nat
deriving DecidableEq, Repr

structure Hour where
  hour : Nat
  minute : Nat
  second : Nat
  micros : Nat
deriving DecidableEq, Repr

/-- The distance of a local time from universal time. -/
structure Offset where
  behind : Bool
  minutes : Nat
deriving DecidableEq, Repr

namespace Calendar

def isLeapYear (year : Nat) : Bool := year % 4 == 0 && (year % 100 != 0 || year % 400 == 0)

def daysIn (year month : Nat) : Nat :=
  if month == 2 then if isLeapYear year then 29 else 28
  else if [4, 6, 9, 11].contains month then 30 else 31

def twoDigits (n : Nat) : String := Number.padZeros 2 (toString n)

/-- The millionths of a second that the digits behind a point denote. Further digits are
cut off. -/
def microsOf (digits : List Char) : Nat :=
  Number.decimalNumber ((digits ++ List.replicate 6 '0').take 6)

end Calendar

open Calendar

def Day.isReal (d : Day) : Bool :=
  1 ≤ d.year && 1 ≤ d.month && d.month ≤ 12 && 1 ≤ d.day && d.day ≤ daysIn d.year d.month

def Day.number (d : Day) : Nat :=
  let years := d.year - 1
  365 * years + years / 4 - years / 100 + years / 400
    + (List.range (d.month - 1)).foldl (fun days m => days + daysIn d.year (m + 1)) d.day

def Day.text (d : Day) : String :=
  Number.padZeros 4 (toString d.year) ++ "-" ++ twoDigits d.month ++ "-" ++ twoDigits d.day

/-- Whether clocks show the time. -/
def Hour.isReal (h : Hour) : Bool := h.hour < 24 && h.minute < 60 && h.second < 60

def Hour.text (h : Hour) : String :=
  twoDigits h.hour ++ ":" ++ twoDigits h.minute ++ ":" ++ twoDigits h.second
    ++ if h.micros = 0 then "" else "." ++ Number.padZeros 6 (toString h.micros)

/-- Whether the distance is less than a day. -/
def Offset.isReal (o : Offset) : Bool := o.minutes < 24 * 60

def Offset.text (o : Offset) : String :=
  (if o.behind && o.minutes != 0 then "-" else "+") ++ twoDigits (o.minutes / 60) ++ ":"
    ++ twoDigits (o.minutes % 60)

/-- A day and a time of day, which may be known to be local. -/
def momentText (d : Day) (h : Hour) (offset : Option Offset) : String :=
  d.text ++ " " ++ h.text ++ (offset.map Offset.text).getD ""

end Mustache.Data
