/-! Shortest decimals. A finite binary number is written with the fewest decimal
digits that read back as the same number, and of those the nearest one. The digits
are found in exact arithmetic on natural numbers: on the grid of `n`-digit decimals
only the two neighbours of the value can lie in the interval of reals that round to
it, so the first `n` with a hit is the least. How the digits are laid out is a
separate record. -/

namespace Mustache.Number

/-- The positive value `mantissa * 2 ^ exponent` of a binary format, together with
whether the number below it is only half as far away as the number above. -/
structure Binary where
  mantissa : Nat
  exponent : Int
  narrowBelow : Bool
deriving DecidableEq, Repr

/-- The magnitude of a finite double, or `none` for zero, an infinity or no number. -/
def Binary.ofFloat? (x : Float) : Option Binary :=
  let bits := x.toBits.toNat
  let fraction := bits % Nat.pow 2 52
  let biased : Nat := bits / Nat.pow 2 52 % Nat.pow 2 11
  if biased = 2047 then none
  else if biased = 0 then
    if fraction = 0 then none else some ⟨fraction, -1074, false⟩
  else some ⟨Nat.pow 2 52 + fraction, Int.ofNat biased - 1075, fraction = 0 && biased != 1⟩

/-- A value, the two ends of the interval of reals that round to it, all over one
denominator, and whether the ends belong to the interval. -/
structure Rounding where
  value : Nat
  low : Nat
  high : Nat
  denominator : Nat
  closed : Bool
deriving DecidableEq, Repr

def Binary.rounding (b : Binary) : Rounding :=
  let scale := Nat.pow 2 (b.exponent - 2).toNat
  ⟨4 * b.mantissa * scale, (4 * b.mantissa - if b.narrowBelow then 1 else 2) * scale,
    (4 * b.mantissa + 2) * scale, Nat.pow 2 (2 - b.exponent).toNat, b.mantissa % 2 = 0⟩

/-- The decimal `digits * 10 ^ exponent`. -/
structure Decimal where
  digits : Nat
  exponent : Int
deriving DecidableEq, Repr

namespace Rounding

/-- The numerator of a decimal once it and the interval stand over one denominator. -/
def scaled (r : Rounding) (d : Decimal) : Nat :=
  d.digits * Nat.pow 10 d.exponent.toNat * r.denominator

def factor (d : Decimal) : Nat := Nat.pow 10 (-d.exponent).toNat

def holds (r : Rounding) (d : Decimal) : Bool :=
  let x := r.scaled d
  let low := r.low * factor d
  let high := r.high * factor d
  if r.closed then low ≤ x && x ≤ high else low < x && x < high

/-- Twice the distance of the decimal from the value. -/
def distance (r : Rounding) (d : Decimal) : Nat :=
  let x := r.scaled d
  let v := r.value * factor d
  (x - v) + (v - x)

/-- The decimal with the given exponent next to the value from below. -/
def floor (r : Rounding) (exponent : Int) : Decimal :=
  let unit := r.denominator * Nat.pow 10 exponent.toNat
  ⟨r.value * Nat.pow 10 (-exponent).toNat / unit, exponent⟩

/-- The better of the two neighbours on a grid, if one lies in the interval. A tie
goes to the even digit. -/
def onGrid? (r : Rounding) (exponent : Int) : Option Decimal :=
  let below := r.floor exponent
  let above : Decimal := ⟨below.digits + 1, exponent⟩
  match r.holds below && below.digits != 0, r.holds above with
  | true, true =>
    if r.distance below < r.distance above then some below
    else if r.distance above < r.distance below then some above
    else if below.digits % 2 = 0 then some below else some above
  | true, false => some below
  | false, true => some above
  | false, false => none

/-- The number of decimal places in front of the point, negative for the zeros that
follow it; at most `fuel` of those are counted. -/
def magnitude (r : Rounding) : Int :=
  let whole := r.value / r.denominator
  if whole = 0 then 1 - leadingZeros 400 (10 * r.value) else (Nat.toDigits 10 whole).length
where
  leadingZeros : Nat → Nat → Int
    | 0, _ => 0
    | fuel + 1, v => if r.denominator ≤ v then 1 else 1 + leadingZeros fuel (10 * v)

end Rounding

/-- Drops trailing zeros from the digits; `fuel` bounds their number. -/
def Decimal.trim : Nat → Decimal → Decimal
  | 0, d => d
  | fuel + 1, d =>
    if d.digits % 10 = 0 then trim fuel ⟨d.digits / 10, d.exponent + 1⟩ else d

/-- The shortest decimal that reads back as the value: seventeen digits always do. -/
def Binary.shortest (b : Binary) : Decimal :=
  let r := b.rounding
  let places := r.magnitude
  let found := (List.range' 1 17).findSome? fun (n : Nat) => r.onGrid? (places - n)
  (found.getD (r.floor (places - 17))).trim 20

/-- How a decimal is laid out: positionally while its leading digit stands at one of
the powers of ten from `lowest` up to but not including `highest`, else with an
exponent of at least `exponentWidth` digits. -/
structure Layout where
  lowest : Int
  highest : Int
  exponentWidth : Nat
  infinity : String
  noNumber : String
deriving DecidableEq, Repr

def padZeros (width : Nat) (digits : String) : String :=
  "".pushn '0' (width - digits.length) ++ digits

namespace Layout

/-- The digits with the point behind the first `places` of them; a number without a
fraction ends in `.0`. -/
def positional (digits : String) (places : Int) : String :=
  if places ≤ 0 then "0." ++ "".pushn '0' (-places).toNat ++ digits
  else if (digits.length : Int) ≤ places then
    digits.pushn '0' (places.toNat - digits.length) ++ ".0"
  else (digits.take places.toNat).toString ++ "." ++ (digits.drop places.toNat).toString

/-- One digit in front of the point, and the power of ten with its sign. -/
def scientific (layout : Layout) (digits : String) (power : Int) : String :=
  let tail := (digits.drop 1).toString
  let fraction := if tail.isEmpty then "" else "." ++ tail
  let sign := if power < 0 then "-" else "+"
  (digits.take 1).toString ++ fraction ++ "e" ++ sign
    ++ padZeros layout.exponentWidth (toString power.natAbs)

def decimal (layout : Layout) (d : Decimal) : String :=
  let digits := toString d.digits
  let power := d.exponent + digits.length - 1
  if layout.lowest ≤ power && power < layout.highest then positional digits (power + 1)
  else layout.scientific digits power

/-- The text of a double. -/
def float (layout : Layout) (x : Float) : String :=
  let negative := x.toBits.toNat / Nat.pow 2 63 = 1
  if x.isNaN then layout.noNumber
  else
    let sign := if negative then "-" else ""
    match Binary.ofFloat? x with
    | some b => sign ++ layout.decimal b.shortest
    | none => sign ++ if x.isInf then layout.infinity else "0.0"

end Layout

/-- Numbers in rendered text: positional from 0.0001 up to below 10^16. -/
def floatLayout : Layout := ⟨-4, 16, 2, "inf", "nan"⟩

def floatText (x : Float) : String := floatLayout.float x

/-- The double nearest to `±digits * 10 ^ exponent`. Exponents that leave the range
of doubles anyway are cut off before any power is taken. -/
def floatOfDecimal (negative : Bool) (digits : Nat) (exponent : Int) : Float :=
  let size := (Nat.toDigits 10 digits).length
  let magnitude :=
    if digits = 0 then 0.0
    else if 400 < exponent + size then 1.0 / 0.0
    else if exponent + size < -400 then 0.0
    else Float.ofScientific digits (exponent < 0) exponent.natAbs
  if negative then -magnitude else magnitude

end Mustache.Number
