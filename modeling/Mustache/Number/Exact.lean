import Mustache.Number.Shortest

/-! Exact numbers. Integers, binary floats and decimals are all of the form
`mantissa * 2 ^ twos * 5 ^ fives`. With the factors of two and five taken out of the
mantissa the form is unique, so numbers of different kinds are compared without
computing a power. -/

namespace Mustache.Number

/-- The number `mantissa * 2 ^ twos * 5 ^ fives`. -/
structure Exact where
  mantissa : Int
  twos : Int
  fives : Int
deriving DecidableEq, Repr

namespace Exact

/-- Takes a factor out of a positive number as often as it divides it. -/
def strip (factor n : Nat) : Nat × Nat :=
  if h : 1 < factor ∧ 0 < n ∧ n % factor = 0 then
    have : n / factor < n := Nat.div_lt_self h.2.1 h.1
    let (rest, count) := strip factor (n / factor)
    (rest, count + 1)
  else (n, 0)
termination_by n

/-- The unique form: the mantissa has no factor of ten, and zero has no exponents. -/
def normal (x : Exact) : Exact :=
  if x.mantissa = 0 then ⟨0, 0, 0⟩
  else
    let (odd, twos) := strip 2 x.mantissa.natAbs
    let (rest, fives) := strip 5 odd
    ⟨x.mantissa.sign * rest, x.twos + twos, x.fives + fives⟩

def ofInt (n : Int) : Exact := normal ⟨n, 0, 0⟩

/-- A decimal: its digits as an integer, and the power of ten. -/
def ofDecimal (digits exponent : Int) : Exact := normal ⟨digits, exponent, exponent⟩

def ofFloat? (x : Float) : Option Exact :=
  if x.isFinite then
    match Binary.ofFloat? x with
    | some b =>
      let sign : Int := if x < 0 then -1 else 1
      some (normal ⟨sign * b.mantissa, b.exponent, 0⟩)
    | none => some ⟨0, 0, 0⟩
  else none

end Exact

end Mustache.Number
