import GraphRequest.Decimal.Basic

/-!
# Shortest decimals of binary fractions

A binary fraction of double precision is a natural number below `2 ^ 53` times a power of two.
`nearest` rounds a ratio to such a fraction, ties to the even neighbour, in exact arithmetic.
`shortest` names the fraction by the fewest decimal digits that round back to it, and among those
by the decimal nearest to it.
-/

namespace GraphRequest

namespace Decimal

/-- The fraction `mantissa · 2 ^ exponent`. -/
structure Binary where
  mantissa : Nat
  exponent : Int
deriving DecidableEq, Inhabited, Repr

/-- The ratio `n · base ^ exponent`, as numerator and denominator. -/
def scaled (n base : Nat) (exponent : Int) : Nat × Nat :=
  if exponent < 0 then (n, base.pow exponent.natAbs) else (n * base.pow exponent.natAbs, 1)

/-- The quotient rounded to the nearest natural number, a tie to the even one. -/
def roundDiv (num den : Nat) : Nat :=
  let q := num / den
  let r := num % den
  if 2 * r < den then q else if den < 2 * r then q + 1 else if q % 2 = 0 then q else q + 1

/-- The greatest power of `base` that is at most `num / den`, given an estimate that is the
power or one above it. -/
def floorPower (base num den : Nat) (estimate : Int) : Int :=
  let (n, d) := scaled 1 base estimate
  if n * den ≤ num * d then estimate else estimate - 1

/-- The number of mantissas of double precision, `2 ^ 53`. -/
def mantissaLimit : Nat := 9007199254740992

/-- The exponent of the fractions whose last place is 52 places below their first one. The least
exponent is -1074. -/
def exponentBelow (top : Int) : Int := if top - 52 < -1074 then -1074 else top - 52

/-- The fraction of double precision nearest to a ratio; none beyond the largest one. -/
def nearest (num den : Nat) : Option Binary :=
  if num = 0 then some ⟨0, 0⟩
  else
    let top := floorPower 2 num den ((num.log2 : Int) - den.log2)
    let exponent := exponentBelow top
    let (n, d) := scaled 1 2 exponent
    let mantissa := roundDiv (num * d) (den * n)
    let fraction := if mantissa = mantissaLimit then Binary.mk (mantissaLimit / 2) (exponent + 1)
      else Binary.mk mantissa exponent
    if 971 < fraction.exponent then none
    else if fraction.mantissa = 0 then some ⟨0, 0⟩
    else some fraction

/-- The fraction nearest to a decimal, its sign apart. -/
def toBinary (d : Decimal) : Option Binary :=
  let (num, den) := scaled d.digits 10 d.exponent
  nearest num den

/-- Digits without trailing zeros, each of them moved into the exponent. -/
def trimmed : Nat → Nat → Int → Decimal
  | 0, digits, exponent => ⟨false, digits, exponent⟩
  | fuel + 1, digits, exponent =>
    if digits ≠ 0 && digits % 10 = 0 then trimmed fuel (digits / 10) (exponent + 1)
    else ⟨false, digits, exponent⟩

/-- The decimals with the given last place next to `num / den`, nearer one first, a tie to the even
one. -/
def neighbours (num den : Nat) (place : Int) : List Decimal :=
  let (n, d) := scaled 1 10 place
  let below := num * d / (den * n)
  let first := roundDiv (num * d) (den * n)
  let second := if first = below then below + 1 else below
  [⟨false, first, place⟩, ⟨false, second, place⟩]

/-- The neighbours at a given number of digits that round back to the fraction. -/
def candidates (b : Binary) (num den : Nat) (top : Int) (count : Nat) : List Decimal :=
  (neighbours num den (top - count + 1)).filter fun d => d.toBinary == some b

/-- The shortest decimal that rounds to the fraction. -/
def shortest (b : Binary) : Decimal :=
  if b.mantissa = 0 then ⟨false, 0, 0⟩
  else
    let (num, den) := scaled b.mantissa 2 b.exponent
    let top := floorPower 10 num den
      (((digitChars num).length : Int) - (digitChars den).length)
    match (List.range' 1 17).findSome? fun count => (candidates b num den top count).head? with
    | some d => trimmed 17 d.digits d.exponent
    | none => ⟨false, b.mantissa, b.exponent⟩

/-- The shortest decimal that names the same binary fraction as a given decimal. -/
def canonical (d : Decimal) : Option Decimal :=
  d.toBinary.map fun b => { shortest b with negative := d.negative }

/-- The shortest decimal of the binary fraction nearest to a ratio. -/
def ofRatio (negative : Bool) (num den : Nat) : Option Decimal :=
  (nearest num den).map fun b => { shortest b with negative }

/-- The exact value of the binary fraction that a decimal names. -/
def exact (d : Decimal) : Rat :=
  match d.toBinary with
  | some b =>
    let (num, den) := scaled b.mantissa 2 b.exponent
    mkRat (if d.negative then -(num : Int) else num) den
  | none => 0

example : (Decimal.mk false 3 (-1)).canonical = some ⟨false, 3, -1⟩ := by decide +kernel
example : ofRatio false 1 1000 = some ⟨false, 1, -3⟩ := by decide +kernel
example : (Decimal.mk false 5 (-324)).canonical = some ⟨false, 5, -324⟩ := by decide +kernel

end Decimal

end GraphRequest
