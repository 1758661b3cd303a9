/-!
# Decimal fractions

A decimal fraction is a sign, a natural number of digits and a power of ten. `Decimal.text` writes
it positionally when its first digit stands between the fifth place after the point and the
sixteenth place before it, and in scientific notation otherwise.

-/

namespace GraphRequest

/-- The fraction `digits · 10 ^ exponent`, negated when `negative` is set. -/
structure Decimal where
  negative : Bool
  digits : Nat
  exponent : Int
deriving DecidableEq, Inhabited, Repr

namespace Decimal

/-- The decimal digits of a natural number, first digit first. -/
def digitChars (n : Nat) : List Char := Nat.toDigits 10 n

/-- The text of an integer. -/
def integerText (n : Int) : String :=
  String.ofList (if n < 0 then '-' :: digitChars n.natAbs else digitChars n.natAbs)

/-- Whether the fraction is written without an exponent: its first digit has a place value
between `10 ^ (-4)` and `10 ^ 15`. -/
def isPositional (place : Int) : Bool := -4 ≤ place && place < 16

/-- The digits with a point after `whole` of them, filled up with zeros on either side; at least
one digit stands on each side of the point. -/
def pointed (ds : List Char) (whole : Int) : List Char :=
  if whole ≤ 0 then '0' :: '.' :: (List.replicate whole.natAbs '0' ++ ds)
  else
    let n := whole.toNat
    if ds.length ≤ n then ds ++ List.replicate (n - ds.length) '0' ++ ['.', '0']
    else ds.take n ++ '.' :: ds.drop n

/-- Scientific notation: one digit before the point, and an exponent with a sign and at least two
digits. -/
def scientific (ds : List Char) (place : Int) : List Char :=
  let mantissa := match ds with
    | d :: e :: rest => d :: '.' :: e :: rest
    | _ => ds
  let power := digitChars place.natAbs
  let filled := if power.length < 2 then '0' :: power else power
  mantissa ++ 'e' :: (if place < 0 then '-' else '+') :: filled

/-- The characters of the fraction, its sign apart. -/
def unsignedChars (d : Decimal) : List Char :=
  let ds := digitChars d.digits
  let whole := if d.digits = 0 then 1 else (ds.length : Int) + d.exponent
  if isPositional (whole - 1) then pointed ds whole else scientific ds (whole - 1)

/-- The text of a decimal fraction. -/
def text (d : Decimal) : String :=
  String.ofList (if d.negative then '-' :: d.unsignedChars else d.unsignedChars)

theorem toList_integerText {n : Int} (h : 0 ≤ n) :
    (integerText n).toList = digitChars n.natAbs := by
  have hn : ¬ n < 0 := by omega
  rw [integerText, if_neg hn, String.toList_ofList]

example : (Decimal.mk false 5 (-1)).text = "0.5" := by decide +kernel
example : (Decimal.mk true 0 0).text = "-0.0" := by decide +kernel
example : (Decimal.mk false 1 16).text = "1e+16" := by decide +kernel
example : (Decimal.mk false 25 (-9)).text = "2.5e-08" := by decide +kernel
example : (Decimal.mk false 123 (-6)).text = "0.000123" := by decide +kernel

end Decimal

end GraphRequest
