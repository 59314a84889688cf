import ShaderMachine.Decimal.FloatFormat

/-! # Decimals that name a float

A decimal names the float nearest to it. The shortest decimal that names a given float has the
fewest digits, and of those with the fewest digits it is the nearest one, the larger of two that
are equally near.

**`Decimal`** is a natural coefficient and a power of ten; **`Decimal.magnitude`** is the float
it names; **`Decimal.shortest`** is the shortest decimal that names a float. -/

namespace ShaderMachine

-- Powers are those that numbers come with, whatever else defines powers.
attribute [local instance (high)] instPowNat

/-- The number `digits * 10 ^ exponent`. -/
structure Decimal where
  /-- The coefficient. -/
  digits : Nat
  /-- The power of ten. -/
  exponent : Int
  deriving DecidableEq, Repr

/-- The number of decimal digits of a natural number; zero has one. -/
def decimalLength (n : Nat) : Nat :=
  (Nat.toDigits 10 n).length

namespace Decimal

/-- A decimal as a numerator and a denominator. -/
def ratio (decimal : Decimal) : Nat × Nat :=
  (decimal.digits * 10 ^ decimal.exponent.toNat, 10 ^ (-decimal.exponent).toNat)

/-- The number of places before the point, negative if the number is below a tenth. -/
def order (decimal : Decimal) : Int :=
  decimalLength decimal.digits + decimal.exponent

/-- The pattern of the magnitude that a decimal names.

Orders at which every number is too large or too small for the format are decided without
computing the power of ten. -/
def magnitude (format : FloatFormat) (decimal : Decimal) : Nat :=
  if decimal.digits = 0 then
    0
  else if 2 ^ (format.exponentBits - 1) < decimal.order then
    format.infinity
  else if decimal.order < -(2 ^ (format.exponentBits - 1) + format.fractionBits) then
    0
  else
    format.roundRatio decimal.ratio.1 decimal.ratio.2

/-- The decimal without zeros at the end of its coefficient. -/
def strip (decimal : Decimal) : Decimal :=
  let kept := (Nat.toDigits 10 decimal.digits).reverse.dropWhile (· == '0')
  let dropped := decimalLength decimal.digits - kept.length
  ⟨decimal.digits / 10 ^ dropped, decimal.exponent + dropped⟩

/-- The decimal that equals `significand * 2 ^ exponent`. -/
def exact (significand : Nat) (exponent : Int) : Decimal :=
  if 0 ≤ exponent then
    ⟨significand * 2 ^ exponent.toNat, 0⟩
  else
    ⟨significand * 5 ^ (-exponent).toNat, exponent⟩

/-- The decimal order of a positive ratio: it lies below ten to this power and not below a tenth
of that. -/
def orderOfRatio (numerator denominator : Nat) : Int :=
  let guess : Int := decimalLength numerator - decimalLength denominator
  if numerator * 10 ^ (-guess).toNat < denominator * 10 ^ guess.toNat then guess else guess + 1

/-- Of the two multiples of `10 ^ exponent` around a ratio, the one that names the float with the
pattern `magnitude`; of two the nearer one. -/
def onGrid? (format : FloatFormat) (magnitude numerator denominator : Nat) (exponent : Int) :
    Option Decimal :=
  let scaledNumerator := numerator * 10 ^ (-exponent).toNat
  let scaledDenominator := denominator * 10 ^ exponent.toNat
  let below := scaledNumerator / scaledDenominator
  let remainder := scaledNumerator % scaledDenominator
  let lower : Decimal := ⟨below, exponent⟩
  let upper : Decimal := ⟨below + 1, exponent⟩
  match lower.magnitude format == magnitude, upper.magnitude format == magnitude with
  | true, true => if 2 * remainder < scaledDenominator then some lower else some upper
  | true, false => some lower
  | false, true => some upper
  | false, false => none

/-- The shortest decimal that names the float with the pattern `magnitude`, which must be finite
and not zero.

Coefficients of one digit are tried first, then of two, up to the seventeen that always suffice
for these formats; the exact value stands last, so that the answer names the float whatever the
format is. -/
def shortest (format : FloatFormat) (magnitude : Nat) : Decimal :=
  let (significand, exponent) := format.unpack magnitude
  let numerator := significand * 2 ^ exponent.toNat
  let denominator := 2 ^ (-exponent).toNat
  let order := orderOfRatio numerator denominator
  let found := (List.range 17).findSome? fun count =>
    onGrid? format magnitude numerator denominator (order - (count + 1 : Nat))
  (found.getD (exact significand exponent)).strip

end Decimal

end ShaderMachine
