/-! # Binary floats as bit patterns

The interchange formats of binary floats: a sign bit, a biased exponent and a fraction. Rounding
is done on exact ratios of naturals, to the nearest value with ties to the even one.

**`FloatFormat`** gives the two field widths, with **`FloatFormat.single`** and
**`FloatFormat.double`**; **`FloatFormat.roundRatio`** is the magnitude nearest to a ratio;
**`FloatFormat.classify`** reads a bit pattern. -/

namespace ShaderMachine

-- Powers are those that numbers come with, whatever else defines powers.
attribute [local instance (high)] instPowNat

/-- An interchange format of binary floats. -/
structure FloatFormat where
  /-- The number of fraction bits. -/
  fractionBits : Nat
  /-- The number of exponent bits. -/
  exponentBits : Nat
  deriving DecidableEq, Repr

/-- What a bit pattern stands for. -/
inductive FloatClass where
  /-- The number `significand * 2 ^ exponent` with a sign. -/
  | finite (negative : Bool) (significand : Nat) (exponent : Int)
  /-- An infinity. -/
  | infinite (negative : Bool)
  /-- Not a number. -/
  | nan
  deriving DecidableEq, Repr

/-- A ratio divided by a power of two, as a numerator and a denominator. -/
def dividePowerOfTwo (numerator denominator : Nat) (exponent : Int) : Nat × Nat :=
  (numerator * 2 ^ (-exponent).toNat, denominator * 2 ^ exponent.toNat)

/-- The natural number nearest to a ratio, the even one of two that are equally near. -/
def roundHalfEven (numerator denominator : Nat) : Nat :=
  let quotient := numerator / denominator
  let twice := 2 * (numerator % denominator)
  if twice < denominator ∨ (twice = denominator ∧ quotient % 2 = 0) then quotient
  else quotient + 1

namespace FloatFormat

/-- The format of 32 bits. -/
def single : FloatFormat := ⟨23, 8⟩

/-- The format of 64 bits. -/
def double : FloatFormat := ⟨52, 11⟩

/-- The exponent of the least positive value. -/
def leastExponent (format : FloatFormat) : Int :=
  2 - 2 ^ (format.exponentBits - 1) - format.fractionBits

/-- The pattern of the sign bit alone. -/
def signBit (format : FloatFormat) : Nat :=
  2 ^ (format.exponentBits + format.fractionBits)

/-- The pattern of the positive infinity. -/
def infinity (format : FloatFormat) : Nat :=
  (2 ^ format.exponentBits - 1) * 2 ^ format.fractionBits

/-- The pattern of the quiet not-a-number without a payload. -/
def quietNan (format : FloatFormat) : Nat :=
  format.infinity + 2 ^ (format.fractionBits - 1)

/-- The power of two at or below a positive ratio, as its exponent. -/
def binaryOrder (numerator denominator : Nat) : Int :=
  let guess : Int := numerator.log2 - denominator.log2
  let (scaledNumerator, scaledDenominator) := dividePowerOfTwo numerator denominator guess
  if scaledNumerator < scaledDenominator then guess - 1 else guess

/-- The pattern of the positive value nearest to a ratio, the even one of two that are equally
near; what is too large becomes the infinity.

The last place has the exponent `unit`. Counting patterns up from the first one with that unit
gives the same pattern for a significand with and without its leading bit, and carries into the
exponent when rounding fills the significand. -/
def roundRatio (format : FloatFormat) (numerator denominator : Nat) : Nat :=
  if numerator = 0 then
    0
  else
    let unit :=
      max (binaryOrder numerator denominator - format.fractionBits) format.leastExponent
    let (scaledNumerator, scaledDenominator) := dividePowerOfTwo numerator denominator unit
    min format.infinity
      ((unit - format.leastExponent).toNat * 2 ^ format.fractionBits +
        roundHalfEven scaledNumerator scaledDenominator)

/-- Put a sign on the pattern of a magnitude. -/
def withSign (format : FloatFormat) (negative : Bool) (magnitude : Nat) : Nat :=
  if negative then format.signBit + magnitude else magnitude

/-- The pattern nearest to an integer. -/
def ofInt (format : FloatFormat) (value : Int) : Nat :=
  format.withSign (value < 0) (format.roundRatio value.natAbs 1)

/-- The significand and exponent of a pattern without a sign. -/
def unpack (format : FloatFormat) (magnitude : Nat) : Nat × Int :=
  let biased := magnitude / 2 ^ format.fractionBits
  let fraction := magnitude % 2 ^ format.fractionBits
  if biased = 0 then
    (fraction, format.leastExponent)
  else
    (2 ^ format.fractionBits + fraction, format.leastExponent + (biased - 1 : Nat))

/-- What a bit pattern stands for. -/
def classify (format : FloatFormat) (bits : Nat) : FloatClass :=
  let negative := decide (format.signBit ≤ bits)
  let magnitude := bits % format.signBit
  if magnitude < format.infinity then
    let (significand, exponent) := format.unpack magnitude
    .finite negative significand exponent
  else if magnitude = format.infinity then
    .infinite negative
  else
    .nan

/-- Whether a bit pattern stands for a finite number. -/
def isFinite (format : FloatFormat) (bits : Nat) : Bool :=
  bits % format.signBit < format.infinity

end FloatFormat

end ShaderMachine
