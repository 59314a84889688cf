import ShaderMachine.Decimal.Shortest

/-! # Floats as text

How floats are written and read. Finite floats are written with the fewest digits that name them;
a record says which orders of magnitude are written positionally and whether a whole number keeps
a point.

**`DecimalStyle`** is that record, with **`DecimalStyle.listing`** and **`DecimalStyle.report`**
for the two places that print floats; **`DecimalStyle.write`** writes a bit pattern;
**`FloatFormat.read?`** reads a text as a bit pattern. -/

namespace ShaderMachine

/-- How a finite number is written. -/
structure DecimalStyle where
  /-- Whether an order of magnitude is written without a power of ten. -/
  positional : Int → Bool
  /-- What follows a whole number that is written without a power of ten. -/
  wholeSuffix : String

namespace DecimalStyle

/-- Constants in a listing: positional from `0.0001` up to below `10 ^ 16`, and whole numbers
keep a point and a zero. -/
def listing : DecimalStyle :=
  ⟨fun order => -3 ≤ order && order ≤ 16, ".0"⟩

/-- Outputs on the command line: always positional, whole numbers without a point. -/
def report : DecimalStyle :=
  ⟨fun _ => true, ""⟩

/-- Write the digits of a coefficient with the point after `order` places. -/
def placePoint (style : DecimalStyle) (digits : List Char) (order : Int) : String :=
  if order ≤ 0 then
    "0." ++ String.ofList (List.replicate (-order).toNat '0' ++ digits)
  else if digits.length ≤ order.toNat then
    String.ofList (digits ++ List.replicate (order.toNat - digits.length) '0') ++
      style.wholeSuffix
  else
    String.ofList (digits.take order.toNat) ++ "." ++ String.ofList (digits.drop order.toNat)

/-- Write the digits of a coefficient with the point after the first one and a power of ten. -/
def scientific (digits : List Char) (order : Int) : String :=
  let fraction := digits.drop 1
  String.ofList (digits.take 1) ++
    (if fraction.isEmpty then "" else "." ++ String.ofList fraction) ++
    "e" ++ toString (order - 1)

/-- Write a positive decimal. -/
def writeDecimal (style : DecimalStyle) (decimal : Decimal) : String :=
  let digits := Nat.toDigits 10 decimal.digits
  if style.positional decimal.order then style.placePoint digits decimal.order
  else scientific digits decimal.order

/-- Write the float with a given bit pattern. -/
def write (style : DecimalStyle) (format : FloatFormat) (bits : Nat) : String :=
  match format.classify bits with
  | .nan => "NaN"
  | .infinite negative => if negative then "-inf" else "inf"
  | .finite negative significand _ =>
      let sign := if negative then "-" else ""
      if significand = 0 then
        sign ++ "0" ++ style.wholeSuffix
      else
        sign ++ style.writeDecimal (Decimal.shortest format (bits % format.signBit))

end DecimalStyle

/-- The value of a sequence of decimal digits. -/
def digitsValue (digits : List Char) : Nat :=
  digits.foldl (fun value c => 10 * value + (c.toNat - '0'.toNat)) 0

/-- The natural number that a non-empty sequence of decimal digits spells. -/
def readDigits? (digits : List Char) : Option Nat :=
  if digits.isEmpty ∨ digits.any (!·.isDigit) then none else some (digitsValue digits)

/-- Split a sign off a text; the answer says whether it was a minus. -/
def splitSign : List Char → Bool × List Char
  | '-' :: rest => (true, rest)
  | '+' :: rest => (false, rest)
  | text => (false, text)

namespace Decimal

/-- Read an optional power of ten, which must end the text. -/
def readExponent? : List Char → Option Int
  | [] => some 0
  | c :: rest =>
      if c = 'e' ∨ c = 'E' then
        let (negative, digits) := splitSign rest
        (readDigits? digits).map fun value => if negative then -(value : Int) else value
      else
        none

/-- Read a number without a sign: digits with at most one point, at least one digit, and an
optional power of ten. -/
def read? (text : List Char) : Option Decimal :=
  let whole := text.takeWhile Char.isDigit
  let rest := text.dropWhile Char.isDigit
  let (fraction, rest) :=
    match rest with
    | '.' :: rest => (rest.takeWhile Char.isDigit, rest.dropWhile Char.isDigit)
    | _ => ([], rest)
  if whole.isEmpty && fraction.isEmpty then
    none
  else
    (readExponent? rest).map fun exponent =>
      ⟨digitsValue (whole ++ fraction), exponent - fraction.length⟩

end Decimal

namespace FloatFormat

/-- Read a text as a float: a decimal number, or one of the names of infinity and not-a-number in
any case, each with an optional sign. -/
def read? (format : FloatFormat) (text : List Char) : Option Nat :=
  let (negative, rest) := splitSign text
  let lower := String.ofList (rest.map Char.toLower)
  if lower = "inf" ∨ lower = "infinity" then
    some (format.withSign negative format.infinity)
  else if lower = "nan" then
    some (format.withSign negative format.quietNan)
  else
    (Decimal.read? rest).map fun decimal => format.withSign negative (decimal.magnitude format)

end FloatFormat

end ShaderMachine
