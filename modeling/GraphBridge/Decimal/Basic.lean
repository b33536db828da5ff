/-!
# Decimal numbers and their text

A decimal is a whole coefficient times a power of ten. This module collects the digits of a literal
into a decimal whose coefficient is a 64-bit word, gives the double of such a decimal, and lays a
decimal out as text; which exponents are written positionally is a record that the writer of a
format chooses.
-/

namespace GraphBridge

/-- The number `coefficient * 10 ^ exponent`. -/
structure Decimal where
  /-- The digits, read as one whole number. -/
  coefficient : Nat
  /-- The power of ten. -/
  exponent : Int
  deriving DecidableEq, Repr

namespace Decimal

/-- The value of an ASCII digit. -/
def digitValue (digit : Char) : Nat :=
  digit.toNat - '0'.toNat

/-- The whole number that a list of ASCII digits spells. -/
def ofDigits (digits : List Char) : Nat :=
  digits.foldl (fun value digit => 10 * value + digitValue digit) 0

/-- Whole digits after those that spell `coefficient`. From the first digit on that takes the
coefficient beyond a 64-bit word, the digits only count as places. -/
def pushWhole (coefficient : Nat) : List Char → Decimal
  | [] => ⟨coefficient, 0⟩
  | digit :: rest =>
      if 10 * coefficient + digitValue digit < UInt64.size then
        pushWhole (10 * coefficient + digitValue digit) rest
      else ⟨coefficient, rest.length + 1⟩

/-- Digits after the point. From the first digit on that takes the coefficient beyond a 64-bit word,
the digits are dropped. -/
def pushFraction (d : Decimal) : List Char → Decimal
  | [] => d
  | digit :: rest =>
      if 10 * d.coefficient + digitValue digit < UInt64.size then
        pushFraction ⟨10 * d.coefficient + digitValue digit, d.exponent - 1⟩ rest
      else d

/-- The digits of the coefficient. -/
def digits (d : Decimal) : List Char :=
  Nat.toDigits 10 d.coefficient

/-- The power of ten of the first digit. -/
def magnitude (d : Decimal) : Int :=
  d.exponent + d.digits.length - 1

/-- The greatest power of ten that is a double. -/
def greatestPower : Nat := 308

/-- The double nearest to a power of ten. -/
def powerOfTen (power : Nat) : Float :=
  Float.ofScientific 1 false power

/-- A double times a power of ten, infinite above the range of doubles. It is one multiplication by
a positive power or one division by a negative one; a power below the least double is divided off
in parts. -/
def scale (value : Float) (power : Int) : Float :=
  if power.natAbs ≤ greatestPower then
    if 0 ≤ power then value * powerOfTen power.natAbs else value / powerOfTen power.natAbs
  else if value == 0 then value
  else if 0 < power then Float.ofBits 0x7FF0000000000000
  else scale (value / powerOfTen greatestPower) (power + greatestPower)
termination_by power.natAbs
decreasing_by simp only [greatestPower] at *; omega

/-- The double of a decimal whose coefficient is a 64-bit word, infinite above the range of doubles.
The coefficient is rounded to a double before it is scaled, and the scaling rounds once more, so the
result can be a neighbour of the nearest double. -/
def toFloat (d : Decimal) : Float :=
  scale d.coefficient.toUInt64.toFloat d.exponent

/-- The same number with no zero at the end of its coefficient. -/
def stripZeros (coefficient : Nat) (exponent : Int) : Decimal :=
  if coefficient ≠ 0 ∧ coefficient % 10 = 0 then stripZeros (coefficient / 10) (exponent + 1)
  else ⟨coefficient, exponent⟩
termination_by coefficient
decreasing_by omega

/-- How a format lays out a number with a fraction or an exponent. -/
structure Layout where
  /-- The least magnitude that is written positionally. -/
  leastPositional : Int
  /-- The first magnitude that is written with an exponent again. -/
  firstExponential : Int

/-- Positional text: the digits around a point, with at least one digit on each side. -/
def positional (d : Decimal) : String :=
  let digits := d.digits
  match d.exponent with
  | .ofNat power => String.ofList (digits ++ List.replicate power '0') ++ ".0"
  | .negSucc power =>
      let places := power + 1
      if places < digits.length then
        let whole := digits.length - places
        String.ofList (digits.take whole) ++ "." ++ String.ofList (digits.drop whole)
      else
        "0." ++ String.ofList (List.replicate (places - digits.length) '0' ++ digits)

/-- Text with an exponent, whose sign is always written: one digit before the point, and a point
only if more digits follow. -/
def exponential (d : Decimal) : String :=
  let mantissa := match d.digits with
    | [] => ""
    | [digit] => String.ofList [digit]
    | digit :: more => String.ofList (digit :: '.' :: more)
  let power := match d.magnitude with
    | .ofNat n => "+" ++ toString n
    | .negSucc n => "-" ++ toString (n + 1)
  mantissa ++ "e" ++ power

/-- The text of a decimal in a layout. -/
def write (layout : Layout) (d : Decimal) : String :=
  if layout.leastPositional ≤ d.magnitude && d.magnitude < layout.firstExponential then
    d.positional
  else d.exponential

end Decimal

end GraphBridge
