import GraphBridge.Decimal.Basic

/-!
# The shortest decimal of a double

A double stands for all the reals that round to it. The shortest decimal of a double is the one with
the fewest digits in that interval, and among those the one nearest to the double. For each number
of digits in turn the two neighbours of the double on that decimal grid are tested in exact
arithmetic.
-/

namespace GraphBridge.Decimal

/-- A positive finite double with the interval of reals that round to it, in units of
`2 ^ exponent`. -/
structure Rounding where
  /-- The double itself. -/
  centre : Nat
  /-- The lower end of the interval. -/
  low : Nat
  /-- The upper end of the interval. -/
  high : Nat
  /-- The power of two of the unit. -/
  exponent : Int
  /-- Whether the ends belong to the interval: a tie is rounded to the even neighbour. -/
  closed : Bool
  deriving Repr

/-- The significand of a power of two: one bit above the 52 that a double stores. -/
def leadingBit : Nat := 0x10000000000000

/-- The rounding interval of the positive double with the given bits. The unit is a quarter of the
distance to the next double; below a power of two the distance halves. -/
def Rounding.ofBits (bits : UInt64) : Rounding :=
  let field := (bits >>> 52).toNat % 2048
  let fraction := bits.toNat % leadingBit
  let mantissa := if field = 0 then fraction else fraction + leadingBit
  let power : Int := if field = 0 then -1074 else (field : Int) - 1075
  let lower := if fraction = 0 ∧ 1 < field then 1 else 2
  { centre := 4 * mantissa
    low := 4 * mantissa - lower
    high := 4 * mantissa + 2
    exponent := power - 2
    closed := mantissa % 2 = 0 }

namespace Rounding

/-- The factor by which a whole multiple of `10 ^ power` is scaled before it is compared. -/
def gridScale (r : Rounding) (power : Int) : Nat :=
  Nat.pow 2 (-r.exponent).toNat * Nat.pow 10 power.toNat

/-- The factor by which a bound of the interval is scaled before it is compared. -/
def unitScale (r : Rounding) (power : Int) : Nat :=
  Nat.pow 2 r.exponent.toNat * Nat.pow 10 (-power).toNat

/-- Whether `point * 10 ^ power` lies in the interval. -/
def holds (r : Rounding) (power : Int) (point : Nat) : Bool :=
  let scaled := point * r.gridScale power
  let low := r.low * r.unitScale power
  let high := r.high * r.unitScale power
  if r.closed then low ≤ scaled && scaled ≤ high else low < scaled && scaled < high

/-- The greatest multiple of `10 ^ power` that does not exceed the double, as a multiplier. -/
def below (r : Rounding) (power : Int) : Nat :=
  r.centre * r.unitScale power / r.gridScale power

/-- The power of ten of the first digit of the double. -/
def magnitude (r : Rounding) : Int :=
  ((Nat.toDigits 10 (r.below (-330))).length : Int) - 331

/-- The point of the grid `10 ^ power` that stands for the double: a neighbour within the interval,
the nearer one if both are, and the even one at a tie. -/
def pick? (r : Rounding) (power : Int) : Option Nat :=
  let floor := r.below power
  match r.holds power floor, r.holds power (floor + 1) with
  | true, false => some floor
  | false, true => some (floor + 1)
  | false, false => none
  | true, true =>
      let twice := 2 * (r.centre * r.unitScale power)
      let middle := (2 * floor + 1) * r.gridScale power
      if twice < middle then some floor
      else if middle < twice then some (floor + 1)
      else some (if floor % 2 = 0 then floor else floor + 1)

/-- The first of the given grids that has a point for the double. Seventeen digits always have. -/
def firstPick (r : Rounding) (magnitude : Int) : List Nat → Decimal
  | [] => ⟨r.below (magnitude - 16), magnitude - 16⟩
  | extra :: more =>
      let power := magnitude - extra
      match r.pick? power with
      | some point => stripZeros point power
      | none => r.firstPick magnitude more

end Rounding

/-- The shortest decimal that rounds to the positive finite double with the given bits. -/
def shortest (bits : UInt64) : Decimal :=
  let r := Rounding.ofBits bits
  r.firstPick r.magnitude (List.range 17)

end GraphBridge.Decimal
