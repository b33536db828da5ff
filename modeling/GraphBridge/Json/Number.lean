import GraphBridge.Decimal.Shortest

/-!
# JSON numbers

A number literal without fraction and exponent is a natural number or a negative integer as long as
it fits 64 bits; any other literal is a double. The three kinds never equal each other: `1` and
`1.0` are different values.
-/

namespace GraphBridge.Json

/-- A JSON number. -/
inductive Number where
  /-- A natural number below `2 ^ 64`. -/
  | natural (value : Nat)
  /-- The negative integer of the given size, at most `2 ^ 63`. -/
  | negative (size : Nat)
  /-- A double. -/
  | binary (value : Float)
  deriving DecidableEq, Repr

/-- A number literal cut into its parts. -/
structure NumberLiteral where
  /-- Whether a minus sign stands in front. -/
  minus : Bool
  /-- The digits before the point. -/
  whole : List Char
  /-- The digits after the point, if there is one. -/
  fraction : Option (List Char)
  /-- The sign (`true` for minus) and the digits of the exponent, if there is one. -/
  power : Option (Bool × List Char)
  deriving Repr

namespace NumberLiteral

/-- The digits at the front of the input, and the rest. -/
def scanDigits (input : List Char) : List Char × List Char :=
  (input.takeWhile Char.isDigit, input.dropWhile Char.isDigit)

/-- Whole digits: a single zero, or digits that do not start with zero. -/
def scanWhole : List Char → Option (List Char × List Char)
  | '0' :: rest => some (['0'], rest)
  | c :: rest => if c.isDigit then some (scanDigits (c :: rest)) else none
  | [] => none

/-- A point and at least one digit; without them nothing is taken. -/
def scanFraction : List Char → Option (List Char) × List Char
  | '.' :: rest =>
      match scanDigits rest with
      | ([], _) => (none, '.' :: rest)
      | (digits, rest) => (some digits, rest)
  | rest => (none, rest)

/-- The sign of an exponent, `true` for minus. -/
def scanSign : List Char → Bool × List Char
  | '-' :: rest => (true, rest)
  | '+' :: rest => (false, rest)
  | rest => (false, rest)

/-- An exponent mark, a sign and at least one digit; without them nothing is taken. -/
def scanPower : List Char → Option (Bool × List Char) × List Char
  | c :: rest =>
      if c == 'e' || c == 'E' then
        match scanSign rest with
        | (minus, after) =>
            match scanDigits after with
            | ([], _) => (none, c :: rest)
            | (digits, after) => (some (minus, digits), after)
      else (none, c :: rest)
  | [] => (none, [])

/-- The longest number literal at the front of the input. -/
def scan (input : List Char) : Option (NumberLiteral × List Char) :=
  let (minus, unsigned) := match input with
    | '-' :: rest => (true, rest)
    | rest => (false, rest)
  match scanWhole unsigned with
  | none => none
  | some (whole, rest) =>
      let (fraction, rest) := scanFraction rest
      let (power, rest) := scanPower rest
      some (⟨minus, whole, fraction, power⟩, rest)

/-- The power of ten that the exponent of a literal spells. -/
def shift (l : NumberLiteral) : Int :=
  match l.power with
  | none => 0
  | some (false, digits) => Decimal.ofDigits digits
  | some (true, digits) => -Decimal.ofDigits digits

/-- The size of the literal as a decimal with as many digits as fit a 64-bit word. -/
def decimal (l : NumberLiteral) : Decimal :=
  let size := (Decimal.pushWhole 0 l.whole).pushFraction (l.fraction.getD [])
  ⟨size.coefficient, size.exponent + l.shift⟩

/-- The double of a literal. -/
def toFloat (l : NumberLiteral) : Float :=
  let size := l.decimal.toFloat
  if l.minus then -size else size

/-- The number a literal denotes. A double out of range is infinite. -/
def toNumber (l : NumberLiteral) : Number :=
  match l.fraction, l.power with
  | none, none =>
      let size := Decimal.ofDigits l.whole
      if !l.minus && size < UInt64.size then .natural size
      else if l.minus && 0 < size && size ≤ UInt64.size / 2 then .negative size
      else .binary l.toFloat
  | _, _ => .binary l.toFloat

end NumberLiteral

namespace Number

/-- Numbers in JSON text are positional for magnitudes from -5 up to 15. -/
def layout : Decimal.Layout := ⟨-5, 16⟩

/-- Whether a number is in range. -/
def isFinite : Number → Bool
  | .binary value => value.isFinite
  | _ => true

/-- Equality of numbers: kinds never mix, and the two zeros of doubles are equal. -/
def same : Number → Number → Bool
  | .natural m, .natural n => m == n
  | .negative m, .negative n => m == n
  | .binary x, .binary y => x == y
  | _, _ => false

/-- The text of a double: the shortest digits that read back, always with a fraction or an
exponent. -/
def floatText (value : Float) : String :=
  let bits := value.toBits
  let size := bits.toNat % (UInt64.size / 2)
  let sign := if bits.toNat < UInt64.size / 2 then "" else "-"
  if size == 0 then sign ++ "0.0"
  else sign ++ (Decimal.shortest size.toUInt64).write layout

/-- The text of a number. -/
def text : Number → String
  | .natural value => toString value
  | .negative size => "-" ++ toString size
  | .binary value => floatText value

end Number

end GraphBridge.Json
