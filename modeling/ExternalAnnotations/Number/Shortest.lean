import ExternalAnnotations.Number.Binary

/-!
# Shortest decimals

The decimal with the fewest digits that rounds to a given number, and among those the nearest to
it. A number owns the decimals in its rounding interval, which includes its ends when the mantissa
is even; on each decimal grid it is enough to try the two points next to the number.
-/

namespace ExternalAnnotations

/-- The positive decimal `0.d₁d₂… * 10 ^ pointAt`. -/
structure Decimal where
  digits : List Char
  pointAt : Int
  deriving DecidableEq, Repr

namespace FloatFormat

/-- Numerator and denominator of the rounding interval of a positive finite number: the number
itself and the distances to its lower and upper end. -/
structure Interval where
  value : Nat
  below : Nat
  above : Nat
  den : Nat
  closed : Bool

def interval (format : FloatFormat) (mantissa : Nat) (exponent : Int) : Interval :=
  let (num, den) := fraction 1 exponent
  let narrow := mantissa = twoTo format.fractionBits ∧ exponent ≠ format.leastExponent
  { value := 4 * mantissa * num
    below := if narrow then num else 2 * num
    above := 2 * num
    den := 4 * den
    closed := mantissa % 2 = 0 }

/-- Whether `n * unitNum / unitDen` lies in the interval. -/
def Interval.contains (i : Interval) (n unitNum unitDen : Nat) : Bool :=
  let point := n * unitNum * i.den
  let value := i.value * unitDen
  let low := i.below * unitDen
  let high := i.above * unitDen
  if i.closed then value ≤ point + low && point ≤ value + high
  else value < point + low && point < value + high

/-- The point of the grid of a unit that stands for the number, if one of the two next to it does;
of two the nearer, and the upper one on a tie. -/
def Interval.onGrid (i : Interval) (unitNum unitDen : Nat) : Option Nat :=
  let scaled := i.value * unitDen
  let unit := unitNum * i.den
  let lower := scaled / unit
  let rest := scaled % unit
  match i.contains lower unitNum unitDen, i.contains (lower + 1) unitNum unitDen with
  | true, true => some (if 2 * rest < unit then lower else lower + 1)
  | true, false => some lower
  | false, true => some (lower + 1)
  | false, false => none

/-- The exponent of ten of the first digit place, counted so that `0.1` has zero. -/
def decimalPlace (num den : Nat) : Int :=
  let digits := (Nat.toDigits 10 (num / den)).length
  if den ≤ num then digits
  else
    let scale := (Nat.toDigits 10 (den / num)).length
    -- `num / den` lies between `10 ^ -scale` and `10 ^ (1 - scale)`, ends included.
    if num * tenTo (scale - 1) < den then 1 - scale else 2 - scale

def dropTrailingZeros (digits : List Char) : List Char :=
  (digits.reverse.dropWhile (· = '0')).reverse

/-- Tries the grids of so many digits and more. -/
def Interval.shortest (i : Interval) (place : Int) : Nat → Nat → Decimal
  | 0, count => ⟨[], place - count⟩
  | more + 1, count =>
    let (unitNum, unitDen) :=
      let power := place - count
      if 0 ≤ power then (tenTo power.toNat, 1) else (1, tenTo (-power).toNat)
    match i.onGrid unitNum unitDen with
    | some n =>
      let digits := Nat.toDigits 10 n
      ⟨dropTrailingZeros digits, place + digits.length - count⟩
    | none => i.shortest place more (count + 1)

/-- The shortest decimal that reads back as a positive finite number. Seventeen digits are enough
for both formats. -/
def shortest (format : FloatFormat) (mantissa : Nat) (exponent : Int) : Decimal :=
  let i := format.interval mantissa exponent
  i.shortest (decimalPlace i.value i.den) 18 1

end FloatFormat

end ExternalAnnotations
