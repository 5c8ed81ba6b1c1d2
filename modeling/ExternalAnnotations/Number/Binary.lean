/-!
# Binary floating-point numbers

A number is kept as its bits in one of the interchange formats. `FloatFormat.decode` reads bits
as a whole mantissa times a power of two, and `FloatFormat.nearest` rounds a fraction to the
nearest number of a format, a tie to the even mantissa.
-/

namespace ExternalAnnotations

/-- A power of two. -/
def twoTo (n : Nat) : Nat := Nat.pow 2 n

/-- A power of ten. -/
def tenTo (n : Nat) : Nat := Nat.pow 10 n

/-- The widths of a binary interchange format. -/
structure FloatFormat where
  fractionBits : Nat
  exponentBits : Nat

/-- What the bits of a number stand for. A finite number is `mantissa * 2 ^ exponent`. -/
inductive FloatValue
  | finite (negative : Bool) (mantissa : Nat) (exponent : Int)
  | infinite (negative : Bool)
  | notANumber
  deriving DecidableEq, Repr

namespace FloatFormat

def single : FloatFormat := ⟨23, 8⟩

def double : FloatFormat := ⟨52, 11⟩

/-- The exponent of the last place of the smallest numbers. -/
def leastExponent (format : FloatFormat) : Int :=
  2 - twoTo (format.exponentBits - 1) - format.fractionBits

/-- The bits of positive infinity. -/
def infinityBits (format : FloatFormat) : Nat :=
  (twoTo format.exponentBits - 1) * twoTo format.fractionBits

def signBit (format : FloatFormat) : Nat :=
  twoTo (format.fractionBits + format.exponentBits)

def withSign (format : FloatFormat) (negative : Bool) (magnitude : Nat) : Nat :=
  if negative then format.signBit + magnitude else magnitude

/-- The bits of a quiet not-a-number. -/
def notANumberBits (format : FloatFormat) : Nat :=
  format.infinityBits + twoTo (format.fractionBits - 1)

def decode (format : FloatFormat) (bits : Nat) : FloatValue :=
  let negative := format.signBit ≤ bits
  let magnitude := bits % format.signBit
  let exponentField := magnitude / twoTo format.fractionBits
  let fraction := magnitude % twoTo format.fractionBits
  if magnitude = format.infinityBits then .infinite negative
  else if format.infinityBits < magnitude then .notANumber
  else if exponentField = 0 then .finite negative fraction format.leastExponent
  else
    .finite negative (fraction + twoTo format.fractionBits)
      (format.leastExponent + exponentField - 1)

/-- Numerator and denominator of `mantissa * 2 ^ exponent`. -/
def fraction (mantissa : Nat) (exponent : Int) : Nat × Nat :=
  if 0 ≤ exponent then (mantissa * twoTo exponent.toNat, 1) else (mantissa, twoTo (-exponent).toNat)

/-- The exponent of the highest power of two that is not above a positive fraction. -/
def floorLog2 (num den : Nat) : Int :=
  let guess : Int := num.log2 - den.log2
  let (low, high) := fraction den guess
  if num * high < low then guess - 1 else guess

/-- The quotient rounded to a whole number, a tie to the even one. -/
def roundToEven (num den : Nat) : Nat :=
  let quotient := num / den
  let twice := 2 * (num % den)
  if twice < den then quotient
  else if den < twice then quotient + 1
  else quotient + quotient % 2

/-- The bits of the number nearest to a fraction. -/
def nearest (format : FloatFormat) (negative : Bool) (num den : Nat) : Nat :=
  if num = 0 then format.withSign negative 0
  else
    let exponent := max format.leastExponent (floorLog2 num den - format.fractionBits)
    let (scaleNum, scaleDen) := fraction 1 exponent
    let mantissa := roundToEven (num * scaleDen) (den * scaleNum)
    let magnitude := (exponent - format.leastExponent).toNat * twoTo format.fractionBits + mantissa
    format.withSign negative (min magnitude format.infinityBits)

/-- The bits of the number nearest to an integer. -/
def ofInt (format : FloatFormat) (n : Int) : Nat :=
  format.nearest (n < 0) n.natAbs 1

/-- The bits of the number nearest to `digits * 10 ^ exponent`. Exponents that lead out of the
range of every format are not carried out. -/
def ofDecimal (format : FloatFormat) (negative : Bool) (digits : Nat) (exponent : Int) : Nat :=
  let size : Int := (Nat.toDigits 10 digits).length + exponent
  if digits = 0 || size < -400 then format.withSign negative 0
  else if 400 < size then format.withSign negative format.infinityBits
  else if 0 ≤ exponent then format.nearest negative (digits * tenTo exponent.toNat) 1
  else format.nearest negative digits (tenTo (-exponent).toNat)

/-- The bits of a number of one format rounded to another. -/
def convert (source target : FloatFormat) (bits : Nat) : Nat :=
  match source.decode bits with
  | .finite negative mantissa exponent =>
    let (num, den) := fraction mantissa exponent
    target.nearest negative num den
  | .infinite negative => target.withSign negative target.infinityBits
  | .notANumber => target.notANumberBits

/-- Equality of numbers: the zeros are equal, and not-a-number is equal to nothing. -/
def equal (format : FloatFormat) (a b : Nat) : Bool :=
  match format.decode a, format.decode b with
  | .notANumber, _ | _, .notANumber => false
  | .finite _ 0 _, .finite _ 0 _ => true
  | _, _ => a == b

end FloatFormat

/-- A number of 64 bits. -/
structure Double where
  bits : UInt64
  deriving DecidableEq, Repr

/-- A number of 32 bits. -/
structure Single where
  bits : UInt32
  deriving DecidableEq, Repr

namespace Double

def ofInt (n : Int) : Double := ⟨.ofNat (FloatFormat.double.ofInt n)⟩

def ofDecimal (negative : Bool) (digits : Nat) (exponent : Int) : Double :=
  ⟨.ofNat (FloatFormat.double.ofDecimal negative digits exponent)⟩

/-- Rounded to 32 bits. -/
def toSingle (x : Double) : Single :=
  ⟨.ofNat (FloatFormat.double.convert .single x.bits.toNat)⟩

/-- Equality of the numbers, which is not that of their bits. -/
def equal (x y : Double) : Bool := FloatFormat.double.equal x.bits.toNat y.bits.toNat

end Double

namespace Single

def ofInt (n : Int) : Single := ⟨.ofNat (FloatFormat.single.ofInt n)⟩

/-- Equality of the numbers, which is not that of their bits. -/
def equal (x y : Single) : Bool := FloatFormat.single.equal x.bits.toNat y.bits.toNat

end Single

end ExternalAnnotations
