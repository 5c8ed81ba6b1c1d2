import ExternalAnnotations.Number.Shortest

/-!
# Written numbers

A `NumberStyle` says how the digits of a number are laid out. Index entries are listed in the
plain style; the detailed view of an entry uses the style that tells whole numbers of a floating
type from integers.
-/

namespace ExternalAnnotations

/-- How decimals are laid out. -/
structure NumberStyle where
  /-- Whether a whole number ends in `.0`. -/
  marksWhole : Bool
  /-- Whether a number whose point is at this place is written with an exponent. -/
  usesExponent : Int → Bool

/-- Every number is written out in full, and whole numbers without a point. -/
def NumberStyle.plain : NumberStyle := ⟨false, fun _ => false⟩

/-- Whole numbers end in `.0`, and an exponent is used from `10 ^ 16` on and below `10 ^ -4`. -/
def NumberStyle.marked : NumberStyle := ⟨true, fun place => 16 < place || place < -3⟩

namespace Decimal

def zeros (count : Int) : List Char := List.replicate count.toNat '0'

/-- Written without an exponent. -/
def positional (style : NumberStyle) (d : Decimal) : List Char :=
  if d.pointAt ≤ 0 then '0' :: '.' :: zeros (-d.pointAt) ++ d.digits
  else if (d.digits.length : Int) ≤ d.pointAt then
    d.digits ++ zeros (d.pointAt - d.digits.length) ++ if style.marksWhole then ['.', '0'] else []
  else d.digits.take d.pointAt.toNat ++ '.' :: d.digits.drop d.pointAt.toNat

/-- Written with one digit before the point and an exponent of ten. -/
def scientific (d : Decimal) : List Char :=
  let mantissa := match d.digits with
    | first :: second :: others => first :: '.' :: second :: others
    | digits => digits
  mantissa ++ 'e' :: (toString (d.pointAt - 1)).toList

def render (style : NumberStyle) (d : Decimal) : List Char :=
  if style.usesExponent d.pointAt then d.scientific else d.positional style

end Decimal

/-- A number of a format in its shortest form. -/
def FloatFormat.render (format : FloatFormat) (style : NumberStyle) (bits : Nat) : String :=
  match format.decode bits with
  | .notANumber => "NaN"
  | .infinite negative => if negative then "-inf" else "inf"
  | .finite negative mantissa exponent =>
    let digits :=
      if mantissa = 0 then '0' :: if style.marksWhole then ['.', '0'] else []
      else (format.shortest mantissa exponent).render style
    String.ofList (if negative then '-' :: digits else digits)

def Double.text (x : Double) : String := FloatFormat.double.render .plain x.bits.toNat

def Single.text (x : Single) : String := FloatFormat.single.render .plain x.bits.toNat

/-- The form used in the detailed view. -/
def Double.markedText (x : Double) : String := FloatFormat.double.render .marked x.bits.toNat

end ExternalAnnotations
