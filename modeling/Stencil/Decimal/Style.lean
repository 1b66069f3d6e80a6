import Stencil.Decimal.Shortest

/-! How the digits of a double are laid out: positionally with a point, or with
one leading digit and a power of ten. -/

namespace Stencil
namespace Decimal

/-- The range in which numbers are written positionally: the point may stand from
`least` digits to the right of the first digit's left edge up to `greatest`. -/
structure Style where
  least : Int
  greatest : Option Int
  plus : Bool
  deriving DecidableEq, Repr

/-- Numbers in data: a power of ten from `1e+16` on, and below `1e-5`. -/
def Style.data : Style := { least := -4, greatest := some 16, plus := true }

/-- Numbers in listings: a power of ten from `1e16` on, and below `1e-4`. -/
def Style.listing : Style := { least := -3, greatest := some 16, plus := false }

/-- Numbers in running text: always positional. -/
def Style.prose : Style := { least := -400, greatest := none, plus := false }

def zeros (count : Nat) : Text :=
  List.replicate count '0'

def signed (number : Int) : Text :=
  if number < 0 then '-' :: Text.decimal number.natAbs else Text.decimal number.natAbs

def Style.power (style : Style) (exponent : Int) : Text :=
  if style.plus && 0 ≤ exponent then '+' :: signed exponent else signed exponent

/-- Lays out digits; a number without fraction ends in `.0`. -/
def Style.layout (style : Style) (digits : Digits) : Text :=
  let written := Text.decimal digits.value
  let point := (written.length : Int) + digits.exponent
  let positional := style.least ≤ point && (style.greatest.all fun most => point ≤ most)
  if positional then
    if 0 ≤ digits.exponent then written ++ zeros digits.exponent.toNat ++ ".0".toList
    else if 0 < point then
      written.take point.toNat ++ '.' :: written.drop point.toNat
    else "0.".toList ++ zeros (-point).toNat ++ written
  else
    let leading := written.take 1
    let others := written.drop 1
    leading ++ (if others.isEmpty then [] else '.' :: others) ++ 'e' :: style.power (point - 1)

def Style.finite (style : Style) (bits : UInt64) : Text :=
  let binary := Binary.ofBits bits
  let magnitude :=
    if binary.mantissa = 0 then "0.0".toList else style.layout (shortest binary)
  if bits.toNat / Nat.pow 2 63 = 1 then '-' :: magnitude else magnitude

end Decimal
end Stencil
