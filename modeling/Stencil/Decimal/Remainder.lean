import Stencil.Decimal.Shortest

/-! Division of doubles with a whole quotient, computed without rounding. -/

namespace Stencil
namespace Decimal

def truncate (number : Float) : Float :=
  if number < 0.0 then number.ceil else number.floor

/-- What is left of a positive number after taking another one as often as it fits.
Both are whole multiples of the smaller unit, and so is the rest. -/
def Binary.remainder (dividend divisor : Binary) : Binary :=
  let exponent := min dividend.exponent divisor.exponent
  { mantissa := dividend.mantissa * Nat.pow 2 (dividend.exponent - exponent).toNat %
      (divisor.mantissa * Nat.pow 2 (divisor.exponent - exponent).toNat)
    exponent := exponent }

/-- The remainder of a division whose quotient is rounded towards zero; it has the
sign of the dividend. -/
def remainder (dividend divisor : Float) : Float :=
  if dividend.isNaN || divisor.isNaN || dividend.isInf || divisor == 0.0 then 0.0 / 0.0
  else if divisor.isInf then dividend
  else
    let rest := (Binary.ofBits dividend.toBits).remainder (Binary.ofBits divisor.toBits)
    let size := (Float.ofNat rest.mantissa).scaleB rest.exponent
    if dividend.toBits.toNat < Nat.pow 2 63 then size else -size

/-- The whole quotient that leaves a remainder which is not negative. -/
def wholeQuotient (dividend divisor : Float) : Float :=
  let quotient := truncate (dividend / divisor)
  if remainder dividend divisor < 0.0 then
    if 0.0 < divisor then quotient - 1.0 else quotient + 1.0
  else quotient

end Decimal
end Stencil
