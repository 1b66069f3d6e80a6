import Stencil.Decimal.Shortest

/-! The order of doubles, and of integers and doubles, by their exact values.

Negative zero stands before zero.  What is no number stands before everything. -/

namespace Stencil
namespace Decimal

/-- A place for every double, in ascending order. -/
def place (number : Float) : Int :=
  if number.isNaN then -(Nat.pow 2 64 : Int)
  else if number.toBits.toNat < Nat.pow 2 63 then number.toBits.toNat
  else (Nat.pow 2 63 : Int) - 1 - (number.toBits.toNat : Int)

def order (first second : Float) : Ordering :=
  Ord.compare (place first) (place second)

def orderExact (number : Int) (other : Float) : Ordering :=
  let binary := Binary.ofBits other.toBits
  let size : Int := binary.mantissa * Nat.pow 2 binary.exponent.toNat
  let value := if other < 0.0 then -size else size
  Ord.compare (number * Nat.pow 2 (-binary.exponent).toNat) value

def orderInt (number : Int) (other : Float) : Ordering :=
  if other.isNaN then .gt
  else if other.isInf then if other < 0.0 then .gt else .lt
  else
    match orderExact number other with
    | .eq => if other == 0.0 then order 0.0 other else .eq
    | decided => decided

def sameInt (number : Int) (other : Float) : Bool :=
  other.isFinite && orderExact number other = .eq

end Decimal
end Stencil
