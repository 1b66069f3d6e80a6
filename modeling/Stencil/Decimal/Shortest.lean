import Stencil.Text.Basic

/-! The shortest decimal that reads back as a given double.

A finite double is `mantissa · 2 ^ exponent`.  The reals that round to it form an
interval around it, which holds its ends exactly when the mantissa is even.  For
one digit, two digits and so on, the two neighbours of the value among the
decimals of that many digits are tried; the first that lies in the interval wins,
and of two the nearer one. -/

namespace Stencil
namespace Decimal

structure Binary where
  mantissa : Nat
  exponent : Int
  deriving DecidableEq, Repr

/-- Whether the number below is only half as far away as the number above. -/
def Binary.narrowBelow (binary : Binary) : Bool :=
  binary.mantissa = Nat.pow 2 52 && binary.exponent ≠ -1074

def Binary.ofBits (bits : UInt64) : Binary :=
  let fraction : Nat := bits.toNat % Nat.pow 2 52
  let biased : Nat := bits.toNat / Nat.pow 2 52 % Nat.pow 2 11
  if biased = 0 then { mantissa := fraction, exponent := -1074 }
  else { mantissa := Nat.pow 2 52 + fraction, exponent := (biased : Int) - 1075 }

structure Interval where
  low : Nat
  point : Nat
  high : Nat
  denominator : Nat
  closed : Bool
  deriving DecidableEq, Repr

/-- The reals that round to a double. -/
def Binary.interval (binary : Binary) : Interval :=
  let scale := Nat.pow 2 (binary.exponent - 2).toNat
  let below := if binary.narrowBelow then 1 else 2
  { low := (4 * binary.mantissa - below) * scale
    point := 4 * binary.mantissa * scale
    high := (4 * binary.mantissa + 2) * scale
    denominator := Nat.pow 2 (2 - binary.exponent).toNat
    closed := binary.mantissa % 2 = 0 }

/-- Whether `digits · 10 ^ exponent` lies in an interval. -/
def Interval.contains (interval : Interval) (digits : Nat) (exponent : Int) : Bool :=
  let value := digits * Nat.pow 10 exponent.toNat * interval.denominator
  let unit := Nat.pow 10 (-exponent).toNat
  if interval.closed then interval.low * unit ≤ value && value ≤ interval.high * unit
  else interval.low * unit < value && value < interval.high * unit

structure Digits where
  value : Nat
  exponent : Int
  deriving DecidableEq, Repr

/-- The largest `p ≤ guess` with `10 ^ p ≤ point`, tried downwards. -/
def leadingPower (interval : Interval) : Nat → Int → Int
  | 0, guess => guess
  | tries + 1, guess =>
      let unit := interval.denominator * Nat.pow 10 guess.toNat
      if unit ≤ interval.point * Nat.pow 10 (-guess).toNat then guess
      else leadingPower interval tries (guess - 1)

/-- The decimal with last digit at `10 ^ exponent` that reads back, if there is
one: the nearer neighbour of the point, and the even one of two as near. -/
def atExponent (interval : Interval) (exponent : Int) : Option Digits :=
  let unit := interval.denominator * Nat.pow 10 exponent.toNat
  let point := interval.point * Nat.pow 10 (-exponent).toNat
  let lower := point / unit
  let lowerFits := interval.contains lower exponent && 0 < lower
  let upperFits := interval.contains (lower + 1) exponent
  let rest := point % unit
  let lowerWins := 2 * rest < unit || (2 * rest = unit && lower % 2 = 0)
  if lowerFits && (!upperFits || lowerWins) then
    some { value := lower, exponent := exponent }
  else if upperFits then some { value := lower + 1, exponent := exponent }
  else none

/-- The first decimal that reads back, with ever more digits. -/
def search (interval : Interval) : Nat → Int → Digits
  | 0, exponent => { value := interval.point / interval.denominator, exponent := exponent }
  | tries + 1, exponent =>
      match atExponent interval exponent with
      | some digits => digits
      | none => search interval tries (exponent - 1)

/-- Digits without zeros at the end, for values below `10 ^ steps`. -/
def Digits.strip : Nat → Digits → Digits
  | 0, digits => digits
  | steps + 1, digits =>
      if digits.value ≠ 0 ∧ digits.value % 10 = 0 then
        strip steps { value := digits.value / 10, exponent := digits.exponent + 1 }
      else digits

/-- The shortest decimal that reads back as a positive finite double. -/
def shortest (binary : Binary) : Digits :=
  let interval := binary.interval
  let power := leadingPower interval 640 309
  (search interval 18 power).strip 20

end Decimal
end Stencil
