import Stencil.Text.Basic

/-! Digits of numbers in bases up to sixteen; letters count in either case. -/

namespace Stencil

namespace Text

def hexDigit? (character : Char) : Option Nat :=
  if character.isDigit then some (character.toNat - '0'.toNat)
  else if 'a' ≤ character ∧ character ≤ 'f' then some (character.toNat - 'a'.toNat + 10)
  else if 'A' ≤ character ∧ character ≤ 'F' then some (character.toNat - 'A'.toNat + 10)
  else none

def digit? (base : Nat) (character : Char) : Option Nat :=
  (hexDigit? character).filter (· < base)

def numberFrom? (base value : Nat) : Text → Option Nat
  | [] => some value
  | character :: rest =>
      match digit? base character with
      | some digit => numberFrom? base (value * base + digit) rest
      | none => none

def number? (base : Nat) (digits : Text) : Option Nat :=
  if digits.isEmpty then none else numberFrom? base 0 digits

def hexValue? (digits : Text) : Option Nat :=
  number? 16 digits

def scalar? (code : Nat) : Option Char :=
  if code.isValidChar then some (Char.ofNat code) else none

end Text
end Stencil
