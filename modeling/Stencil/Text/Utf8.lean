import Stencil.Text.Basic

/-! UTF-8: the strict decoder, which reports how many bytes it could read before
the first one that belongs to no character, and the encoder.

A character takes one to four bytes.  Overlong forms, surrogates and code points
above U+10FFFF are refused by the ranges that each second byte may have. -/

namespace Stencil
namespace Utf8

abbrev Bytes := List UInt8

def isTail (byte : UInt8) : Bool :=
  0x80 ≤ byte.toNat && byte.toNat ≤ 0xBF

def pair (first second : UInt8) : Char :=
  Char.ofNat ((first.toNat - 0xC0) * 0x40 + (second.toNat - 0x80))

def triple (first second third : UInt8) : Char :=
  Char.ofNat (((first.toNat - 0xE0) * 0x40 + (second.toNat - 0x80)) * 0x40 +
    (third.toNat - 0x80))

def quadruple (first second third fourth : UInt8) : Char :=
  Char.ofNat ((((first.toNat - 0xF0) * 0x40 + (second.toNat - 0x80)) * 0x40 +
    (third.toNat - 0x80)) * 0x40 + (fourth.toNat - 0x80))

/-- The second bytes that may follow the first byte of three: `E0` starts no
overlong form and `ED` starts no surrogate. -/
def secondOfThree (first second : UInt8) : Bool :=
  if first = 0xE0 then 0xA0 ≤ second.toNat && second.toNat ≤ 0xBF
  else if first = 0xED then 0x80 ≤ second.toNat && second.toNat ≤ 0x9F
  else isTail second

/-- The second bytes that may follow the first byte of four: `F0` starts no
overlong form and `F4` stays below U+110000. -/
def secondOfFour (first second : UInt8) : Bool :=
  if first = 0xF0 then 0x90 ≤ second.toNat && second.toNat ≤ 0xBF
  else if first = 0xF4 then 0x80 ≤ second.toNat && second.toNat ≤ 0x8F
  else isTail second

def readChar (first : UInt8) (rest : Bytes) : Option (Char × Nat) :=
  if first.toNat < 0x80 then some (Char.ofNat first.toNat, 0)
  else if first.toNat < 0xC2 then none
  else if first.toNat < 0xE0 then
    match rest with
    | second :: _ => if isTail second then some (pair first second, 1) else none
    | [] => none
  else if first.toNat < 0xF0 then
    match rest with
    | second :: third :: _ =>
        if secondOfThree first second && isTail third then
          some (triple first second third, 2)
        else none
    | _ => none
  else if first.toNat < 0xF5 then
    match rest with
    | second :: third :: fourth :: _ =>
        if secondOfFour first second && isTail third && isTail fourth then
          some (quadruple first second third fourth, 3)
        else none
    | _ => none
  else none

/-- Decodes bytes, or gives the number of bytes before the first one that
belongs to no character. -/
def decode : Bytes → Except Nat Text
  | [] => .ok []
  | first :: rest =>
      match readChar first rest with
      | none => .error 0
      | some (character, taken) =>
          match decode (rest.drop taken) with
          | .ok text => .ok (character :: text)
          | .error offset => .error (offset + taken + 1)
termination_by bytes => bytes.length
decreasing_by
  simp only [List.length_cons, List.length_drop]
  omega

def encodeChar (character : Char) : Bytes :=
  let code := character.toNat
  if code < 0x80 then [UInt8.ofNat code]
  else if code < 0x800 then
    [UInt8.ofNat (0xC0 + code / 0x40), UInt8.ofNat (0x80 + code % 0x40)]
  else if code < 0x10000 then
    [UInt8.ofNat (0xE0 + code / 0x1000), UInt8.ofNat (0x80 + code / 0x40 % 0x40),
      UInt8.ofNat (0x80 + code % 0x40)]
  else
    [UInt8.ofNat (0xF0 + code / 0x40000), UInt8.ofNat (0x80 + code / 0x1000 % 0x40),
      UInt8.ofNat (0x80 + code / 0x40 % 0x40), UInt8.ofNat (0x80 + code % 0x40)]

def encode (text : Text) : Bytes :=
  text.flatMap encodeChar

end Utf8
end Stencil
