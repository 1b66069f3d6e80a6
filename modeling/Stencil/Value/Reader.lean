import Stencil.Text.Digits
import Stencil.Value.Basic

/-! Reading values from JSON text.

Arrays and objects may be nested up to a fixed depth.  An integer that fits into
64 bits, with or without sign, stays an integer; every other number is a double
and must be finite. -/

namespace Stencil
namespace Value

def skipJsonSpace (text : Text) : Text :=
  text.dropWhile fun character => character ∈ [' ', '\t', '\n', '\r']

/-! ### Strings -/

def codeUnit? (text : Text) : Option Nat :=
  if text.length < 4 then none else Text.hexValue? (text.take 4)

/-- The character after `\u`, and how many characters write it.  A code point
beyond the basic plane is written as two surrogates. -/
def unicodeEscape? (text : Text) : Option (Char × Nat) :=
  match codeUnit? text with
  | none => none
  | some unit =>
      if 0xD800 ≤ unit ∧ unit < 0xDC00 then
        match Text.afterLead "\\u".toList (text.drop 4) with
        | none => none
        | some rest =>
            match codeUnit? rest with
            | none => none
            | some low =>
                if 0xDC00 ≤ low ∧ low < 0xE000 then
                  some (Char.ofNat (0x10000 + (unit - 0xD800) * 0x400 + (low - 0xDC00)), 10)
                else none
      else (Text.scalar? unit).map fun character => (character, 4)

def letterEscape? (letter : Char) : Option Char :=
  if letter ∈ ['\x22', '\\', '/'] then some letter
  else if letter = 'b' then some '\x08'
  else if letter = 'f' then some '\x0c'
  else if letter = 'n' then some '\n'
  else if letter = 'r' then some '\r'
  else if letter = 't' then some '\t'
  else none

def readJsonString : Text → Option (Text × Text)
  | [] => none
  | character :: rest =>
      if character = '\x22' then some ([], rest)
      else if character = '\\' then
        match rest with
        | [] => none
        | letter :: others =>
            if letter = 'u' then
              match unicodeEscape? others with
              | none => none
              | some (found, taken) =>
                  (readJsonString (others.drop taken)).map fun (text, last) =>
                    (found :: text, last)
            else
              match letterEscape? letter with
              | none => none
              | some found =>
                  (readJsonString others).map fun (text, last) => (found :: text, last)
      else if character.toNat < 0x20 then none
      else (readJsonString rest).map fun (text, last) => (character :: text, last)
termination_by text => text.length
decreasing_by all_goals simp_all <;> omega

/-! ### Numbers -/

def readDigits (text : Text) : Option (Text × Text) :=
  let digits := text.takeWhile Char.isDigit
  if digits.isEmpty then none else some (digits, text.dropWhile Char.isDigit)

/-- Reads the digits in front of the point, without needless zeros. -/
def readWhole (text : Text) : Option (Text × Text) :=
  match readDigits text with
  | some (digits, rest) =>
      if digits.head? = some '0' ∧ 1 < digits.length then none else some (digits, rest)
  | none => none

def readFraction (text : Text) : Option (Text × Text) :=
  match text with
  | '.' :: rest => readDigits rest
  | _ => some ([], text)

def readPower (text : Text) : Option (Option Int × Text) :=
  match text with
  | mark :: rest =>
      if mark = 'e' ∨ mark = 'E' then
        let negative := rest.head? = some '-'
        let unsigned := if negative ∨ rest.head? = some '+' then rest.tail else rest
        (readDigits unsigned).map fun (digits, last) =>
          let power : Int := Text.digitsValue digits
          (some (if negative then -power else power), last)
      else some (none, text)
  | [] => some (none, [])

/-- Takes digits as long as the number fits into 64 bits, after those of `value`;
the digits that are left over come second. -/
def leadingNumber (value : Nat) : Text → Nat × Text
  | [] => (value, [])
  | digit :: rest =>
      let next := value * 10 + Text.digitsValue [digit]
      if next < Nat.pow 2 64 then leadingNumber next rest else (value, digit :: rest)

def tenTo (exponent : Nat) : Float :=
  Float.ofScientific 1 false exponent

/-- A double times a power of ten, unless it is out of range.  It takes one product
or quotient of doubles, or two quotients below `1e-308`, each of which is rounded;
so the result need not be the nearest double. -/
def scale? (number : Float) (exponent : Int) : Option Float :=
  if 0 ≤ exponent then
    if number == 0.0 then some number
    else if 308 < exponent then none
    else
      let product := number * tenTo exponent.toNat
      if product.isFinite then some product else none
  else if -308 ≤ exponent then some (number / tenTo (-exponent).toNat)
  else if -616 ≤ exponent then some (number / tenTo 308 / tenTo (-exponent - 308).toNat)
  else some 0.0

/-- The number of a sign, digits, a fraction and a power of ten.  A double has the
leading digits that fit into 64 bits, scaled by a power of ten. -/
def numberOf (negative : Bool) (whole fraction : Text) (power : Option Int) : Option Value :=
  let digits := Text.digitsValue whole
  let number : Int := if negative then -digits else digits
  let fits :=
    if negative then -(Nat.pow 2 63 : Int) ≤ number ∧ digits ≠ 0 else number < Nat.pow 2 64
  if fraction.isEmpty ∧ power.isNone ∧ fits then some (.int number)
  else
    let (upToPoint, passed) := leadingNumber 0 whole
    let (significand, dropped) := leadingNumber upToPoint fraction
    let exponent : Int := passed.length - (fraction.length - dropped.length) + power.getD 0
    (scale? (Float.ofNat significand) exponent).map fun magnitude =>
      .float (if negative then -magnitude else magnitude)

def readJsonNumber (text : Text) : Option (Value × Text) :=
  let negative := text.head? = some '-'
  match readWhole (if negative then text.tail else text) with
  | none => none
  | some (whole, afterWhole) =>
      match readFraction afterWhole with
      | none => none
      | some (fraction, afterFraction) =>
          match readPower afterFraction with
          | none => none
          | some (power, rest) =>
              (numberOf negative whole fraction power).map fun value => (value, rest)

/-! ### Values -/

def readJsonWord (text : Text) : Option (Value × Text) :=
  match Text.afterLead "null".toList text with
  | some rest => some (.null, rest)
  | none =>
      match Text.afterLead "true".toList text with
      | some rest => some (.bool true, rest)
      | none =>
          match Text.afterLead "false".toList text with
          | some rest => some (.bool false, rest)
          | none => none

mutual

/-- Reads a value that is nested less than `depth` deep.  The first argument
bounds the number of values and separators. -/
def readJson : Nat → (depth : Nat) → Text → Option (Value × Text)
  | 0, _, _ => none
  | steps + 1, depth, text =>
      match skipJsonSpace text with
      | [] => none
      | first :: rest =>
          if first = '\x22' then
            (readJsonString rest).map fun (inner, last) => (.string inner, last)
          else if first = '[' then
            if depth ≤ 1 then none
            else
              match skipJsonSpace rest with
              | ']' :: last => some (.array [], last)
              | _ =>
                  (readJsonItems steps (depth - 1) rest).map fun (items, last) =>
                    (.array items, last)
          else if first = '\x7b' then
            if depth ≤ 1 then none
            else
              match skipJsonSpace rest with
              | '\x7d' :: last => some (.object [], last)
              | _ =>
                  (readJsonMembers steps (depth - 1) rest).map fun (members, last) =>
                    (ofMembers members, last)
          else if first = '-' ∨ first.isDigit then readJsonNumber (first :: rest)
          else readJsonWord (first :: rest)

def readJsonItems : Nat → (depth : Nat) → Text → Option (List Value × Text)
  | 0, _, _ => none
  | steps + 1, depth, text =>
      match readJson steps depth text with
      | none => none
      | some (item, after) =>
          match skipJsonSpace after with
          | ',' :: rest =>
              (readJsonItems steps depth rest).map fun (items, last) => (item :: items, last)
          | ']' :: rest => some ([item], rest)
          | _ => none

def readJsonMembers : Nat → (depth : Nat) → Text → Option (List (Text × Value) × Text)
  | 0, _, _ => none
  | steps + 1, depth, text =>
      match skipJsonSpace text with
      | '\x22' :: rest =>
          match readJsonString rest with
          | none => none
          | some (name, afterName) =>
              match skipJsonSpace afterName with
              | ':' :: afterColon =>
                  match readJson steps depth afterColon with
                  | none => none
                  | some (value, after) =>
                      match skipJsonSpace after with
                      | ',' :: others =>
                          (readJsonMembers steps depth others).map fun (members, last) =>
                            ((name, value) :: members, last)
                      | '\x7d' :: others => some ([(name, value)], others)
                      | _ => none
              | _ => none
      | _ => none

end

def depthLimit : Nat := 128

def ofJson? (text : Text) : Option Value :=
  match readJson (2 * text.length + 2) depthLimit text with
  | some (value, rest) => if (skipJsonSpace rest).isEmpty then some value else none
  | none => none

end Value
end Stencil
