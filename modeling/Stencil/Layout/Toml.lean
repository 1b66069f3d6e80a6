import Stencil.Fault
import Stencil.Layout
import Stencil.Text.Digits

/-! Layout options in TOML.

Only the part of TOML that can hold the options is read: lines of a bare or quoted
key and an integer, with comments.  Whatever else a TOML document may hold cannot
be an option, so it is refused in the same way as text that is no TOML. -/

namespace Stencil
namespace Layout

/-! ### Lines -/

def isTomlGap (character : Char) : Bool :=
  character = ' ' || character = '\t'

def skipGap (text : Text) : Text :=
  text.dropWhile isTomlGap

def isTomlControl (character : Char) : Bool :=
  character ≠ '\t' && (character.toNat < 0x20 || character.toNat = 0x7F)

/-- Drops the return at the end of every line but the last. -/
def dropReturns : List Text → List Text
  | [] => []
  | [last] => [last]
  | line :: others =>
      (if line.getLast? = some '\r' then line.dropLast else line) :: dropReturns others

def tomlLines (text : Text) : List Text :=
  dropReturns (Text.pieces text)

/-- Whether only a comment may be left of a line. -/
def endsLine (text : Text) : Bool :=
  match skipGap text with
  | [] => true
  | first :: comment => first = '#' && !comment.any isTomlControl

/-! ### Keys -/

def isBareKey (character : Char) : Bool :=
  character.isAlphanum || character = '_' || character = '-'

def tomlEscape? (letter : Char) : Option Char :=
  if letter ∈ ['\x22', '\\'] then some letter
  else if letter = 'b' then some '\x08'
  else if letter = 't' then some '\t'
  else if letter = 'n' then some '\n'
  else if letter = 'f' then some '\x0c'
  else if letter = 'r' then some '\r'
  else if letter = 'e' then some '\x1b'
  else none

def escapeDigits? (letter : Char) : Option Nat :=
  if letter = 'x' then some 2
  else if letter = 'u' then some 4
  else if letter = 'U' then some 8
  else none

def readBasicKey : Text → Option (Text × Text)
  | [] => none
  | character :: rest =>
      if character = '\x22' then some ([], rest)
      else if character = '\\' then
        match rest with
        | [] => none
        | letter :: others =>
            match escapeDigits? letter with
            | some count =>
                if others.length < count then none
                else
                  match (Text.hexValue? (others.take count)).bind Text.scalar? with
                  | none => none
                  | some found =>
                      (readBasicKey (others.drop count)).map fun (key, last) =>
                        (found :: key, last)
            | none =>
                match tomlEscape? letter with
                | none => none
                | some found =>
                    (readBasicKey others).map fun (key, last) => (found :: key, last)
      else if isTomlControl character then none
      else (readBasicKey rest).map fun (key, last) => (character :: key, last)
termination_by text => text.length
decreasing_by all_goals simp only [List.length_drop, List.length_cons]; omega

def readLiteralKey (text : Text) : Option (Text × Text) :=
  let key := text.takeWhile (· ≠ '\x27')
  match text.drop key.length with
  | [] => none
  | _ :: rest => if key.any isTomlControl then none else some (key, rest)

def readKey (text : Text) : Option (Text × Text) :=
  match text with
  | [] => none
  | first :: rest =>
      if first = '\x22' then readBasicKey rest
      else if first = '\x27' then readLiteralKey rest
      else
        let key := text.takeWhile isBareKey
        if key.isEmpty then none else some (key, text.drop key.length)

/-! ### Integers -/

def splitUnderscores : Text → List Text
  | [] => [[]]
  | character :: rest =>
      if character = '_' then [] :: splitUnderscores rest
      else
        match splitUnderscores rest with
        | [] => [[character]]
        | group :: others => (character :: group) :: others

/-- The digits of a number in which single underscores may stand between digits. -/
def plainDigits (isDigit : Char → Bool) (text : Text) : Option Text :=
  let groups := splitUnderscores text
  if groups.all fun group => !group.isEmpty && group.all isDigit then
    some groups.flatten
  else none

def basedInteger? (base : Nat) (text : Text) : Option Int :=
  (plainDigits (fun character => (Text.hexDigit? character).isSome) text).bind fun digits =>
    (Text.number? base digits).map Int.ofNat

/-- A decimal integer without needless zeros. -/
def decimalInteger? (text : Text) : Option Int :=
  let negative := text.head? = some '-'
  let unsigned := if negative ∨ text.head? = some '+' then text.tail else text
  (plainDigits Char.isDigit unsigned).bind fun digits =>
    if digits.head? = some '0' ∧ 1 < digits.length then none
    else
      let value : Int := Text.digitsValue digits
      some (if negative then -value else value)

def integer? (text : Text) : Option Int :=
  match Text.afterLead "0x".toList text with
  | some digits => basedInteger? 16 digits
  | none =>
      match Text.afterLead "0o".toList text with
      | some digits => basedInteger? 8 digits
      | none =>
          match Text.afterLead "0b".toList text with
          | some digits => basedInteger? 2 digits
          | none => decimalInteger? text

/-- An option value: an integer from zero that fits into 64 bits. -/
def width? (text : Text) : Option Nat :=
  match integer? text with
  | some value => if 0 ≤ value ∧ value < Nat.pow 2 64 then some value.toNat else none
  | none => none

/-! ### Documents -/

def isIntegerCharacter (character : Char) : Bool :=
  character.isAlphanum || character = '_' || character = '+' || character = '-'

def readOption (line : Text) : Option (Text × Nat) :=
  match readKey line with
  | none => none
  | some (key, afterKey) =>
      match skipGap afterKey with
      | '=' :: afterSign =>
          let value := skipGap afterSign
          let written := value.takeWhile isIntegerCharacter
          if endsLine (value.drop written.length) then
            (width? written).map fun width => (key, width)
          else none
      | _ => none

structure Chosen where
  indentWidth : Option Nat := none
  baseIndent : Option Nat := none
  deriving DecidableEq, Repr

def Chosen.set (key : Text) (width : Nat) (chosen : Chosen) : Option Chosen :=
  if key = "indent_width".toList ∧ chosen.indentWidth.isNone then
    some { chosen with indentWidth := some width }
  else if key = "base_indent".toList ∧ chosen.baseIndent.isNone then
    some { chosen with baseIndent := some width }
  else none

def readLines (number : Nat) (chosen : Chosen) : List Text → Except Fault Chosen
  | [] => .ok chosen
  | line :: others =>
      if endsLine line then readLines (number + 1) chosen others
      else
        match (readOption (skipGap line)).bind fun (key, width) => chosen.set key width with
        | some next => readLines (number + 1) next others
        | none =>
            .error (.layout ("no option on line ".toList ++ Text.decimal number))

/-- Reads layout options; those that are missing keep their defaults. -/
def ofToml (text : Text) : Except Fault Layout :=
  let body := if text.head? = some '\ufeff' then text.tail else text
  (readLines 1 {} (tomlLines body)).map fun chosen =>
    let standard : Layout := {}
    { indentWidth := chosen.indentWidth.getD standard.indentWidth
      baseIndent := chosen.baseIndent.getD standard.baseIndent }

end Layout
end Stencil
