import Stencil.Source.Basic
import Stencil.Source.Encoding

/-! Sources from text and from bytes.

Line breaks are unified, a pragma on the first line is obeyed and dropped, and
the whole text is checked for disallowed characters before anything is read. -/

namespace Stencil
namespace Source

/-- Whether a character is refused anywhere in a template: the controls other
than newline and next line, and the non-characters of the basic plane. -/
def isDisallowed (character : Char) : Bool :=
  let code := character.toNat
  code ≤ 0x09 || (0x0B ≤ code && code ≤ 0x1F) || (0x7F ≤ code && code ≤ 0x84) ||
    (0x86 ≤ code && code ≤ 0x9F) || (0xFDD0 ≤ code && code ≤ 0xFDEF) ||
    code == 0xFFFE || code == 0xFFFF

def numberFrom (first : Nat) : List Text → List (Nat × Text)
  | [] => []
  | line :: others => (first, line) :: numberFrom (first + 1) others

def firstDisallowed : List (Nat × Text) → Option (Nat × Char)
  | [] => none
  | (number, line) :: others =>
      match line.find? isDisallowed with
      | some character => some (number, character)
      | none => firstDisallowed others

def ofLines (firstLine : Nat) (text : Text) : Except Fault Source :=
  let lines := numberFrom firstLine text.lines
  match firstDisallowed lines with
  | some (number, character) => .error (.invalidCharacter number character)
  | none => .ok { lines := lines, current := none, number := firstLine }

/-- A source over decoded text.  A pragma line is dropped and the lines after it
are numbered from two. -/
def ofText (text : Text) : Except Fault Source :=
  let unified := text.unifyBreaks
  match Encoding.pragma (unified.lines.headD []) with
  | none => ofLines 1 unified
  | some label =>
      match Encoding.ofLabel label with
      | .error fault => .error fault
      | .ok _ => ofLines 2 unified.afterFirstLine

def splitFirstLine : Utf8.Bytes → Utf8.Bytes × Utf8.Bytes
  | [] => ([], [])
  | byte :: rest =>
      if byte = 0x0A then ([byte], rest)
      else
        let (first, others) := splitFirstLine rest
        (byte :: first, others)

def pragmaOfBytes (bytes : Utf8.Bytes) : Option Text :=
  match Utf8.decode bytes with
  | .ok line => Encoding.pragma line
  | .error _ => none

def decodeLines (encoding : Encoding) (firstLine : Nat) (bytes : Utf8.Bytes) :
    Except Fault Source :=
  match encoding.decode firstLine bytes with
  | .error fault => .error fault
  | .ok text => ofLines firstLine text.unifyBreaks

/-- A source over bytes: in the encoding that a pragma names, else in UTF-8.  The
first line ends at the first newline byte, and breaks are unified only after it
was set apart. -/
def ofBytes (bytes : Utf8.Bytes) : Except Fault Source :=
  let (first, rest) := splitFirstLine bytes
  match pragmaOfBytes first with
  | none => decodeLines .utf8 1 bytes
  | some label =>
      match Encoding.ofLabel label with
      | .error fault => .error fault
      | .ok encoding => decodeLines encoding 2 rest

end Source
end Stencil
