import Stencil.Fault
import Stencil.Text.Word
import Stencil.Text.Utf8

/-! The encodings a template may be written in, the pragma on its first line that
names one, and the decoding of its bytes. -/

namespace Stencil

inductive Encoding where
  | utf8
  | ascii
  deriving DecidableEq, Repr

namespace Encoding

/-! ### Labels -/

/-- An encoding label in lower case without its separators, so that `UTF-8`,
`utf_8` and `utf8` are the same. -/
def foldLabel (label : Text) : Text :=
  Text.asciiLower (label.filter fun character => character ≠ '-' ∧ character ≠ '_')

def ofLabel? (label : Text) : Option Encoding :=
  let folded := foldLabel label
  if folded = "utf8".toList then some .utf8
  else if folded = "ascii".toList ∨ folded = "usascii".toList then some .ascii
  else none

def ofLabel (label : Text) : Except Fault Encoding :=
  match ofLabel? label with
  | some encoding => .ok encoding
  | none => .error (.unsupportedEncoding label)

/-! ### The coding pragma -/

def isLabelCharacter (character : Char) : Bool :=
  character = '-' || character = '.' || Text.isWord character

def isGap (character : Char) : Bool :=
  character = ' ' || character = '\t'

def labelAt (text : Text) : Option Text :=
  match Text.afterLead "coding".toList text with
  | some (separator :: rest) =>
      if separator = ':' ∨ separator = '=' then
        let label := (rest.dropWhile isGap).takeWhile isLabelCharacter
        if label.isEmpty then none else some label
      else none
  | _ => none

def findLabel : Text → Option Text
  | [] => none
  | character :: rest =>
      match labelAt (character :: rest) with
      | some label => some label
      | none => if character = '\n' then none else findLabel rest

/-- The label that a first line such as `// -*- coding: utf-8 -*-` or
`-# coding=utf-8` names. -/
def pragma (line : Text) : Option Text :=
  let body := line.dropWhile isGap
  match Text.afterLead "//".toList body with
  | some rest => findLabel rest
  | none =>
      match Text.afterLead "-#".toList body with
      | some rest => findLabel rest
      | none => none

/-! ### Decoding -/

def lineAt (firstLine : Nat) (bytes : Utf8.Bytes) (offset : Nat) : Nat :=
  firstLine + (bytes.take offset).count 0x0A

def undecodable (firstLine : Nat) (bytes : Utf8.Bytes) (offset : Nat) : Fault :=
  .invalidCharacter (lineAt firstLine bytes offset) '\ufffd'

def decode (encoding : Encoding) (firstLine : Nat) (bytes : Utf8.Bytes) :
    Except Fault Text :=
  let plain := bytes.takeWhile (·.toNat < 0x80)
  if encoding = .ascii ∧ plain.length < bytes.length then
    .error (undecodable firstLine bytes plain.length)
  else
    match Utf8.decode bytes with
    | .ok text => .ok text
    | .error offset => .error (undecodable firstLine bytes offset)

end Encoding

end Stencil
