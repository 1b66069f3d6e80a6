import Stencil.Markup.Header

/-! Programs: the compiled form of a template, a list of instructions that each
write whole lines. -/

namespace Stencil

inductive Fragment where
  /-- Literal text, already escaped. -/
  | text (text : Text)
  /-- Code, and whether its result is escaped. -/
  | code (code : Text) (escape : Bool)
  deriving DecidableEq, Repr

/-- The value of an attribute: literal, or code whose result is not escaped. -/
inductive AttributeValue where
  | literal (text : Text)
  | code (code : Text)
  deriving DecidableEq, Repr

structure Attribute where
  name : Text
  value : AttributeValue
  deriving DecidableEq, Repr

inductive Instruction where
  /-- An element on one line, empty or with inline data. -/
  | element (tag : Text) (attributes : List Attribute) (body : Option Fragment)
  /-- The opening line of an element with children; a level opens after it. -/
  | openElement (tag : Text) (attributes : List Attribute)
  | closeElement (tag : Text)
  | content (fragment : Fragment)
  /-- The lines of a comment, already escaped. -/
  | comment (lines : List Text)
  | blank
  | rawCode (code : Text)
  deriving DecidableEq, Repr

/-- A compiled template: its header, if it declares one, the profile that escapes
the results of code, and its instructions. -/
structure Program where
  header : Option Markup.Header
  profile : Markup.Profile
  instructions : List Instruction

end Stencil
