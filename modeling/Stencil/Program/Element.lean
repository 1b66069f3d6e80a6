import Stencil.Program.Basic

/-! Elements whose attribute list still grows, and the sealing of that list.

Literal `class` values are joined at the place of the first one.  After that no
name may occur twice. -/

namespace Stencil

/-- An element that waits for its end.  Literal values are not escaped yet. -/
structure PendingElement where
  tag : Text
  attributes : List Attribute
  selfClosed : Bool
  data : Option Fragment
  line : Nat
  deriving DecidableEq, Repr

namespace PendingElement

def classKey : Text := "class".toList

def literalClass? (entry : Attribute) : Option Text :=
  match entry.value with
  | .literal text => if entry.name = classKey then some text else none
  | .code _ => none

/-- Joins literal classes with spaces at the place of the first one. -/
def joinClasses : List Attribute → List Attribute
  | [] => []
  | entry :: others =>
      match literalClass? entry with
      | some text =>
          let joined := [' '].intercalate (text :: others.filterMap literalClass?)
          { entry with value := .literal joined } ::
            others.filter fun other => (literalClass? other).isNone
      | none => entry :: joinClasses others

/-- The first name that occurs again, or that is among the names seen before. -/
def firstRepeated (seen : List Text) : List Attribute → Option Text
  | [] => none
  | entry :: others =>
      if entry.name ∈ seen then some entry.name
      else firstRepeated (entry.name :: seen) others

def escapeLiteral (profile : Markup.Profile) (entry : Attribute) : Attribute :=
  match entry.value with
  | .literal text => { entry with value := .literal (profile.escapeAttribute text) }
  | .code _ => entry

/-- Ends the attribute list: classes are joined, repeated names are refused and
literal values are escaped. -/
def sealed (profile : Markup.Profile) (element : PendingElement) :
    Except Fault (List Attribute) :=
  let joined := joinClasses element.attributes
  match firstRepeated [] joined with
  | some name => .error (.parse element.line (.duplicateAttribute name element.tag))
  | none => .ok (joined.map (escapeLiteral profile))

end PendingElement

end Stencil
