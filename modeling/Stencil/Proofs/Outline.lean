import Stencil.Proofs.Assembly

/-! Outlines: nested items, their tokens and their instructions.

An item is a leaf, an element on a line of its own, or an element with children.  The
tokens of an outline are its items from left to right, with the level of the children
between an indent and a dedent; its instructions are those of the items, with a blank
where a blank line stood.  Neither function knows of a stack. -/

namespace Stencil

def Attribute.token (entry : Attribute) : Token :=
  match entry.value with
  | .literal text => .literalAttribute entry.name text
  | .code code => .codeAttribute entry.name code

namespace Outline

/-! ### Items -/

/-- Attributes that can be sealed: no name is left twice once classes are joined. -/
structure Attributes where
  entries : List Attribute
  seals : PendingElement.firstRepeated [] (PendingElement.joinClasses entries) = none

def Attributes.emitted (profile : Markup.Profile) (attributes : Attributes) : List Attribute :=
  (PendingElement.joinClasses attributes.entries).map (PendingElement.escapeLiteral profile)

inductive Leaf where
  | content (text : Text)
  | codeContent (expression : Text) (escape : Bool)
  | rawCode (statement : Text)
  /-- The lines of a filter whose lines run as raw code. -/
  | code (lines : List Text)
  | comment (lines : List Text)

inductive Body where
  | empty
  | selfClosed
  | data (text : Text)
  | codeData (expression : Text) (escape : Bool)

mutual

inductive Item where
  | leaf (given : Leaf)
  | element (tag : Text) (attributes : Attributes) (body : Body)
  /-- An element with children, and whether a blank line stands in front of them. -/
  | parent (tag : Text) (attributes : Attributes) (spaced : Bool) (children : Siblings)

/-- Items on one level, and where a blank line stands between them. -/
inductive Siblings where
  | last (item : Item)
  | cons (item : Item) (spaced : Bool) (others : Siblings)

end

def Leaf.isComment : Leaf → Bool
  | .comment _ => true
  | _ => false

def Item.isComment : Item → Bool
  | .leaf given => given.isComment
  | _ => false

def Siblings.first : Siblings → Item
  | .last item => item
  | .cons item _ _ => item

mutual

def Item.Apart : Item → Prop
  | .leaf _ => True
  | .element _ _ _ => True
  | .parent _ _ _ children => children.Apart

def Siblings.Apart : Siblings → Prop
  | .last item => item.Apart
  | .cons item spaced others =>
      item.Apart ∧ others.Apart ∧
        (spaced = false → item.isComment = true → others.first.isComment = false)

end

/-! ### Tokens -/

def Leaf.token : Leaf → Token
  | .content text => .content text
  | .codeContent expression escape => .codeContent expression escape
  | .rawCode statement => .rawCode statement
  | .code lines => .filter "code".toList lines
  | .comment lines => .comment lines

def Body.tokens : Body → List Token
  | .empty => []
  | .selfClosed => [.selfClose]
  | .data text => [.data text]
  | .codeData expression escape => [.codeData expression escape]

def blankLines (spaced : Bool) : List Token :=
  if spaced then [.blankLine] else []

mutual

def Item.tokens : Item → List Token
  | .leaf given => [given.token]
  | .element tag attributes body =>
      .element tag :: (attributes.entries.map Attribute.token ++ body.tokens)
  | .parent tag attributes spaced children =>
      .element tag :: (attributes.entries.map Attribute.token ++
        .indent :: (blankLines spaced ++ (children.tokens ++ [.dedent])))

def Siblings.tokens : Siblings → List Token
  | .last item => item.tokens
  | .cons item spaced others => item.tokens ++ (blankLines spaced ++ others.tokens)

end

/-! ### Instructions -/

def Leaf.instructions (profile : Markup.Profile) : Leaf → List Instruction
  | .content text => [.content (.text (profile.escapeText text))]
  | .codeContent expression escape => [.content (.code expression escape)]
  | .rawCode statement => [.rawCode statement]
  | .code lines => lines.map fun line => if line.isEmpty then .blank else .rawCode line
  | .comment lines => [.comment (lines.map profile.escapeComment)]

def Body.fragment? (profile : Markup.Profile) : Body → Option Fragment
  | .empty | .selfClosed => none
  | .data text => some (.text (profile.escapeText text))
  | .codeData expression escape => some (.code expression escape)

def blanks (spaced : Bool) : List Instruction :=
  if spaced then [.blank] else []

mutual

/-- The instructions of an item; a blank line in front of children is repeated behind
them. -/
def Item.instructions (profile : Markup.Profile) : Item → List Instruction
  | .leaf given => given.instructions profile
  | .element tag attributes body =>
      [.element tag (attributes.emitted profile) (body.fragment? profile)]
  | .parent tag attributes spaced children =>
      .openElement tag (attributes.emitted profile) ::
        (blanks spaced ++ (children.instructions profile ++
          (blanks spaced ++ [.closeElement tag])))

def Siblings.instructions (profile : Markup.Profile) : Siblings → List Instruction
  | .last item => item.instructions profile
  | .cons item spaced others =>
      item.instructions profile ++ (blanks spaced ++ others.instructions profile)

end

end Outline

/-! ### Outlines -/

structure Prologue where
  directive : Markup.Directive
  header : Markup.Header
  profile : Markup.Profile
  declares : ∃ line, Markup.Header.ofDirective line directive = .ok (header, profile)

def Prologue.tokens (prologue : Prologue) : List Token :=
  .directive prologue.directive.kind ::
    prologue.directive.attributes.map fun entry => .literalAttribute entry.1 entry.2

structure Outline where
  prologue : Option Prologue
  items : Option Outline.Siblings
  apart : ∀ siblings ∈ items, siblings.Apart

namespace Outline

def tokens (outline : Outline) : List Token :=
  outline.prologue.elim [] Prologue.tokens ++ outline.items.elim [] Siblings.tokens

def profile (outline : Outline) : Markup.Profile :=
  outline.prologue.elim Markup.Profile.standard Prologue.profile

def program (outline : Outline) : Program where
  header := outline.prologue.map Prologue.header
  profile := outline.profile
  instructions := outline.items.elim [] (Siblings.instructions outline.profile)

end Outline

end Stencil
